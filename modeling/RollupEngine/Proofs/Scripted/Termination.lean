import RollupEngine.Proofs.Collecting
import RollupEngine.Proofs.Noninterference
import RollupEngine.Proofs.Refinement
import RollupEngine.Proofs.Session.Word

/-!
# Pulls come to an end

A pull runs its machine until a turn is not ignored. `Seat.Loops` is this loop without a bound, and
the patience of a host is only a bound on it (`Seat.Loops.run_turns`). A scripted machine ends the
loop: a turn that is passed over, and one that delivers an event, uses up an action, because a
machine that has no action left halts (`Scripted.actionsLeft_of_turns`). So the loop ends after as
many runs as there are actions left, and one (`Scripted.pull_cases`).

What a session still costs is counted by `Scripted.allowance`: the runs that the script allows which
it works on, or will work on. Every move pays for its runs from the allowance if the machine raises
nothing but ordinary errors (`Scripted.allowance_of_move`), hence every path; and others cannot draw
on the allowance of a session that runs (`EngineOp.allowance_of_bystander`). A drain ends a session
that has begun, for a session goes on after a turn only if an action is used up (`Session.GoesOn`).
The one exception is a break whose code cannot be written: the drain fails at it, and the session
goes on (`EngineOp.long_reasons_go_on`).
-/

namespace RollupEngine

variable {W : Type}

/-! ## Runs -/

/-- Whether a machine was run. -/
def Exchange.isRun : Exchange → Bool
  | .run .. => true
  | _ => false

/-- How often machines were run. -/
def runs (xs : List Exchange) : Nat :=
  xs.countP Exchange.isRun

@[simp]
theorem runs_append (xs ys : List Exchange) : runs (xs ++ ys) = runs xs + runs ys :=
  List.countP_append

theorem runs_eq_zero {xs : List Exchange} (h : ∀ x ∈ xs, x.isRun = false) : runs xs = 0 :=
  List.countP_eq_zero.2 fun x hx => by simp [h x hx]

theorem runs_of_releases {xs : List Exchange} (h : ∀ x ∈ xs, ∃ m reply, x = .shutdown m reply) :
    runs xs = 0 := by
  refine runs_eq_zero fun x hx => ?_
  obtain ⟨m, reply, rfl⟩ := h x hx
  rfl

theorem Controller.Begins.runs {mode : Isolation} {c c' : Controller} {xs : List Exchange}
    {ns : List Notice} {o : Except Failure Handle} (h : c.Begins mode xs ns o c') :
    runs xs = 0 := by
  refine runs_eq_zero fun x hx => ?_
  obtain ⟨-, reply, rfl⟩ := h.mem hx
  rfl

theorem Hears.runs {w : Handle} {xs : List Exchange} {o : Except Failure Reading}
    (h : Hears w xs o) : runs xs = 1 := by
  cases h with
  | stopped | broke | silent | yielded => rfl

namespace Session

variable {s : Session} {kind : InputKind} {c c' : Controller} {p : Phase} {xs : List Exchange}
  {ns : List Notice}

/-- A turn runs its machine once. -/
theorem Turns.runs {w : Handle} {o : Except Failure Seat.Turn} (h : Turns kind w c xs ns o c' p) :
    runs xs = 1 := by
  cases h with
  | heard hh hj => rw [runs_append, hh.runs, runs_of_releases fun _ hx => hj.mem hx]
  | interrupted hh => exact hh.runs
  | failed hh _ hf => rw [runs_append, hh.runs, runs_of_releases fun _ hx => hf.mem hx]

theorem Closes.runs {o : Except Failure Unit} (h : s.Closes c xs ns o c' p) : runs xs = 0 :=
  runs_of_releases fun _ hx => h.mem hx

theorem Closes.done_phase {o : Except Failure Unit} (h : s.Closes c xs ns o c' p) :
    p.done = true := by
  cases h with
  | fresh | running => rfl
  | done h => exact h

/-- After such a turn a session goes on: it delivers an event, is ignored, or hears a code that
cannot be written. -/
def GoesOn : Except Failure Seat.Turn → Prop
  | .ok turn => turn ≠ .over
  | .error f => f = .unwritable

/-- A turn after which a session goes on has heard its machine, and no ending. -/
theorem Turns.heard_of_goesOn {w : Handle} {o : Except Failure Seat.Turn}
    (h : Turns kind w c xs ns o c' p) (ho : GoesOn o) :
    p = .running w ∧ ∃ r, Hears w xs (.ok r) ∧ ∀ ending, kind.verdict r ≠ .stop ending := by
  cases h with
  | heard hh hj =>
    cases hj with
    | delivered hv | passed hv | refused hv =>
      rw [List.append_nil]
      exact ⟨rfl, _, hh, by simp [hv]⟩
    | @ended _ _ ending o _ _ he =>
      cases o with
      | error f => exact absurd ho (he.ne_unwritable rfl)
      | ok turn =>
        obtain ⟨rfl, -⟩ := he.over_of_ok rfl
        exact absurd rfl ho
  | interrupted _ he => exact absurd ho (Failure.ne_unwritable_of_interrupt he)
  | failed _ _ hf => exact absurd ho hf.ne_unwritable

/-- Any other turn ends its session, unless it is interrupted. -/
theorem Turns.done_phase {w : Handle} {o : Except Failure Seat.Turn}
    (h : Turns kind w c xs ns o c' p) (ho : ¬GoesOn o) (hx : ∀ x ∈ xs, x.ordinary = true) :
    p.done = true := by
  cases h with
  | heard _ hj =>
    cases hj with
    | delivered | passed => exact absurd nofun ho
    | refused => exact absurd rfl ho
    | ended => exact Ending.done_phase _
  | interrupted hh he =>
    obtain ⟨x, hmem, hraised⟩ := hh.raised
    have hord := hx x hmem
    rw [Exchange.ordinary_eq hraised, he] at hord
    cases hord
  | failed => rfl

/-- A turn that fails ends its session, unless it is interrupted or could not write a code. -/
theorem Turns.done_phase_iff {w : Handle} {f : Failure} (h : Turns kind w c xs ns (.error f) c' p)
    (hx : ∀ x ∈ xs, x.ordinary = true) : p.done = true ↔ f ≠ .unwritable := by
  constructor
  · rintro hdone rfl
    rw [(h.heard_of_goesOn rfl).1] at hdone
    cases hdone
  · exact fun hne => h.done_phase hne hx

end Session

/-! ## The loop of a pull -/

namespace Seat

/-- The loop of a pull without a bound: the machine `w` is run `n` times, until a turn is not
ignored. -/
inductive Loops (b : Backend W) (w : Handle) :
    Nat → Seat W → Except Failure (Option StreamEvent) → Seat W → Prop
  | delivered {s s' : Seat W} {event : StreamEvent}
      (h : (turn b w).run s = .ok (.delivered event) s') : Loops b w 1 s (.ok (some event)) s'
  | ended {s s' : Seat W} (h : (turn b w).run s = .ok .over s') : Loops b w 1 s (.ok none) s'
  | failed {s s' : Seat W} {f : Failure} (h : (turn b w).run s = .error f s') :
    Loops b w 1 s (.error f) s'
  | ignored {s s' s'' : Seat W} {n : Nat} {o : Except Failure (Option StreamEvent)}
      (h : (turn b w).run s = .ok .ignored s') (rest : Loops b w n s' o s'') :
    Loops b w (n + 1) s o s''

variable {b : Backend W} {w : Handle} {n : Nat} {s s' : Seat W}
  {o : Except Failure (Option StreamEvent)}

theorem Loops.pos (h : Loops b w n s o s') : 0 < n := by
  cases h with
  | delivered | ended | failed => exact Nat.one_pos
  | ignored => exact Nat.succ_pos _

/-- A host that is patient enough sees the loop to its end. -/
theorem Loops.run_turns (h : Loops b w n s o s') {patience : Nat} (hn : n ≤ patience) :
    (turns b w patience).run s = Act.result o s' := by
  induction h generalizing patience with
  | delivered h | ended h | failed h =>
    obtain ⟨k, rfl⟩ := Nat.exists_eq_add_of_le' hn
    rw [turns, EStateM.run_bind, h]
    rfl
  | ignored h _ ih =>
    obtain ⟨k, rfl⟩ := Nat.exists_eq_add_of_le' hn
    rw [← Nat.add_assoc, turns, EStateM.run_bind, h]
    exact ih (Nat.le_add_left _ _)

end Seat

/-- What is heard of a machine is one break. -/
theorem Hears.exists_break {m : Handle} {xs : List Exchange} {r : Reading}
    (h : Hears m xs (.ok r)) :
    ∃ a : Break, r = readBreak a.reason a.request ∧ xs = a.exchanges m := by
  cases h with
  | broke reason hy => exact ⟨⟨reason, none⟩, rfl, by simp [Break.exchanges, hy]⟩
  | yielded reason hy request => exact ⟨⟨reason, request⟩, rfl, by simp [Break.exchanges, hy]⟩

/-! ## Scripted machines -/

namespace Scripted

/-- A turn after which a session goes on uses up an action. -/
theorem actionsLeft_of_turns {kind : InputKind} {m : Handle} {c c' : Controller} {p : Phase}
    {xs : List Exchange} {ns : List Notice} {o : Except Failure Seat.Turn} {w w' : World}
    (h : Session.Turns kind m c xs ns o c' p) (ho : Session.GoesOn o)
    (hx : backend.Replays w xs w') : w'.actionsLeft m < w.actionsLeft m := by
  obtain ⟨-, r, hh, hr⟩ := h.heard_of_goesOn ho
  obtain ⟨a, rfl, rfl⟩ := hh.exists_break
  have ha : kind.endingAt? a = none := InputKind.endingAt?_eq_none_of_verdict hr
  exact actionsLeft_of_not_ending ha hx

/-- How a pull ends that runs the machine `m` so often, from `s` on: it delivers an event for which
actions were used up, or the session is over, unless there was an interrupt, or a code that could
not be written. -/
inductive Pulls (m : Handle) (n : Nat) (s : Seat World) (xs : List Exchange) (s' : Seat World) :
    Except Failure (Option StreamEvent) → Prop
  | delivered (event : StreamEvent) (hp : s'.session.phase = .running m)
      (hn : s'.world.actionsLeft m + n ≤ s.world.actionsLeft m) :
    Pulls m n s xs s' (.ok (some event))
  | ended {o : Except Failure Unit} (hn : n ≤ s.world.actionsLeft m + 1)
      (hdone : (∀ x ∈ xs, x.ordinary = true) →
        (s'.session.phase.done = true ↔ o ≠ .error .unwritable)) :
    Pulls m n s xs s' (o.map fun _ => none)

/-- The loop of a pull ends, after as many runs at most as there are actions left, and one. -/
theorem pull_cases {m : Handle} {s : Seat World} (hp : s.session.phase = .running m) :
    ∃ n xs ns o s', Seat.Loops backend m n s o s' ∧ s.site.Follows backend xs ns s'.site ∧
      runs xs = n ∧ Pulls m n s xs s' o := by
  induction hk : s.world.actionsLeft m using Nat.strong_induction_on generalizing s with
  | _ k ih =>
    obtain ⟨xs, ns, o, s', hrun, hturns, -⟩ := Seat.turn_cases backend hp
    have hruns := hturns.runs
    have hless (ho : Session.GoesOn o) : s'.world.actionsLeft m < s.world.actionsLeft m :=
      actionsLeft_of_turns hturns ho hrun.follows.world
    rcases o with f | event | _ | _
    · refine ⟨1, xs, ns, .error f, s', .failed hrun.run, hrun.follows, hruns, ?_⟩
      refine .ended (o := .error f) (Nat.le_add_left ..) fun hord => ?_
      rw [hturns.done_phase_iff hord, Ne, Ne, Except.error.injEq]
    · refine ⟨1, xs, ns, _, s', .delivered hrun.run, hrun.follows, hruns, ?_⟩
      exact .delivered event (hturns.running_of_delivered rfl) (hless nofun)
    · -- the turn is passed over
      have hlt := hless nofun
      obtain ⟨n, ys, ms, o, s'', hloops, hfollows, hn, hpulls⟩ :=
        ih _ (hk ▸ hlt) (hturns.running_of_ignored rfl) rfl
      refine ⟨n + 1, xs ++ ys, ns ++ ms, o, s'', .ignored hrun.run hloops,
        hrun.follows.trans hfollows, by rw [runs_append, hruns, hn, Nat.add_comm], ?_⟩
      cases hpulls with
      | delivered event hp' hle => exact .delivered event hp' (by omega)
      | ended hle hdone =>
        exact .ended (by omega) fun hord => hdone fun x hx => hord x (List.mem_append_right _ hx)
    · refine ⟨1, xs, ns, .ok none, s', .ended hrun.run, hrun.follows, hruns, ?_⟩
      refine .ended (o := .ok ()) (Nat.le_add_left ..) fun hord => ?_
      exact iff_of_true (hturns.done_phase (fun ho => ho rfl) hord) nofun

theorem Pulls.le {m : Handle} {n : Nat} {s s' : Seat World} {xs : List Exchange}
    {o : Except Failure (Option StreamEvent)} (h : Pulls m n s xs s' o) :
    n ≤ s.world.actionsLeft m + 1 := by
  cases h with
  | delivered _ _ hn => omega
  | ended hn => exact hn

/-- The host sees every pull to its end. -/
theorem run_pull_of_loops {m : Handle} {n : Nat} {s s' : Seat World}
    {o : Except Failure (Option StreamEvent)} (hp : s.session.phase = .running m)
    (h : Seat.Loops backend m n s o s') (hn : n ≤ s.world.actionsLeft m + 1) :
    (Seat.pull backend).run s = Act.result o s' := by
  rw [Seat.run_pull_running backend hp]
  exact h.run_turns hn

/-- A loop fails with what its last pull fails with. -/
theorem failure?_ofPull (events : List StreamEvent) (o : Except Failure Unit) (f : Failure) :
    (⟨events, .ofPull o⟩ : Drain).failure? = some f ↔ o = .error f := by
  cases o <;> simp [Drain.failure?, DrainEnd.ofPull]

/-- A loop over a session ends when the session is over, or cannot go on, if the host is willing to
pull so often. -/
theorem loop_cases {m : Handle} {spent : DrainEnd} (k : Nat) {s : Seat World}
    (hp : s.session.phase = .running m) (hk : s.world.actionsLeft m < k) :
    ∃ xs ns d s', (Seat.loop backend spent k).run s = .ok d s' ∧
      s.site.Follows backend xs ns s'.site ∧
      ((∀ x ∈ xs, x.ordinary = true) →
        (s'.session.phase.done = true ↔ d.failure? ≠ some .unwritable)) := by
  induction k generalizing s with
  | zero => exact absurd hk (Nat.not_lt_zero _)
  | succ k ih =>
    obtain ⟨n, xs, ns, o, s', hloops, hfollows, -, hpulls⟩ := pull_cases hp
    have hpull := run_pull_of_loops hp hloops hpulls.le
    cases hpulls with
    | delivered event hp' hn =>
      have hpos := hloops.pos
      obtain ⟨ys, ms, d, s'', hloop, hrest, hdone⟩ := ih hp' (by omega)
      exact ⟨_, _, _, s'', Seat.run_loop_of_delivered hpull hloop, hfollows.trans hrest,
        fun hord => hdone fun x hx => hord x (List.mem_append_right _ hx)⟩
    | ended _ hdone =>
      refine ⟨_, _, _, s', Seat.run_loop_of_last k hpull, hfollows, fun hord => ?_⟩
      rw [hdone hord, Ne, Ne, failure?_ofPull]

/-- So is a drain, and the host is always willing. -/
theorem drain_cases {m : Handle} {s : Seat World} (hp : s.session.phase = .running m) :
    ∃ xs ns d s', (Seat.drain backend).run s = .ok d s' ∧
      s.site.Follows backend xs ns s'.site ∧
      ((∀ x ∈ xs, x.ordinary = true) →
        (s'.session.phase.done = true ↔ d.failure? ≠ some .unwritable)) := by
  obtain ⟨n, xs, ns, o, s', hloops, hfollows, -, hpulls⟩ := Scripted.pull_cases hp
  have hpull := run_pull_of_loops hp hloops hpulls.le
  cases hpulls with
  | delivered event hp' hn =>
    have hbudget : s'.world.actionsLeft m < Seat.budget backend s' := by
      rw [Seat.budget, hp']
      exact Nat.lt_succ_self _
    obtain ⟨ys, ms, d, s'', hloop, hrest, hdone⟩ := loop_cases _ hp' hbudget
    exact ⟨_, _, _, s'', Seat.run_drain_of_delivered hpull hloop, hfollows.trans hrest,
      fun hord => hdone fun x hx => hord x (List.mem_append_right _ hx)⟩
  | ended _ hdone =>
    refine ⟨_, _, _, s', Seat.run_drain_of_last hpull, hfollows, fun hord => ?_⟩
    rw [hdone hord, Ne, Ne, failure?_ofPull]

/-! ## What a session may cost -/

/-- The actions that a session will be answered with if it starts now. -/
def script (s : Seat World) : List Action :=
  s.world.nextProgram.actions (s.world.ledgerOf s.controller.canonical) s.session.kind.reason
    s.session.payload

/-- How often a session may still run its machine: once for every action, and once more for the
machine to halt. -/
def allowance (s : Seat World) : Nat :=
  match s.session.phase with
  | .start => (script s).length + 1
  | .running m => s.world.actionsLeft m + 1
  | _ => 0

theorem allowance_of_running {m : Handle} {s : Seat World} (hp : s.session.phase = .running m) :
    allowance s = s.world.actionsLeft m + 1 := by
  rw [allowance, hp]

theorem allowance_of_done {s : Seat World} (hp : s.session.phase.done = true) :
    allowance s = 0 := by
  unfold allowance
  split
  · next h => rw [h] at hp; cases hp
  · next h => rw [h] at hp; cases hp
  · rfl

/-- A fork that fails is only counted. -/
theorem eq_count_of_fork {k : Handle} {e : Error} {w w' : World}
    (hx : backend.Replays w [.fork k (.error e)] w') : w' = w.count .fork := by
  obtain ⟨v, hfork, hnil⟩ := hx.head
  cases hnil
  rcases fork_cases k w with ⟨e', he⟩ | ⟨mach, -, hok⟩
  · exact (congrArg Prod.snd (Eq.trans (Eq.symm he) hfork)).symm
  · cases hok.symm.trans hfork

/-- A transaction that is not opened leaves everything as it is that a program depends on. -/
theorem script_of_refused {mode : Isolation} {c c' : Controller} {xs : List Exchange}
    {ns : List Notice} {f : Failure} {w w' : World} (h : c.Begins mode xs ns (.error f) c')
    (hx : backend.Replays w xs w') :
    w'.nextProgram = w.nextProgram ∧ w'.ledgerOf c'.canonical = w.ledgerOf c.canonical := by
  cases h with
  | closed | busy =>
    cases hx
    exact ⟨rfl, rfl⟩
  | failed | interrupted =>
    obtain rfl := eq_count_of_fork hx
    exact ⟨rfl, rfl⟩

/-- The machine of a new transaction has the ledger of the canonical one. -/
theorem script_of_begun {mode : Isolation} {c c' : Controller} {xs : List Exchange}
    {ns : List Notice} {m : Handle} {w w' : World} (h : c.Begins mode xs ns (.ok m) c')
    (hx : backend.Replays w xs w') :
    w'.nextProgram = w.nextProgram ∧ w'.ledgerOf m = w.ledgerOf c.canonical := by
  cases h with
  | direct =>
    cases hx
    exact ⟨rfl, rfl⟩
  | isolated =>
    obtain ⟨v, hfork, hnil⟩ := hx.head
    cases hnil
    rcases fork_cases c.canonical w with ⟨e, he⟩ | ⟨mach, hmach, hok⟩
    · cases he.symm.trans hfork
    · cases hok.symm.trans hfork
      refine ⟨rfl, ?_⟩
      simp [World.ledgerOf, World.count, hmach]

/-- A machine that was sent an input has the actions of the next program left. -/
theorem actionsLeft_of_send {m : Handle} {reason : RequestReason} {payload : Bytes}
    {w w' : World} (h : backend.Replays w [.send m reason payload (.ok ())] w') :
    w'.actionsLeft m = (w.nextProgram.actions (w.ledgerOf m) reason payload).length := by
  obtain ⟨v, hsend, hnil⟩ := h.head
  cases hnil
  simp only [Backend.Replies, backend] at hsend
  rcases w.call_cases .send m fun mach w =>
      (.ok (), { w.setMachine m { mach with
        actions := w.nextProgram.actions mach.ledger reason payload
        pending := .absent } with sends := w.sends + 1 }) with
    ⟨e, he⟩ | ⟨mach, hmach, hcall⟩
  · cases he.symm.trans hsend
  · cases hcall.symm.trans hsend
    obtain ⟨hlt, hget⟩ := List.getElem?_eq_some_iff.1 hmach
    simp [World.actionsLeft, World.setMachine, World.ledgerOf, World.count, World.nextProgram, hlt,
      hget]

/-- To start costs no run, and the script is what the session is answered with. -/
theorem allowance_of_starts {s s' : Seat World} {xs : List Exchange} {ns : List Notice}
    {o : Except Failure Handle} (hp : s.session.phase = .start)
    (h : s.session.Starts s.controller xs ns o s'.controller s'.session.phase)
    (hx : backend.Replays s.world xs s'.world)
    (hsession : s'.session = s.session.inPhase s'.session.phase)
    (hord : ∀ x ∈ xs, x.ordinary = true) : runs xs + allowance s' ≤ allowance s := by
  have hkind : s'.session.kind = s.session.kind := by rw [hsession]; rfl
  have hpayload : s'.session.payload = s.session.payload := by rw [hsession]; rfl
  have hallowance : allowance s = (script s).length + 1 := by rw [allowance, hp]
  generalize hc' : s'.controller = c' at h
  generalize hp' : s'.session.phase = p at h
  cases h with
  | refused hb =>
    obtain ⟨hprogram, hledger⟩ := script_of_refused hb hx
    have hscript : script s' = script s := by
      rw [script, hc', hledger, hprogram, hkind, hpayload, script]
    rw [hb.runs, allowance, hp', hscript, hallowance, Nat.zero_add]
  | @sent _ _ m _ hb =>
    obtain ⟨v, hbegin, hsend⟩ := hx.split
    obtain ⟨hprogram, hledger⟩ := script_of_begun hb hbegin
    have hleft : s'.world.actionsLeft m = (script s).length := by
      rw [actionsLeft_of_send hsend, hprogram, hledger, script]
    rw [runs_append, hb.runs, allowance_of_running hp', hleft, hallowance]
    exact Nat.le_of_eq (Nat.zero_add _)
  | interrupted _ e he =>
    have hsent := hord _ (List.mem_append_right _ (List.mem_singleton.2 rfl))
    exact absurd (he.symm.trans (hsent : e.ordinary = true)) (by decide)
  | failed hb e he hf =>
    rw [runs_append, hb.runs, allowance_of_done (by rw [hp']; rfl)]
    have hrest := runs_of_releases fun _ hx => hf.mem hx
    simp only [runs, List.countP_cons] at hrest ⊢
    simp [hrest, Exchange.isRun]

/-- A turn costs one run. If the session goes on, an action is used up. -/
theorem allowance_of_turns {m : Handle} {s s' : Seat World} {xs : List Exchange} {ns : List Notice}
    {o : Except Failure Seat.Turn} (hp : s.session.phase = .running m)
    (h : Session.Turns s.session.kind m s.controller xs ns o s'.controller s'.session.phase)
    (hx : backend.Replays s.world xs s'.world) (hord : ∀ x ∈ xs, x.ordinary = true) :
    runs xs + allowance s' ≤ allowance s := by
  rw [h.runs, allowance_of_running hp]
  by_cases ho : Session.GoesOn o
  · have hless := actionsLeft_of_turns h ho hx
    rw [allowance_of_running (h.heard_of_goesOn ho).1]
    omega
  · rw [allowance_of_done (h.done_phase ho hord)]
    omega

/-- Every move pays for its runs. -/
theorem allowance_of_move {s s' : Seat World} {xs : List Exchange} {ns : List Notice}
    {fs : List Failure} (h : Seat.Move backend s xs ns fs s')
    (hord : ∀ x ∈ xs, x.ordinary = true) : runs xs + allowance s' ≤ allowance s := by
  obtain ⟨moves, follows, hsession⟩ := h
  have hx : backend.Replays s.world xs s'.world := follows.world
  have closed {o : Except Failure Unit} {ns : List Notice}
      (h : s.session.Closes s.controller xs ns o s'.controller s'.session.phase) :
      runs xs + allowance s' ≤ allowance s := by
    rw [h.runs, allowance_of_done h.done_phase]
    omega
  cases moves with
  | start hp h => exact allowance_of_starts hp h hx hsession hord
  | turn hp h => exact allowance_of_turns hp h hx hord
  | close h | abandon h => exact closed h

theorem allowance_of_path {s s' : Seat World} {xs : List Exchange} {ns : List Notice}
    {fs : List Failure} (h : Seat.Path backend s xs ns fs s')
    (hord : ∀ x ∈ xs, x.ordinary = true) : runs xs + allowance s' ≤ allowance s := by
  induction h with
  | refl => simp [runs]
  | step head _ ih =>
    obtain ⟨hxs, hys⟩ := List.forall_mem_append.1 hord
    have hhead := allowance_of_move head hxs
    have htail := ih hys
    rw [runs_append]
    omega

end Scripted

/-! ## Engines -/

/-- A session that has begun does not go back to its start. -/
theorem Seat.Path.begun {b : Backend W} {s s' : Seat W} {xs : List Exchange} {ns : List Notice}
    {fs : List Failure} (h : Path b s xs ns fs s') (hs : s.session.phase ≠ .start) :
    s'.session.phase ≠ .start := by
  intro hp
  have hzero := (h.sends (.begun hs)).of_start hp
  omega

/-- A session has begun, unless it was let go. -/
def Room.Begun (n : Nat) (r : Room W) : Prop :=
  ∀ t, r.session? n = some t → t.phase ≠ .start

namespace EngineOp

open Scripted

variable {config : EngineConfig} {r : Room World} {n : Nat} {own : List Exchange}

/-- How often session `n` may still run its machine. -/
def allowance (n : Nat) (r : Room World) : Nat :=
  ((r.session? n).map fun t => Scripted.allowance ⟨r.toDesk, t⟩).getD 0

/-- What an operation on a session costs is paid from its allowance. -/
theorem allowance_of_session (config : EngineConfig) (n : Nat) (r : Room World) (op : SessionOp)
    (hord : ∀ x ∈ ((session n op).page backend config r).calls, x.ordinary = true) :
    runs ((session n op).page backend config r).calls +
        allowance n ((session n op).perform backend config r).2 ≤ allowance n r ∧
      (r.Begun n → ((session n op).perform backend config r).2.Begun n) := by
  obtain ⟨xs, ns, fs, hdoes, -⟩ := (session n op).does backend config r
  have hcalls : ((session n op).page backend config r).calls = xs :=
    Page.calls_of_follows hdoes.follows
  rw [hcalls] at hord ⊢
  generalize ((session n op).perform backend config r).2 = r' at hdoes
  cases hdoes with
  | absent hn =>
    refine ⟨?_, id⟩
    rw [allowance, hn]
    exact Nat.le_refl 0
  | @walked _ _ t _ _ _ s hn _ path =>
    have hpays := allowance_of_path path hord
    have hafter (place : Option Session) :
        ({ toDesk := s.toDesk, sessions := r.sessions.set n place } : Room World).session? n =
          place := by
      rw [Room.session?_set hn, if_pos rfl]
    rw [allowance, allowance, Room.Begun, Room.Begun, hafter, hn]
    cases op.keeps with
    | true =>
      refine ⟨hpays, ?_⟩
      rintro hbegun _ ⟨⟩
      exact path.begun (hbegun t rfl)
    | false => exact ⟨Nat.le_trans (Nat.le_add_right _ _) hpays, nofun⟩

/-- Others cannot draw on the allowance of a session that has begun. -/
theorem allowance_of_bystander (hr : r.Linked config.isolation own) (hlt : n < r.sessions.length)
    (hbegun : r.Begun n) {op : EngineOp} (hop : op.isOn n = false) :
    allowance n (op.perform backend config r).2 = allowance n r ∧
      (op.perform backend config r).2.Begun n := by
  obtain ⟨xs, ns, fs, hdoes, -⟩ := op.does backend config r
  have hsession : (op.perform backend config r).2.session? n = r.session? n :=
    (hdoes.session?_cases hop).resolve_right fun h => absurd h.1 (Nat.ne_of_lt hlt)
  refine ⟨?_, by rw [Room.Begun, hsession]; exact hbegun⟩
  rw [allowance, allowance, hsession]
  cases ht : r.session? n with
  | none => rfl
  | some t =>
    cases hp : t.phase with
    | start => exact absurd hp (hbegun t ht)
    | running m =>
      have hstands := bystands (b := backend) hr ⟨t, ht, by rw [hp]; rfl⟩ hop
      rw [hstands.desk]
    | accepted | rejected | fatal | cancelled =>
      have hdone (d : Desk World) : Scripted.allowance ⟨d, t⟩ = 0 :=
        allowance_of_done (by rw [hp]; rfl)
      simp [hdone]

/-- An engine keeps a place for every session. -/
theorem Does.length_le {b : Backend W} {r r' : Room W} {op : EngineOp} {xs : List Exchange}
    {ns : List Notice} {fs : List Failure} (h : Does b config r op xs ns fs r') :
    r.sessions.length ≤ r'.sessions.length := by
  cases h with
  | closed | notBytes | absent | collected | stored | shutDown => exact Nat.le_refl _
  | opened => simp
  | walked => simp

/-- However the operations of others come between them, the operations on a session that has begun
run its machine no more often than it is allowed to. -/
theorem allowance_of_run (ops : List EngineOp) (hr : r.Linked config.isolation own)
    (hlt : n < r.sessions.length) (hbegun : r.Begun n)
    (hord : ∀ x ∈ sessionCalls n (journal backend config ops r), x.ordinary = true) :
    runs (sessionCalls n (journal backend config ops r)) +
        allowance n (run backend config ops r) ≤ allowance n r ∧
      (run backend config ops r).Begun n := by
  induction ops generalizing r own with
  | nil => exact ⟨by simp [journal, sessionCalls, runs, run], hbegun⟩
  | cons op ops ih =>
    obtain ⟨xs, ns, fs, hdoes, -⟩ := op.does backend config r
    have hr' := hdoes.linked hr
    have hlt' := Nat.lt_of_lt_of_le hlt hdoes.length_le
    have hrun : run backend config (op :: ops) r =
        run backend config ops (op.perform backend config r).2 := rfl
    rw [journal] at hord ⊢
    rw [hrun]
    cases hop : op.isOn n with
    | true =>
      obtain ⟨sop, rfl⟩ := exists_eq_session_of_isOn hop
      rw [sessionCalls_cons_of_isOn hop] at hord ⊢
      obtain ⟨hfirst, hrest⟩ := List.forall_mem_append.1 hord
      obtain ⟨hpays, hbegun'⟩ := allowance_of_session config n r sop hfirst
      obtain ⟨hle, hend⟩ := ih hr' hlt' (hbegun' hbegun) hrest
      refine ⟨?_, hend⟩
      rw [runs_append]
      omega
    | false =>
      rw [sessionCalls_cons hop] at hord ⊢
      obtain ⟨hsame, hbegun'⟩ := allowance_of_bystander hr hlt hbegun hop
      obtain ⟨hle, hend⟩ := ih hr' hlt' hbegun' hord
      exact ⟨hsame ▸ hle, hend⟩

/-- A drain ends a session that has begun, unless it fails to write a code. -/
theorem done_iff_of_drain (config : EngineConfig) (hbegun : r.Begun n)
    (hord : ∀ x ∈ ((session n (.take none)).page backend config r).calls, x.ordinary = true)
    {t : Session}
    (ht : ((session n (.take none)).perform backend config r).2.session? n = some t) :
    t.phase.done = true ↔
      ((session n (.take none)).perform backend config r).1.outcome ≠ .error .unwritable := by
  cases hs : r.session? n with
  | none =>
    rw [perform_session_none backend config hs, hs] at ht
    cases ht
  | some s =>
    have hperform := perform_session backend config hs (.take none)
    have hkeeps : (SessionOp.take none).keeps = true := rfl
    rw [hperform, Room.session?_set hs, if_pos rfl, hkeeps, if_pos rfl] at ht
    cases Option.some.inj ht
    rw [hperform]
    cases hp : s.phase with
    | start => exact absurd hp (hbegun s hs)
    | running m =>
      obtain ⟨xs, ns, d, s', hrun, hfollows, hdone⟩ := drain_cases (s := ⟨r.toDesk, s⟩) hp
      have htake : SessionOp.perform backend (.take none) ⟨r.toDesk, s⟩ = (.ofDrain d, s') :=
        Answer.drain_of_run hrun
      have hcalls : ((session n (.take none)).page backend config r).calls = xs :=
        calls_of_session backend config hs (by rw [htake]; exact hfollows)
      rw [htake, hdone (hcalls ▸ hord), ← Answer.failure?_ofDrain, Ne, Answer.failure?_eq_some]
    | accepted | rejected | fatal | cancelled =>
      have hdone : s.phase.done = true := by rw [hp]; rfl
      rw [SessionOp.perform_of_done backend (s := ⟨r.toDesk, s⟩) hdone]
      exact iff_of_true hdone nofun

/-- The calls of a pull are those of its loop. -/
theorem calls_of_pull (config : EngineConfig) {t : Session} (hn : r.session? n = some t)
    {xs : List Exchange} {ns : List Notice} {o : Except Failure (Option StreamEvent)}
    {s : Seat World} (hpull : (Seat.pull backend).run ⟨r.toDesk, t⟩ = Act.result o s)
    (hfollows : r.toSite.Follows backend xs ns s.toSite) :
    ((session n .pull).page backend config r).calls = xs := by
  have hperform : SessionOp.perform backend .pull ⟨r.toDesk, t⟩ =
      ({ outcome := o.map .event }, s) := by
    refine Answer.reply_of_run ?_
    rw [EStateM.run_bind, hpull]
    cases o <;> rfl
  exact calls_of_session backend config hn (by rw [hperform]; exact hfollows)

/-- A session that starts and is drained at last is over then, unless the drain fails to write a
code. It has run its machine no more often than its script allows. -/
theorem runs_of_drained (hr : r.Linked config.isolation own) {t : Session}
    (hn : r.session? n = some t) (ht : t.phase = .start) (op : SessionOp) (later : List EngineOp)
    (hbegun : ((session n op).perform backend config r).2.Begun n) :
    let before := session n op :: later
    let all := before ++ [session n (.take none)]
    let drained := (session n (.take none)).perform backend config (run backend config before r)
    (∀ x ∈ sessionCalls n (journal backend config all r), x.ordinary = true) →
    runs (sessionCalls n (journal backend config all r)) ≤ (script ⟨r.toDesk, t⟩).length + 1 ∧
      ∀ t', (run backend config all r).session? n = some t' →
        (t'.phase.done = true ↔ drained.1.outcome ≠ .error .unwritable) := by
  intro before all drained hord
  have hon (op : SessionOp) : (session n op).isOn n = true := isOn_session.2 rfl
  obtain ⟨xs, ns, fs, hdoes, -⟩ := (session n op).does backend config r
  have hlt := Nat.lt_of_lt_of_le (Room.lt_length hn) hdoes.length_le
  have hjournal : journal backend config all r = (session n op).page backend config r ::
      journal backend config (later ++ [session n (.take none)])
        ((session n op).perform backend config r).2 := rfl
  rw [hjournal, sessionCalls_cons_of_isOn (hon op)] at hord ⊢
  obtain ⟨hfirst, hrest⟩ := List.forall_mem_append.1 hord
  have hpays := (allowance_of_session config n r op hfirst).1
  have hallowance : allowance n r = (script ⟨r.toDesk, t⟩).length + 1 := by
    rw [allowance, hn]
    change Scripted.allowance ⟨r.toDesk, t⟩ = _
    rw [Scripted.allowance, ht]
  have hle := (allowance_of_run _ (hdoes.linked hr) hlt hbegun hrest).1
  refine ⟨by rw [runs_append]; omega, fun t' ht' => ?_⟩
  rw [journal_concat, sessionCalls_concat_of_isOn (hon _)] at hrest
  obtain ⟨hlater, hlast⟩ := List.forall_mem_append.1 hrest
  have hend := (allowance_of_run later (hdoes.linked hr) hlt hbegun hlater).2
  have hall : run backend config all r = drained.2 := run_concat before _ r
  rw [hall] at ht'
  exact done_iff_of_drain config hend hlast ht'

/-- In every room that an engine of scripted machines comes to, a pull of a session that runs comes
to an end, after as many runs at most as its machine has actions left, and one. A session that
starts, and is drained at last, is over then, if nothing but ordinary errors was raised, unless the
drain fails to write a code; and it has run its machine as often at most as there are actions in its
script, and once more. -/
theorem run_terminates (config : EngineConfig) (machine : Handle) (site : Site World)
    (ops : List EngineOp) {n : Nat} {t : Session}
    (hn : (run backend config ops (.opening machine site)).session? n = some t) :
    let r := run backend config ops (.opening machine site)
    (∀ m, t.phase = .running m → ∃ k o s', k ≤ r.world.actionsLeft m + 1 ∧
        Seat.Loops backend m k ⟨r.toDesk, t⟩ o s' ∧
        (Seat.pull backend).run ⟨r.toDesk, t⟩ = Act.result o s' ∧
        runs ((session n .pull).page backend config r).calls = k) ∧
      (t.phase = .start → ∀ op later, ((session n op).perform backend config r).2.Begun n →
        let before := session n op :: later
        let all := before ++ [session n (.take none)]
        let drained := (session n (.take none)).perform backend config (run backend config before r)
        (∀ x ∈ sessionCalls n (journal backend config all r), x.ordinary = true) →
        runs (sessionCalls n (journal backend config all r)) ≤ (script ⟨r.toDesk, t⟩).length + 1 ∧
          ∀ t', (run backend config all r).session? n = some t' →
            (t'.phase.done = true ↔ drained.1.outcome ≠ .error .unwritable)) := by
  intro r
  obtain ⟨own, _, -, hr⟩ := run_linked backend config machine site ops
  refine ⟨fun m hp => ?_, fun ht op later => runs_of_drained hr hn ht op later⟩
  obtain ⟨k, xs, ns, o, s', hloops, hfollows, hk, hpulls⟩ := pull_cases (s := ⟨r.toDesk, t⟩) hp
  have hpull := run_pull_of_loops hp hloops hpulls.le
  exact ⟨k, o, s', hpulls.le, hloops, hpull, by rw [calls_of_pull config hn hpull hfollows, hk]⟩

/-- An advance with yields that are passed over, pulled while it runs and drained from its start. -/
theorem ignored_terminates :
    let unknown : Action := .breakWith automaticBreak (.request ⟨0, 9, []⟩)
    let program := Program.script
      [unknown, .automatic .progress [1], .automatic .output [2], unknown, .manual .accepted [3]]
    let site : Site World := { world := .ofLedger [] [program] [] }
    let submitted : List EngineOp := [.submit .advance (.bytes [5]) none]
    let r := run backend {} submitted (.opening 0 site)
    let pulled : List EngineOp := submitted ++ [.session 0 .pull]
    let r' := run backend {} pulled (.opening 0 site)
    let t : Session := { kind := .advance, payload := [5] }
    let t' : Session := { t with phase := .running 1 }
    let all : List EngineOp := [.session 0 .pull, .store "a", .session 0 (.take none)]
    r.session? 0 = some t ∧ r'.session? 0 = some t' ∧
      (∃ k o s, k ≤ 3 ∧ Seat.Loops backend 1 k ⟨r'.toDesk, t'⟩ o s ∧
        (Seat.pull backend).run ⟨r'.toDesk, t'⟩ = Act.result o s ∧
        runs ((session 0 .pull).page backend {} r').calls = k) ∧
      (∀ x ∈ sessionCalls 0 (journal backend {} all r), x.ordinary = true) ∧
      runs (sessionCalls 0 (journal backend {} all r)) ≤ (script ⟨r.toDesk, t⟩).length + 1 ∧
      ∀ s, (run backend {} all r).session? 0 = some s → s.phase.done = true := by
  intro unknown program site submitted r pulled r' t t' all
  have hfresh : r.session? 0 = some t := by decide +kernel
  have hruns : r'.session? 0 = some t' := by decide +kernel
  have hord : ∀ x ∈ sessionCalls 0 (journal backend {} all r), x.ordinary = true := by
    decide +kernel
  have hr' : r' = ((session 0 .pull).perform backend {} r).2 := run_concat submitted _ _
  have hbegun : ((session 0 .pull).perform backend {} r).2.Begun 0 := by
    intro s hs
    rw [← hr', hruns] at hs
    obtain rfl := Option.some.inj hs
    nofun
  obtain ⟨k, o, s, hk, hpull⟩ := (run_terminates {} 0 site pulled hruns).1 1 rfl
  have hthree : k ≤ 3 := by
    refine Nat.le_trans hk ?_
    decide +kernel
  have hdrain := (run_terminates {} 0 site submitted hfresh).2 rfl .pull [.store "a"] hbegun hord
  refine ⟨hfresh, hruns, ⟨k, o, s, hthree, hpull⟩, hord, hdrain.1, fun s hs => ?_⟩
  refine (hdrain.2 s hs).2 fun hfailed => ?_
  have hnone : ((session 0 (.take none)).perform backend {}
      (run backend {} [.session 0 .pull, .store "a"] r)).1.failure?.isNone = true := by
    decide +kernel
  rw [Answer.failure?_eq_some.2 hfailed] at hnone
  cases hnone

/-- An advance whose breaks have reasons that are too long. No call fails, but after a pull and a
drain its session is running still, in its transaction. -/
theorem long_reasons_go_on :
    let long : Action := .breakWith Numeral.limit .absent
    let site : Site World := { world := .ofLedger [] [.script [long, long]] [] }
    let r := run backend {} [.submit .advance (.bytes [5]) none] (.opening 0 site)
    let all : List EngineOp := [.session 0 .pull, .session 0 (.take none)]
    (∀ x ∈ sessionCalls 0 (journal backend {} all r), x.ordinary = true) ∧
      (run backend {} all r).session? 0 =
        some { kind := .advance, payload := [5], phase := .running 1 } ∧
      (run backend {} all r).controller.inTransaction = true := by
  decide +kernel

end EngineOp

end RollupEngine
