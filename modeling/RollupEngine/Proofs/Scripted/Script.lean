import RollupEngine.Proofs.Refinement
import RollupEngine.Proofs.Scripted.Guest

/-!
# What a script makes of a session

A script may make its machine do anything but die: it appends entries, comes back to the host with
or without a request, and raises errors of any kind. What the host reads of such a machine is a
function of it (`Machine.hear`), and so is what becomes of a session by it (`upshot`).

`Seat.Engaged` is what holds while a session runs on a script: its machine, the transaction that was
opened for it, and the canonical machine behind. A turn leads to the next such state or to the end
of the session (`Seat.Engaged.turn`), and so does a close (`Seat.Engaged.close`). `Desk.Ready` is
what holds before a session (`Seat.start_of_ready`) and after it.
-/

namespace RollupEngine

namespace Scripted

/-! ## Machines that do not die -/

/-- A program that does not let its machine die. -/
def Program.Deathless : Program → Prop
  | .script actions => Action.die ∉ actions
  | .ledger => True

theorem Program.Deathless.actions {p : Program} (h : p.Deathless) (ledger : Ledger)
    (reason : RequestReason) (payload : Bytes) : Action.die ∉ p.actions ledger reason payload := by
  cases p with
  | script actions => exact h
  | ledger => exact fun hdie => plain_ledgerGuest ledger reason payload _ hdie

namespace Machine

/-- A machine that is alive, and stays so. -/
structure Lasting (m : Machine) : Prop where
  alive : m.alive = true
  actions : Action.die ∉ m.actions

/-- What the host reads of a machine that has run: it asks for the request if there is one. -/
def reading (m : Machine) (reply : Except Error Int) : Except Error Reading :=
  reply.bind fun reason =>
    if isYield reason then m.answer.map (readBreak reason) else .ok (readBreak reason none)

/-- Run a machine, and read what it comes to. -/
def hear (m : Machine) : Except Error Reading × Machine :=
  let (reply, m') := m.perform m.actions
  (m'.reading reply, m')

theorem lasting_perform {m : Machine} {actions : List Action} (ha : m.alive = true)
    (h : Action.die ∉ actions) : (m.perform actions).2.Lasting := by
  induction actions generalizing m with
  | nil => exact ⟨ha, by simp [perform]⟩
  | cons action rest ih =>
    simp only [List.mem_cons, not_or] at h
    cases action with
    | append => exact ih ha h.2
    | die => simp at h
    | raise | breakWith => exact ⟨ha, h.2⟩

theorem Lasting.hear {m : Machine} (h : m.Lasting) : m.hear.2.Lasting :=
  lasting_perform h.alive h.actions

end Machine

/-! ## Worlds without faults -/

/-- A world in which no call is made to fail, with its programs and the number of requests sent. -/
structure World.Quiet (programs : List Program) (sends : Nat) (w : World) : Prop where
  faults : w.faults = []
  programs : w.programs = programs
  sends : w.sends = sends

/-- The program that answers a request after so many others. -/
def programAt (programs : List Program) (sends : Nat) : Program :=
  (programs[min sends (programs.length - 1)]?).getD .ledger

theorem World.Quiet.nextProgram {programs : List Program} {sends : Nat} {w : World}
    (h : w.Quiet programs sends) : w.nextProgram = programAt programs sends := by
  rw [World.nextProgram, programAt, h.programs, h.sends]

theorem deathless_programAt {programs : List Program} (h : ∀ p ∈ programs, p.Deathless)
    (sends : Nat) : (programAt programs sends).Deathless := by
  unfold programAt
  cases hp : programs[min sends (programs.length - 1)]? with
  | none => trivial
  | some p => exact h p (List.mem_of_getElem? hp)

/-- Machine `h` of a world is alive and holds a ledger. -/
def World.Holds (w : World) (h : Handle) (ledger : Ledger) : Prop :=
  ∃ m, w.machines[h]? = some m ∧ m.alive = true ∧ m.ledger = ledger

theorem World.Holds.ledgerOf_eq {w : World} {h : Handle} {ledger : Ledger}
    (hw : w.Holds h ledger) : w.ledgerOf h = ledger := by
  obtain ⟨m, hm, -, rfl⟩ := hw
  simp [World.ledgerOf, hm]

/-- What is known of a transaction as long as it is open: the programs, the number of requests sent,
the controller before it, the handle of its fork, and the canonical ledger before it. -/
structure Backdrop where
  programs : List Program
  sends : Nat
  eve : Controller
  fork : Handle
  base : Ledger

/-- The canonical ledger after a transaction in a mode, with the ledger before it and that of its
machine. -/
def settled (mode : Isolation) (kept : Bool) (base ledger : Ledger) : Ledger :=
  match mode with
  | .direct => ledger
  | .isolated => if kept then ledger else base

/-- The machines of a transaction: `m` works, and an isolated one has the canonical machine
behind it. -/
structure Engaged (g : Backdrop) (mode : Isolation) (m : Machine) (w : World) : Prop where
  quiet : w.Quiet g.programs g.sends
  working : w.machines[mode.working g.eve.canonical g.fork]? = some m
  lasting : m.Lasting
  backup : mode = .isolated → g.fork ≠ g.eve.canonical ∧ w.Holds g.eve.canonical g.base

namespace Engaged

variable {g : Backdrop} {mode : Isolation} {m : Machine} {w w' : World} {xs : List Exchange}
  {ns : List Notice}

/-- The machine of a transaction changes, and nothing else does. -/
theorem set (h : Engaged g mode m w) {m' : Machine} (hm' : m'.Lasting)
    (hquiet : w'.Quiet g.programs g.sends)
    (hw' : w'.machines = w.machines.set (mode.working g.eve.canonical g.fork) m') :
    Engaged g mode m' w' where
  quiet := hquiet
  working := by
    rw [hw']
    exact List.getElem?_set_self (List.getElem?_eq_some_iff.1 h.working).1
  lasting := hm'
  backup hm := by
    subst hm
    obtain ⟨hne, n, hn, hold⟩ := h.backup rfl
    refine ⟨hne, n, ?_, hold⟩
    rw [hw']
    exact (List.getElem?_set_ne hne).trans hn

/-- What is heard of the machine of a transaction. -/
theorem hears (h : Engaged g mode m w) {o : Except Failure Reading}
    (hears : Hears (mode.working g.eve.canonical g.fork) xs o) (hx : backend.Replays w xs w') :
    o = Site.raised m.hear.1 ∧ Engaged g mode m.hear.2 w' := by
  have hrun := run_of_alive h.quiet.faults h.working h.lasting.alive
  have hset : Engaged g mode m.hear.2
      ((w.count .run).setMachine (mode.working g.eve.canonical g.fork) m.hear.2) :=
    h.set h.lasting.hear ⟨h.quiet.faults, h.quiet.programs, h.quiet.sends⟩ rfl
  have hreceive := receive_of_alive hset.quiet.faults hset.working hset.lasting.alive
  unfold Machine.hear Machine.reading at hset hreceive ⊢
  cases hears with
  | stopped e =>
    obtain ⟨_, hreply, hnil⟩ := hx.head
    cases hnil
    obtain ⟨he, rfl⟩ := Prod.mk.inj (hrun.symm.trans hreply)
    exact ⟨by simp [he, Site.raised, Except.bind, Except.mapError], hset⟩
  | broke reason hno =>
    obtain ⟨_, hreply, hnil⟩ := hx.head
    cases hnil
    obtain ⟨hr, rfl⟩ := Prod.mk.inj (hrun.symm.trans hreply)
    exact ⟨by simp [hr, hno, Site.raised, Except.bind, Except.mapError], hset⟩
  | silent reason hyield e =>
    obtain ⟨_, hreply, hx⟩ := hx.head
    obtain ⟨hr, rfl⟩ := Prod.mk.inj (hrun.symm.trans hreply)
    obtain ⟨_, hreply, hnil⟩ := hx.head
    cases hnil
    obtain ⟨he, rfl⟩ := Prod.mk.inj (hreceive.symm.trans hreply)
    refine ⟨by simp [hr, hyield, he, Site.raised, Except.bind, Except.map, Except.mapError], ?_⟩
    exact ⟨⟨hset.quiet.faults, hset.quiet.programs, hset.quiet.sends⟩, hset.working, hset.lasting,
      hset.backup⟩
  | yielded reason hyield request =>
    obtain ⟨_, hreply, hx⟩ := hx.head
    obtain ⟨hr, rfl⟩ := Prod.mk.inj (hrun.symm.trans hreply)
    obtain ⟨_, hreply, hnil⟩ := hx.head
    cases hnil
    obtain ⟨ha, rfl⟩ := Prod.mk.inj (hreceive.symm.trans hreply)
    refine ⟨by simp [hr, hyield, ha, Site.raised, Except.bind, Except.map, Except.mapError], ?_⟩
    exact ⟨⟨hset.quiet.faults, hset.quiet.programs, hset.quiet.sends⟩, hset.working, hset.lasting,
      hset.backup⟩

/-- A transaction can be closed, and what its machine did is then kept or not. -/
theorem closing (h : Engaged g mode m w) (kept : Bool) :
    ∃ w', backend.Replays w (mode.closing g.eve.canonical g.fork kept) w' ∧
      w'.Quiet g.programs g.sends ∧
      w'.Holds (g.eve.through mode g.fork kept).canonical (settled mode kept g.base m.ledger) := by
  have hworking : w.Holds _ m.ledger := ⟨m, h.working, h.lasting.alive, rfl⟩
  cases mode with
  | direct => exact ⟨w, .nil w, h.quiet, hworking⟩
  | isolated =>
    obtain ⟨hne, hbackup⟩ := h.backup rfl
    have release {v k : Handle} {ledger ledger' : Ledger} (hv : w.Holds v ledger)
        (hk : w.Holds k ledger') (hvk : v ≠ k) :
        ∃ w', backend.Replays w [.shutdown v (.ok ())] w' ∧ w'.Quiet g.programs g.sends ∧
          w'.Holds k ledger' := by
      obtain ⟨n, hn, ha, -⟩ := hv
      obtain ⟨n', hn', hold⟩ := hk
      have hshutdown := shutdown_of_alive h.quiet.faults hn ha
      exact ⟨_, .single hshutdown, ⟨h.quiet.faults, h.quiet.programs, h.quiet.sends⟩, n',
        (List.getElem?_set_ne hvk).trans hn', hold⟩
    cases kept with
    | true => exact release hbackup hworking hne.symm
    | false => exact release hworking hbackup hne

end Engaged

/-- How a session is left that neither delivers an event nor passes over one: it is suspended by an
interrupt, or by a code that cannot be written, and runs on; or it is over, in a phase, and what it
did is kept or not. -/
inductive Finale where
  | suspended (error : Error)
  | ended (failure? : Option Failure) (phase : Phase) (kept : Bool)

namespace Finale

/-- How a session is left that came to an ending. -/
def ofEnding (kind : InputKind) (ending : Ending) : Finale :=
  .ended ending.failure? ending.phase (ending.keeps kind)

/-- The failure that a session is left with. -/
def failure? : Finale → Option Failure
  | .suspended e => some { error := e }
  | .ended f _ _ => f

/-- How the pull ends that a session is left by. -/
def outcome (f : Finale) : Except Failure Unit :=
  f.failure?.elim (.ok ()) .error

end Finale

/-- What becomes of a session in a turn. -/
inductive Upshot where
  | delivered (event : StreamEvent)
  | ignored
  | last (finale : Finale)

/-- How a turn ends. -/
def Upshot.outcome : Upshot → Except Failure Seat.Turn
  | .delivered event => .ok (.delivered event)
  | .ignored => .ok .ignored
  | .last finale => finale.outcome.map fun _ => .over

/-- What becomes of a session by what the host reads of its machine. -/
def upshot (kind : InputKind) : Except Error Reading → Upshot
  | .error e =>
    .last <| if e.ordinary then
      .ended (some (.fatalFrom "machine error: " (Failure.source "machine") e)) .fatal false
    else .suspended e
  | .ok r =>
    match kind.verdict r with
    | .deliver event => .delivered event
    | .pass _ => .ignored
    | .stop ending => .last (.ofEnding kind ending)
    | .refuse => .last (.suspended Failure.unwritable.error)

/-- An end of an input is final, and keeps an advance that was accepted. -/
def Finale.Fair (kind : InputKind) : Finale → Prop
  | .suspended _ => True
  | .ended _ phase kept =>
    phase.done = true ∧ ∀ result, phase = .accepted result → kind = .advance → kept = true

theorem Finale.fair_cancelled (kind : InputKind) : (ended none .cancelled false).Fair kind :=
  ⟨rfl, nofun⟩

theorem Finale.fair_of_upshot {kind : InputKind} {reading : Except Error Reading} {finale : Finale}
    (h : upshot kind reading = .last finale) : finale.Fair kind := by
  unfold upshot at h
  cases reading with
  | error e =>
    cases h
    split
    · exact ⟨rfl, nofun⟩
    · trivial
  | ok r =>
    simp only at h
    split at h <;> cases h
    · next ending _ =>
      refine ⟨ending.done_phase, fun result hp hk => ?_⟩
      subst hk
      cases ending <;> simp [Ending.phase] at hp
      rfl
    · trivial

theorem upshot_of_ordinary (kind : InputKind) {e : Error} (he : e.ordinary = true) :
    upshot kind (.error e) =
      .last (.ended (some (.fatalFrom "machine error: " (Failure.source "machine") e)) .fatal
        false) := by
  simp [upshot, he]

theorem upshot_of_interrupt (kind : InputKind) {e : Error} (he : e.ordinary = false) :
    upshot kind (.error e) = .last (.suspended e) := by
  simp [upshot, he]

/-- A turn that comes to an ending ends as a session ends with it. -/
theorem outcome_ended (ending : Ending) (phase : Phase) (kept : Bool) :
    (Upshot.last (.ended ending.failure? phase kept)).outcome = ending.outcome := by
  unfold Upshot.outcome Finale.outcome Finale.failure? Ending.outcome
  cases ending.failure? <;> rfl

end Scripted

/-! ## Sessions on a script -/

open Scripted

/-- A desk at which an input can be taken: the controller is idle, and the canonical machine holds
the ledger. -/
structure Desk.Ready (programs : List Program) (sends : Nat) (ledger : Ledger) (d : Desk World) :
    Prop where
  idle : d.controller.Idle
  quiet : d.world.Quiet programs sends
  holds : d.world.Holds d.controller.canonical ledger

/-- What the canonical machine holds. -/
def Desk.canonicalLedger (d : Desk World) : Ledger :=
  d.world.ledgerOf d.controller.canonical

theorem Desk.Ready.canonicalLedger_eq {programs : List Program} {sends : Nat} {ledger : Ledger}
    {d : Desk World} (h : d.Ready programs sends ledger) : d.canonicalLedger = ledger :=
  h.holds.ledgerOf_eq

/-- What a turn makes of what is heard: the session runs on, or its transaction is settled. -/
theorem Session.Turns.upshot {g : Backdrop} {mode : Isolation} {m : Machine} {w w' : World}
    {kind : InputKind} {c c' : Controller} {p : Phase} {xs : List Exchange} {ns : List Notice}
    {o : Except Failure Seat.Turn}
    (h : Turns kind (mode.working g.eve.canonical g.fork) c xs ns o c' p)
    (hw : Scripted.Engaged g mode m w) (hx : backend.Replays w xs w') :
    (c' = c ∧ p = .running (mode.working g.eve.canonical g.fork) ∧
      Scripted.Engaged g mode m.hear.2 w' ∧ o = (Scripted.upshot kind m.hear.1).outcome ∧
      ∀ f p kept, Scripted.upshot kind m.hear.1 ≠ .last (.ended f p kept)) ∨
    ∃ v ys ms f kept q, Scripted.upshot kind m.hear.1 = .last (.ended f p kept) ∧
      Scripted.Engaged g mode m.hear.2 v ∧ c.Settles kept ys ms q c' ∧ backend.Replays v ys w' ∧
      (q = .ok () → o = (Scripted.upshot kind m.hear.1).outcome) := by
  have hheard {r : Reading} (hr : Except.ok r = Site.raised m.hear.1) : m.hear.1 = .ok r := by
    cases hm : m.hear.1 <;> simp_all [Site.raised, Except.mapError]
  have hraised {e : Error} (he : (Except.error { error := e } : Except Failure Reading) =
      Site.raised m.hear.1) : m.hear.1 = .error e := by
    cases hm : m.hear.1 <;> simp_all [Site.raised, Except.mapError]
  cases h with
  | interrupted hh he =>
    obtain ⟨ho, hw'⟩ := hw.hears hh hx
    rw [hraised ho, upshot_of_interrupt kind he]
    exact .inl ⟨rfl, rfl, hw', rfl, by simp⟩
  | failed hh he hf =>
    obtain ⟨v, hhear, hrest⟩ := hx.split
    obtain ⟨ho, hv⟩ := hw.hears hh hhear
    rw [hraised ho, upshot_of_ordinary kind he]
    cases hf with
    | rolledBack hsettles =>
      refine .inr ⟨v, _, _, _, _, _, rfl, hv, hsettles, hrest, ?_⟩
      rintro rfl
      rfl
  | heard hh hj =>
    obtain ⟨v, hhear, hrest⟩ := hx.split
    obtain ⟨ho, hv⟩ := hw.hears hh hhear
    rw [hheard ho, Scripted.upshot]
    cases hj with
    | delivered hverdict | passed hverdict | refused hverdict =>
      cases hrest
      rw [hverdict]
      exact .inl ⟨rfl, rfl, hv, rfl, by simp⟩
    | ended hverdict hends =>
      rw [hverdict]
      cases hends with
      | settled hsettles =>
        exact .inr ⟨v, _, _, _, _, _, rfl, hv, hsettles, hrest,
          fun _ => (outcome_ended _ _ _).symm⟩
      | unsettled hsettles => exact .inr ⟨v, _, _, _, _, _, rfl, hv, hsettles, hrest, nofun⟩

/-- What is known of a transaction that is opened at a desk. -/
def Desk.backdrop (d : Desk World) (programs : List Program) (sends : Nat) (ledger : Ledger) :
    Backdrop where
  programs := programs
  sends := sends + 1
  eve := d.controller
  fork := d.world.machines.length
  base := ledger

namespace Seat

/-- The session runs on the script of the machine `m`. -/
structure Engaged (g : Backdrop) (m : Machine) (s : Seat World) : Prop where
  idle : g.eve.Idle
  phase : s.session.phase = .running (s.session.machine g.eve.canonical g.fork)
  controller : s.controller = g.eve.opened s.session.isolation g.fork
  machines : Scripted.Engaged g s.session.isolation m s.world

/-- Where the session `s` is left, with its machine as `m`. -/
def Left (g : Backdrop) (m : Machine) (s s' : Seat World) : Finale → Prop
  | .suspended _ => s'.session = s.session ∧ s'.Engaged g m
  | .ended _ phase kept => s'.session = s.session.inPhase phase ∧
      s'.controller = g.eve.through s.session.isolation g.fork kept ∧
      s'.Ready g.programs g.sends (settled s.session.isolation kept g.base m.ledger)

/-- Where a turn leads. -/
def Led (g : Backdrop) (m : Machine) (s s' : Seat World) : Upshot → Prop
  | .delivered _ | .ignored => s'.session = s.session ∧ s'.Engaged g m
  | .last finale => Left g m s s' finale

variable {g : Backdrop} {m : Machine} {s s' : Seat World}

theorem Left.of_eq {t : Seat World} {finale : Finale} (hs : t.session = s.session)
    (h : Left g m t s' finale) : Left g m s s' finale := by
  cases finale <;> simpa [Left, hs] using h

theorem Engaged.state_eq (h : Engaged g m s) : s.controller.state = .inSession := by
  have hclosed := h.idle.1
  rw [h.controller]
  cases s.session.isolation <;>
    simp [Controller.opened, Controller.openedIsolated, Controller.openedDirect, Controller.state,
      Controller.inTransaction, hclosed]

/-- What the canonical machine holds while a session runs: what it held before, unless it is the
machine that works. -/
theorem Engaged.canonicalLedger_eq (h : Engaged g m s) :
    s.canonicalLedger = settled s.session.isolation false g.base m.ledger := by
  obtain ⟨-, -, hc, hm⟩ := h
  unfold Desk.canonicalLedger
  rw [hc]
  cases hmode : s.session.isolation with
  | direct =>
    rw [hmode] at hm
    have hholds : s.world.Holds g.eve.canonical m.ledger :=
      ⟨m, hm.working, hm.lasting.alive, rfl⟩
    exact hholds.ledgerOf_eq
  | isolated => exact (hm.backup hmode).2.ledgerOf_eq

/-- A session whose transaction is settled is left over. -/
theorem Engaged.left (h : Engaged g m s) {m' : Machine} {w : World} {xs : List Exchange}
    {ns : List Notice} {kept : Bool} {o : Except Failure Unit} {phase : Phase}
    (failure? : Option Failure) (hw : Scripted.Engaged g s.session.isolation m' w)
    (hsettles : s.controller.Settles kept xs ns o s'.controller)
    (hx : backend.Replays w xs s'.world) (hsession : s'.session = s.session.inPhase phase) :
    o = .ok () ∧ Left g m' s s' (.ended failure? phase kept) := by
  obtain ⟨v, hclosing, hquiet, hholds⟩ := hw.closing kept
  rw [h.controller] at hsettles
  obtain ⟨rfl, -, ho, hc⟩ :=
    hsettles.answered h.idle hx (by rw [List.append_nil]; exact hclosing)
  obtain rfl := hclosing.unique hx
  rw [← hc] at hholds
  exact ⟨ho, hsession, hc, by rw [hc]; exact h.idle.through _ _ _, hquiet, hholds⟩

/-- A turn of a session on a script. -/
theorem Engaged.turn (h : Engaged g m s) :
    ∃ s', (turn backend (s.session.machine g.eve.canonical g.fork)).run s =
        Act.result (upshot s.session.kind m.hear.1).outcome s' ∧
      Led g m.hear.2 s s' (upshot s.session.kind m.hear.1) := by
  obtain ⟨xs, ns, o, s', hrun, hturns, hsession⟩ := turn_cases backend h.phase
  have hx : backend.Replays s.world xs s'.world := hrun.follows.world
  rcases hturns.upshot h.machines hx with ⟨hc, hp, hw, rfl, hgoes⟩ |
    ⟨w, ys, ms, f, kept, q, hu, hw, hsettles, hrest, ho⟩
  · have hs : s'.session = s.session := by
      rw [hsession, hp.trans h.phase.symm]
      rfl
    have hengaged : s'.Engaged g m.hear.2 := by
      refine ⟨h.idle, ?_, ?_, ?_⟩ <;> rw [hs]
      · exact h.phase
      · rw [hc, h.controller]
      · exact hw
    refine ⟨s', hrun.run, ?_⟩
    cases hu : upshot s.session.kind m.hear.1 with
    | delivered | ignored => exact ⟨hs, hengaged⟩
    | last finale =>
      cases finale with
      | suspended => exact ⟨hs, hengaged⟩
      | ended => exact absurd hu (hgoes _ _ _)
  · obtain ⟨hq, hleft⟩ := h.left f hw hsettles hrest hsession
    obtain rfl := ho hq
    refine ⟨s', hrun.run, ?_⟩
    rw [hu]
    exact hleft

/-- A session on a script can be closed, and to let go of it closes it. -/
theorem Engaged.close (h : Engaged g m s) :
    ∃ s', (close backend).run s = .ok () s' ∧ (abandon backend).run s = .ok () s' ∧
      Left g m s s' (.ended none .cancelled false) := by
  obtain ⟨xs, ns, o, s', hrun, hcloses, hsession⟩ := close_cases backend s
  obtain ⟨hp, ms, q, -, rfl, hsettles⟩ := hcloses.settles h.phase
  obtain ⟨rfl, hleft⟩ :=
    h.left none h.machines hsettles hrun.follows.world (by rw [hsession, hp])
  refine ⟨s', hrun.run, ?_, hleft⟩
  rw [run_abandon_running backend h.phase, EStateM.run_bind,
    Act.run_attempt_of_run (o := .ok ()) hrun.run]
  rfl

/-- The machine that takes an input: it holds a ledger, and does what the program says. -/
def newMachine (ledger : Ledger) (program : Program) (s : Session) : Machine where
  ledger := ledger
  actions := program.actions ledger s.kind.reason s.payload

/-- An input that can be taken is sent to the machine of its transaction. -/
theorem beginning_of_ready {programs : List Program} {sends : Nat} {ledger : Ledger}
    (h : s.Ready programs sends ledger) (hprograms : ∀ p ∈ programs, p.Deathless) :
    let g := s.backdrop programs sends ledger
    ∃ w, backend.Replays s.world (s.session.beginning s.controller.canonical g.fork) w ∧
      Scripted.Engaged g s.session.isolation
        (newMachine ledger (programAt programs sends) s.session) w := by
  intro g
  obtain ⟨m, hm, ha, rfl⟩ := h.holds
  have hnew : (newMachine m.ledger (programAt programs sends) s.session).Lasting :=
    ⟨rfl, (deathless_programAt hprograms sends).actions _ _ _⟩
  -- Whatever machine takes the input, it holds the ledger, and its old actions are gone.
  have hsend {w : World} {k : Handle} {n : Machine} (hw : w.Quiet programs sends)
      (hn : w.machines[k]? = some n) (hna : n.alive = true) (hledger : n.ledger = m.ledger) :
      ∃ w', backend.Replies w (.send k s.session.kind.reason s.session.payload (.ok ())) w' ∧
        w'.Quiet programs (sends + 1) ∧ w'.machines =
          w.machines.set k (newMachine m.ledger (programAt programs sends) s.session) := by
    refine ⟨_, send_of_alive hw.faults hn hna _ _, ⟨hw.faults, hw.programs, ?_⟩, ?_⟩
    · simp [hw.sends]
    · simp [newMachine, World.setMachine, World.count, hw.nextProgram, hledger, hna]
  have hlt := (List.getElem?_eq_some_iff.1 hm).1
  cases hmode : s.session.isolation with
  | direct =>
    obtain ⟨w, hreply, hquiet, hw⟩ := hsend h.quiet hm ha rfl
    refine ⟨w, ?_, hquiet, ?_, hnew, by simp⟩
    · rw [Session.beginning, Session.machine, hmode]
      exact .single hreply
    · rw [hw]
      exact List.getElem?_set_self hlt
  | isolated =>
    let w₁ := ((s.world.count .fork).addMachine { ledger := m.ledger }).2
    have hfork : backend.Replies s.world (.fork s.controller.canonical (.ok g.fork)) w₁ :=
      fork_of_alive h.quiet.faults hm ha
    have hne : g.fork ≠ s.controller.canonical := Nat.ne_of_gt hlt
    have hk : w₁.machines[s.controller.canonical]? = some m :=
      (List.getElem?_append_left hlt).trans hm
    have hn : w₁.machines[g.fork]? = some { ledger := m.ledger } := List.getElem?_concat_length
    have hw₁ : w₁.Quiet programs sends := ⟨h.quiet.faults, h.quiet.programs, h.quiet.sends⟩
    obtain ⟨w, hreply, hquiet, hw⟩ := hsend hw₁ hn rfl rfl
    refine ⟨w, ?_, hquiet, ?_, hnew, fun _ => ⟨hne, m, ?_, ha, rfl⟩⟩
    · rw [Session.beginning, Session.machine, hmode]
      exact .cons hfork (.single hreply)
    · rw [hw]
      exact List.getElem?_set_self (List.getElem?_eq_some_iff.1 hn).1
    · rw [hw]
      exact (List.getElem?_set_ne hne).trans hk

/-- A session begins on a script. -/
theorem start_of_ready {programs : List Program} {sends : Nat} {ledger : Ledger}
    (h : s.Ready programs sends ledger) (hprograms : ∀ p ∈ programs, p.Deathless)
    (hp : s.session.phase = .start) :
    let g := s.backdrop programs sends ledger
    let w := s.session.machine s.controller.canonical g.fork
    ∃ s', (start backend).run s = .ok w s' ∧ s'.session = s.session.inPhase (.running w) ∧
      s'.Engaged g (newMachine ledger (programAt programs sends) s.session) := by
  intro g w
  obtain ⟨v, hbeginning, hv⟩ := beginning_of_ready h hprograms
  obtain ⟨xs, ns, o, s', hrun, hstarts, hsession⟩ := start_cases backend hp
  obtain ⟨rfl, -, rfl, hc, hp'⟩ := hstarts.answered h.idle hrun.follows.world
    (by rw [List.append_nil]; exact hbeginning)
  obtain rfl := hbeginning.unique hrun.follows.world
  rw [hp'] at hsession
  refine ⟨s', hrun.run, hsession, h.idle, ?_, ?_, ?_⟩
  · rw [hp', hsession]
    rfl
  · rw [hc, hsession]
    rfl
  · rw [hsession]
    exact hv

/-- What a pull comes to after a turn, if it comes to `next` when the turn is ignored. -/
def afterTurn (s : Seat World) (next : EStateM.Result Failure (Seat World) (Option StreamEvent)) :
    Upshot → EStateM.Result Failure (Seat World) (Option StreamEvent)
  | .delivered event => .ok (some event) s
  | .ignored => next
  | .last finale => Act.result (finale.outcome.map fun _ => none) s

theorem run_turns_succ {w : Handle} {u : Upshot} (n : Nat)
    (h : (Seat.turn backend w).run s = Act.result u.outcome s') :
    (turns backend w (n + 1)).run s = afterTurn s' ((turns backend w n).run s') u := by
  rw [turns, EStateM.run_bind, h]
  cases u with
  | delivered | ignored => rfl
  | last finale =>
    dsimp only [Upshot.outcome, afterTurn]
    cases finale.outcome <;> rfl

/-- The host is willing to run a machine once for every action that it has left, and once more. -/
theorem Engaged.run_pull (h : Engaged g m s) :
    (pull backend).run s = (turns backend (s.session.machine g.eve.canonical g.fork)
      (m.actions.length + 1)).run s := by
  have hworking : s.world.machines[s.session.machine g.eve.canonical g.fork]? = some m :=
    h.machines.working
  rw [run_pull_running backend h.phase, advance]
  simp [EStateM.run_bind, backend, World.actionsLeft, hworking]

theorem Engaged.budget_eq (h : Engaged g m s) : budget backend s = m.actions.length + 1 := by
  have hworking : s.world.machines[s.session.machine g.eve.canonical g.fork]? = some m :=
    h.machines.working
  simp [budget, h.phase, backend, World.actionsLeft, hworking]

/-- The first pull of a session that was started goes on where the start ended. -/
theorem run_pull_started {w : Handle} (hp : s.session.phase = .start)
    (hstart : (start backend).run s = .ok w s') (hp' : s'.session.phase = .running w) :
    (pull backend).run s = (pull backend).run s' := by
  rw [run_pull_start backend hp, run_pull_running backend hp', EStateM.run_bind, hstart]

/-! ## Two sessions side by side -/

/-- Two sessions of one kind run on machines of their own, after as many requests. -/
structure Abreast (kind : InputKind) (programs programs' : List Program) (g g' : Backdrop)
    (m m' : Machine) (s s' : Seat World) : Prop where
  kind_eq : s.session.kind = kind
  kind_eq' : s'.session.kind = kind
  programs_eq : g.programs = programs
  programs_eq' : g'.programs = programs'
  sends_eq : g'.sends = g.sends
  engaged : s.Engaged g m
  engaged' : s'.Engaged g' m'

variable {kind : InputKind} {programs programs' : List Program} {g' : Backdrop} {m' n n' : Machine}
  {t t' : Seat World}

/-- Sessions that run abreast do so after a turn in which both run on. -/
theorem Abreast.step (h : Abreast kind programs programs' g g' m m' s s')
    (ht : t.session = s.session ∧ t.Engaged g n)
    (ht' : t'.session = s'.session ∧ t'.Engaged g' n') :
    Abreast kind programs programs' g g' n n' t t' :=
  ⟨by rw [ht.1, h.kind_eq], by rw [ht'.1, h.kind_eq'], h.programs_eq, h.programs_eq', h.sends_eq,
    ht.2, ht'.2⟩

/-- Where sessions that run abreast are left, the next input can be taken. -/
theorem Abreast.ready (h : Abreast kind programs programs' g g' m m' s s')
    {failure? : Option Failure} {phase : Phase} {kept : Bool}
    (ht : Left g n s t (.ended failure? phase kept))
    (ht' : Left g' n' s' t' (.ended failure? phase kept)) :
    t.session.phase = phase ∧ t'.session.phase = phase ∧
      t.Ready programs g.sends (settled s.session.isolation kept g.base n.ledger) ∧
      t'.Ready programs' g.sends (settled s'.session.isolation kept g'.base n'.ledger) := by
  obtain ⟨ht, -, hready⟩ := ht
  obtain ⟨ht', -, hready'⟩ := ht'
  rw [h.programs_eq] at hready
  rw [h.programs_eq', h.sends_eq] at hready'
  exact ⟨by rw [ht]; rfl, by rw [ht']; rfl, hready, hready'⟩

/-- Sessions of one kind that begin run abreast from then on. -/
theorem abreast_of_ready {sends : Nat} {ledger : Ledger} (hprograms : ∀ p ∈ programs, p.Deathless)
    (hprograms' : ∀ p ∈ programs', p.Deathless) (hk : s.session.kind = kind)
    (hk' : s'.session.kind = kind) (hp : s.session.phase = .start)
    (hp' : s'.session.phase = .start) (h : s.Ready programs sends ledger)
    (h' : s'.Ready programs' sends ledger) :
    ∃ t t', (pull backend).run s = (pull backend).run t ∧
      (pull backend).run s' = (pull backend).run t' ∧
      t.session.isolation = s.session.isolation ∧ t'.session.isolation = s'.session.isolation ∧
      Abreast kind programs programs' (s.backdrop programs sends ledger)
        (s'.backdrop programs' sends ledger)
        (newMachine ledger (programAt programs sends) s.session)
        (newMachine ledger (programAt programs' sends) s'.session) t t' := by
  obtain ⟨t, hstart, ht, hengaged⟩ := start_of_ready h hprograms hp
  obtain ⟨t', hstart', ht', hengaged'⟩ := start_of_ready h' hprograms' hp'
  exact ⟨t, t', run_pull_started hp hstart (by rw [ht]; rfl),
    run_pull_started hp' hstart' (by rw [ht']; rfl), by rw [ht]; rfl, by rw [ht']; rfl,
    by rw [ht]; exact hk, by rw [ht']; exact hk', rfl, rfl, rfl, hengaged, hengaged'⟩

end Seat

end RollupEngine
