import Mathlib
import RollupEngine.Proofs.Engine
import RollupEngine.Proofs.Separation
import RollupEngine.Proofs.Session.Reference
import RollupEngine.Proofs.Session.Rest

/-!
# Sessions refine their reference

A session is pulled event by event, and between two events it may run its machine any number of
times; its reference reads a list of answers from one end to the other. `EngineOp.take_refines`
says that they agree: if the calls of a session are answered and none of them fails, draining it
comes to what the reference says, whatever the answers are, provided that they can be read. A
session that hears a code too long to be written comes to no end (`EngineOp.long_reason_unrefined`).

The calls that an operation makes determine the world they lead to, and the outcomes of the first
ones determine which calls come next. So each relation of what a move does leaves one possibility
when its calls are answered as in the record of the reference (`Session.Starts.answered`,
`Session.Turns.answered`). `Seat.Awaits` is what holds between two turns: the session runs, and the
answers still to come are known. A turn takes one answer (`Seat.turn_goes_on`, `Seat.turn_ends`),
the turns of one pull take the answers up to the next event (`Seat.turns_cases`), and draining takes
them all (`Seat.drain_cases`).

The host must be patient enough to hear all answers (`Backend.Patient`). With scripted machines it
always is (`Scripted.patient`).
-/

namespace RollupEngine

variable {W : Type}

/-! ## Moves whose calls are answered -/

section

variable {b : Backend W} {w w' w'' : W} {c c' : Controller} {mode : Isolation} {fork : Handle}
  {xs zs : List Exchange} {ns : List Notice}

theorem Controller.Begins.answered {o : Except Failure Handle} (h : c.Begins mode xs ns o c')
    (hc : c.Idle) (hx : b.Replays w xs w')
    (ha : b.Replays w (mode.opening c.canonical fork ++ zs) w'') :
    xs = mode.opening c.canonical fork ∧ ns = [.began mode] ∧
      o = .ok (mode.working c.canonical fork) ∧ c' = c.opened mode fork := by
  cases h with
  | closed h => cases hc.1.symm.trans h
  | busy _ ht =>
    rw [hc.2] at ht
    cases ht
  | direct _ hm =>
    subst hm
    exact ⟨rfl, rfl, rfl, rfl⟩
  | isolated _ hm v =>
    subst hm
    obtain ⟨_, hv, -⟩ := hx.head
    obtain ⟨_, hfork, -⟩ := ha.head
    cases Eq.trans (Eq.symm hv) hfork
    exact ⟨rfl, rfl, rfl, rfl⟩
  | failed _ hm | interrupted _ hm =>
    subst hm
    obtain ⟨_, he, -⟩ := hx.head
    obtain ⟨_, hfork, -⟩ := ha.head
    cases Eq.trans (Eq.symm he) hfork

theorem Controller.Settles.answered {kept : Bool} {o : Except Failure Unit} (hc : c.Idle)
    (h : (c.opened mode fork).Settles kept xs ns o c') (hx : b.Replays w xs w')
    (ha : b.Replays w (mode.closing c.canonical fork kept ++ zs) w'') :
    xs = mode.closing c.canonical fork kept ∧
      ns = [if kept then .committed mode else .rolledBack mode] ∧ o = .ok () ∧
      c' = c.through mode fork kept := by
  obtain ⟨canonical, transaction, closed, created, released, leaked⟩ := c
  obtain ⟨-, rfl⟩ := hc
  cases h with
  | absent h => cases mode <;> cases h
  | direct h =>
    cases mode with
    | direct => exact ⟨rfl, rfl, rfl, rfl⟩
    | isolated => cases h
  | promoted h hk reply =>
    cases mode with
    | direct => cases h
    | isolated =>
      cases h
      subst hk
      obtain ⟨_, hreply, -⟩ := hx.head
      obtain ⟨_, hok, -⟩ := ha.head
      cases Eq.trans (Eq.symm hreply) hok
      exact ⟨rfl, rfl, rfl, rfl⟩
  | discarded h hk reply =>
    cases mode with
    | direct => cases h
    | isolated =>
      cases h
      subst hk
      obtain ⟨_, hreply, -⟩ := hx.head
      obtain ⟨_, hok, -⟩ := ha.head
      cases Eq.trans (Eq.symm hreply) hok
      exact ⟨rfl, rfl, rfl, rfl⟩

theorem Hears.answered {m : Handle} {a : Break} {o : Except Failure Reading} (h : Hears m xs o)
    (hx : b.Replays w xs w') (ha : b.Replays w (a.exchanges m ++ zs) w'') :
    xs = a.exchanges m ∧ o = .ok (readBreak a.reason a.request) := by
  obtain ⟨reason, request⟩ := a
  obtain ⟨v, hrun, hrest⟩ := ha.head
  cases h with
  | stopped e =>
    obtain ⟨_, he, -⟩ := hx.head
    cases Eq.trans (Eq.symm he) hrun
  | broke _ hy =>
    obtain ⟨_, hr, -⟩ := hx.head
    cases Eq.trans (Eq.symm hr) hrun
    simp [Break.exchanges, readBreak, hy]
  | silent _ hy e =>
    obtain ⟨_, hr, hx⟩ := hx.head
    cases Eq.trans (Eq.symm hr) hrun
    obtain ⟨_, he, -⟩ := hx.head
    rw [if_pos hy] at hrest
    obtain ⟨_, hok, -⟩ := hrest.head
    cases Eq.trans (Eq.symm he) hok
  | yielded _ hy request =>
    obtain ⟨_, hr, hx⟩ := hx.head
    cases Eq.trans (Eq.symm hr) hrun
    obtain ⟨_, hq, -⟩ := hx.head
    rw [if_pos hy] at hrest
    obtain ⟨_, hok, -⟩ := hrest.head
    cases Eq.trans (Eq.symm hq) hok
    simp [Break.exchanges, hy]

namespace Session

variable {s : Session} {p : Phase}

theorem Starts.answered {o : Except Failure Handle} (h : s.Starts c xs ns o c' p) (hc : c.Idle)
    (hx : b.Replays w xs w') (ha : b.Replays w (s.beginning c.canonical fork ++ zs) w'') :
    xs = s.beginning c.canonical fork ∧ ns.filter Notice.settles = [] ∧
      o = .ok (s.machine c.canonical fork) ∧ c' = c.opened s.isolation fork ∧
      p = .running (s.machine c.canonical fork) := by
  unfold beginning at ha ⊢
  rw [List.append_assoc] at ha
  cases h with
  | refused h =>
    obtain ⟨-, -, ho, -⟩ := h.answered hc hx ha
    cases ho
  | sent h =>
    obtain ⟨v, hopen, hsend⟩ := hx.split
    obtain ⟨rfl, rfl, ho, rfl⟩ := h.answered hc hopen ha
    cases ho
    exact ⟨rfl, rfl, rfl, rfl, rfl⟩
  | interrupted h e | failed h e =>
    obtain ⟨v, hopen, hsend⟩ := hx.split
    obtain ⟨rfl, rfl, ho, rfl⟩ := h.answered hc hopen ha
    cases ho
    obtain ⟨_, he, -⟩ := hsend.head
    obtain ⟨_, hok, -⟩ := (hopen.drop ha).head
    cases Eq.trans (Eq.symm he) hok

theorem not_settles_of_ending (kind : InputKind) (e : Ending) :
    (e.notices kind).filter Notice.settles = [] := by
  cases e <;> rfl

theorem Ends.answered {kind : InputKind} {e : Ending} {o : Except Failure Seat.Turn} (hc : c.Idle)
    (h : Ends kind e (c.opened mode fork) xs ns o c') (hx : b.Replays w xs w')
    (ha : b.Replays w (mode.closing c.canonical fork (kind.conclusion e).kept ++ zs) w'') :
    xs = mode.closing c.canonical fork (kind.conclusion e).kept ∧
      ns.filter Notice.settles =
        [if (kind.conclusion e).kept then .committed mode else .rolledBack mode] ∧
      o = e.outcome ∧ c' = c.through mode fork (kind.conclusion e).kept := by
  rw [kind.kept_conclusion] at ha ⊢
  cases h with
  | settled h =>
    obtain ⟨rfl, rfl, -, rfl⟩ := h.answered hc hx ha
    refine ⟨rfl, ?_, rfl, rfl⟩
    rw [List.filter_append, not_settles_of_ending]
    cases e.keeps kind <;> rfl
  | unsettled h =>
    obtain ⟨-, -, ho, -⟩ := h.answered hc hx ha
    cases ho

variable {kind : InputKind} {m : Handle} {a : Break} {o : Except Failure Seat.Turn}

/-- A turn whose calls are answered hears the answer. -/
theorem Turns.answered (h : Turns kind m c xs ns o c' p) (hx : b.Replays w xs w')
    (ha : b.Replays w (a.exchanges m ++ zs) w'') :
    ∃ ys v, xs = a.exchanges m ++ ys ∧ b.Replays v ys w' ∧ b.Replays v zs w'' ∧
      Judges kind m (readBreak a.reason a.request) c ys ns o c' p := by
  cases h with
  | heard h hj =>
    obtain ⟨v, hhear, hrest⟩ := hx.split
    obtain ⟨rfl, ho⟩ := h.answered hhear ha
    cases ho
    exact ⟨_, v, rfl, hrest, hhear.drop ha, hj⟩
  | interrupted h =>
    obtain ⟨-, ho⟩ := h.answered hx ha
    cases ho
  | failed h =>
    obtain ⟨v, hhear, -⟩ := hx.split
    obtain ⟨-, ho⟩ := h.answered hhear ha
    cases ho

/-- What a turn delivers: the event that the answer is for the reference, if it is one. -/
def Delivers (kind : InputKind) (a : Break) : Seat.Turn → Prop
  | .delivered event => kind.events [a] = [.stream event]
  | .ignored => kind.events [a] = []
  | .over => False

theorem Judges.goes_on (h : Judges kind m (readBreak a.reason a.request) c xs ns o c' p)
    (ha : kind.endingAt? a = none) (hr : a.Readable) :
    xs = [] ∧ ns.filter Notice.settles = [] ∧ c' = c ∧ p = .running m ∧
      ∃ t, o = .ok t ∧ Delivers kind a t := by
  rcases InputKind.verdict_of_not_ending ha hr with ⟨event, hv, hevents⟩ | ⟨ms, hv, hevents, hms⟩
  · cases h with
    | delivered h =>
      cases hv.symm.trans h
      exact ⟨rfl, rfl, rfl, rfl, .delivered event, rfl, hevents⟩
    | passed h | ended h | refused h => cases hv.symm.trans h
  · cases h with
    | passed h =>
      cases hv.symm.trans h
      exact ⟨rfl, hms, rfl, rfl, .ignored, rfl, hevents⟩
    | delivered h | ended h | refused h => cases hv.symm.trans h

theorem Judges.ends {e : Ending} (h : Judges kind m (readBreak a.reason a.request) c xs ns o c' p)
    (ha : kind.endingAt? a = some e) : p = e.phase ∧ Ends kind e c xs ns o c' := by
  have hv := InputKind.verdict_of_ending ha
  cases h with
  | delivered h | passed h | refused h => cases hv.symm.trans h
  | ended h he =>
    cases hv.symm.trans h
    exact ⟨rfl, he⟩

end Session

end

theorem Controller.Idle.through {c : Controller} (h : c.Idle) (mode : Isolation) (fork : Handle)
    (kept : Bool) : (c.through mode fork kept).Idle := by
  cases mode <;> exact h

/-! ## Between two turns -/

namespace Seat

/-- The session runs in a transaction that was opened on `c`, and its calls from here on will be
answered by `as`, which can be read, and in which the first ending is `e`. The world is `w` then. -/
structure Awaits (b : Backend W) (c : Controller) (fork : Handle) (e : Ending) (w : W)
    (s : Seat W) (as : List Break) : Prop where
  idle : c.Idle
  phase : s.session.phase = .running (s.session.machine c.canonical fork)
  controller : s.controller = c.opened s.session.isolation fork
  ending : s.session.kind.ending? as = some e
  readable : ∀ a ∈ s.session.kind.heard as, a.Readable
  replies : b.Replays s.world (s.session.rest c.canonical fork as e) w
  patient : b.Patient (s.session.machine c.canonical fork) (s.session.kind.heard as) s.world

/-- Turns lead from `s`, where the answers `as` are awaited, to `s'`, where `as'` are. -/
structure Reaches (b : Backend W) (c : Controller) (fork : Handle) (e : Ending) (w : W)
    (s : Seat W) (as : List Break) (s' : Seat W) (as' : List Break) : Prop where
  awaits : Awaits b c fork e w s' as'
  session : s'.session = s.session
  follows : ∃ xs ns, s.site.Follows b xs ns s'.site ∧ ns.filter Notice.settles = [] ∧
    s.session.rest c.canonical fork as e = xs ++ s.session.rest c.canonical fork as' e

/-- From `s`, where the answers `as` are awaited, the session came to its end at `s'`. -/
structure Concludes (b : Backend W) (c : Controller) (fork : Handle) (e : Ending)
    (s : Seat W) (as : List Break) (s' : Seat W) : Prop where
  session : s'.session = s.session.inPhase e.phase
  controller : s'.controller =
    c.through s.session.isolation fork (s.session.kind.conclusion e).kept
  follows : ∃ ns, s.site.Follows b (s.session.rest c.canonical fork as e) ns s'.site ∧
    ns.filter Notice.settles = [if (s.session.kind.conclusion e).kept
      then .committed s.session.isolation else .rolledBack s.session.isolation]

variable {b : Backend W} {c : Controller} {fork : Handle} {e : Ending} {w : W}
  {s s' s'' : Seat W} {as as' as'' : List Break} {a : Break}

theorem Reaches.trans (h : Reaches b c fork e w s as s' as')
    (h' : Reaches b c fork e w s' as' s'' as'') : Reaches b c fork e w s as s'' as'' where
  awaits := h'.awaits
  session := h'.session.trans h.session
  follows := by
    obtain ⟨xs, ns, hf, hn, hrest⟩ := h.follows
    obtain ⟨ys, ms, hf', hm, hrest'⟩ := h'.follows
    rw [h.session] at hrest'
    refine ⟨xs ++ ys, ns ++ ms, hf.trans hf', ?_, ?_⟩
    · rw [List.filter_append, hn, hm, List.nil_append]
    · rw [hrest, hrest', List.append_assoc]

theorem Concludes.after (h : Concludes b c fork e s' as' s'')
    (h' : Reaches b c fork e w s as s' as') : Concludes b c fork e s as s'' where
  session := by rw [h.session, h'.session]
  controller := by rw [h.controller, h'.session]
  follows := by
    obtain ⟨xs, ns, hf, hn, hrest⟩ := h'.follows
    obtain ⟨ms, hf', hm⟩ := h.follows
    rw [h'.session] at hf' hm
    refine ⟨ns ++ ms, ?_, ?_⟩
    · rw [hrest]
      exact hf.trans hf'
    · rw [List.filter_append, hn, hm, List.nil_append]

/-! ## A turn -/

/-- The calls from here on, when the next answer does not end the input. -/
theorem rest_cons {s : Session} (ha : s.kind.endingAt? a = none) (canonical fork : Handle) :
    s.rest canonical fork (a :: as) e =
      a.exchanges (s.machine canonical fork) ++ s.rest canonical fork as e := by
  simp [Session.rest, InputKind.heard_cons as ha]

theorem rest_cons_of_ending {s : Session} (ha : s.kind.endingAt? a = some e)
    (canonical fork : Handle) :
    s.rest canonical fork (a :: as) e = a.exchanges (s.machine canonical fork) ++
      s.isolation.closing canonical fork (s.kind.conclusion e).kept := by
  simp [Session.rest, InputKind.heard_cons_of_ending as ha]

/-- An answer that does not end the input takes one turn, which delivers what the answer does. -/
theorem turn_goes_on (hs : Awaits b c fork e w s (a :: as))
    (ha : s.session.kind.endingAt? a = none) :
    ∃ t s', (turn b (s.session.machine c.canonical fork)).run s = .ok t s' ∧
      Reaches b c fork e w s (a :: as) s' as ∧ Session.Delivers s.session.kind a t := by
  obtain ⟨hidle, hphase, hcontroller, hending, hreadable, hreplies, hpatient⟩ := hs
  rw [rest_cons ha] at hreplies
  rw [InputKind.heard_cons as ha] at hpatient hreadable
  rw [InputKind.ending?_cons as ha] at hending
  obtain ⟨xs, ns, o, s', hrun, hturns, hsession⟩ := turn_cases b hphase
  obtain ⟨ys, v, rfl, -, -, hj⟩ := hturns.answered hrun.follows.world hreplies
  obtain ⟨rfl, hns, hc', hp, t, rfl, ht⟩ := hj.goes_on ha (hreadable a List.mem_cons_self)
  rw [List.append_nil] at hrun
  have hs' : s'.session = s.session := by
    rw [hsession, hp, ← hphase]
    rfl
  have hawaits : Awaits b c fork e w s' as := by
    refine ⟨hidle, ?_, ?_, ?_, ?_, ?_, ?_⟩
    · rw [hs', hphase]
    · rw [hs', hc', hcontroller]
    · rw [hs', hending]
    · rw [hs']
      exact fun a ha => hreadable a (List.mem_cons_of_mem _ ha)
    · rw [hs']
      exact hrun.follows.world.drop hreplies
    · rw [hs']
      exact hpatient.2 _ hrun.follows.world
  exact ⟨t, s', hrun.run, ⟨hawaits, hs', _, ns, hrun.follows, hns, rest_cons ha _ _⟩, ht⟩

/-- An answer that ends the input takes one turn, which closes the transaction. -/
theorem turn_ends (hs : Awaits b c fork e w s (a :: as))
    (ha : s.session.kind.endingAt? a = some e) :
    ∃ s', (turn b (s.session.machine c.canonical fork)).run s = Act.result e.outcome s' ∧
      Concludes b c fork e s (a :: as) s' := by
  obtain ⟨hidle, hphase, hcontroller, -, -, hreplies, -⟩ := hs
  rw [rest_cons_of_ending ha] at hreplies
  obtain ⟨xs, ns, o, s', hrun, hturns, hsession⟩ := turn_cases b hphase
  rw [hcontroller] at hturns
  obtain ⟨ys, v, rfl, hy, hclosing, hj⟩ := hturns.answered hrun.follows.world hreplies
  obtain ⟨hp, hends⟩ := hj.ends ha
  rw [← List.append_nil (s.session.isolation.closing _ _ _)] at hclosing
  obtain ⟨rfl, hns, rfl, hc'⟩ := hends.answered hidle hy hclosing
  rw [← rest_cons_of_ending ha] at hrun
  exact ⟨s', hrun.run, by rw [hsession, hp], hc', ns, hrun.follows, hns⟩

/-! ## A pull -/

/-- How a pull ends that came to an ending. -/
def lastPull (e : Ending) : Except Failure (Option StreamEvent) :=
  e.failure?.elim (.ok none) .error

theorem run_turns_of_ending {n : Nat} {m : Handle}
    (h : (turn b m).run s = Act.result e.outcome s') :
    (turns b m (n + 1)).run s = Act.result (lastPull e) s' := by
  rw [turns, EStateM.run_bind, h, Ending.outcome, lastPull]
  cases e.failure? <;> rfl

/-- As many turns as there are answers lead to the next event, or to the end. -/
theorem turns_cases (n : Nat) (hs : Awaits b c fork e w s as)
    (hn : (s.session.kind.heard as).length ≤ n) :
    (∃ event s' as',
      (turns b (s.session.machine c.canonical fork) n).run s = .ok (some event) s' ∧
        Reaches b c fork e w s as s' as' ∧
        (s.session.kind.heard as').length < (s.session.kind.heard as).length ∧
        s.session.kind.events as = .stream event :: s.session.kind.events as') ∨
    ∃ s', (turns b (s.session.machine c.canonical fork) n).run s = Act.result (lastPull e) s' ∧
      Concludes b c fork e s as s' ∧ s.session.kind.events as = [] := by
  induction as generalizing s n with
  | nil => cases hs.ending
  | cons a as ih =>
    cases ha : s.session.kind.endingAt? a with
    | some e' =>
      obtain rfl : e' = e :=
        Option.some.inj ((InputKind.ending?_cons_of_ending as ha).symm.trans hs.ending)
      rw [InputKind.heard_cons_of_ending as ha] at hn
      obtain ⟨n, rfl⟩ := Nat.exists_eq_add_one.2 hn
      obtain ⟨s', hrun, hend⟩ := turn_ends hs ha
      exact .inr ⟨s', run_turns_of_ending hrun, hend, InputKind.events_cons_of_ending as ha⟩
    | none =>
      rw [InputKind.heard_cons as ha, List.length_cons] at hn
      obtain ⟨n, rfl⟩ := Nat.exists_eq_add_one.2 (Nat.lt_of_lt_of_le (Nat.succ_pos _) hn)
      obtain ⟨t, s', hrun, hreach, ht⟩ := turn_goes_on hs ha
      rw [InputKind.heard_cons as ha, InputKind.events_cons as ha, turns, EStateM.run_bind, hrun]
      cases t with
      | «over» => exact ht.elim
      | delivered event =>
        refine .inl ⟨event, s', as, rfl, hreach, Nat.lt_succ_self _, ?_⟩
        rw [show s.session.kind.events [a] = _ from ht, List.singleton_append]
      | ignored =>
        have hevents : s.session.kind.events [a] = [] := ht
        have hrest := ih n hreach.awaits (by rw [hreach.session]; omega)
        rw [hreach.session] at hrest
        rw [hevents, List.nil_append]
        rcases hrest with ⟨event, s'', as', hrun, hreach', hlt, hev⟩ | ⟨s'', hrun, hend, hev⟩
        · exact .inl ⟨event, s'', as', hrun, hreach.trans hreach', Nat.lt_succ_of_lt hlt, hev⟩
        · exact .inr ⟨s'', hrun, hend.after hreach, hev⟩

theorem pull_cases (hs : Awaits b c fork e w s as) :
    (∃ event s' as', (pull b).run s = .ok (some event) s' ∧ Reaches b c fork e w s as s' as' ∧
      (s.session.kind.heard as').length < (s.session.kind.heard as).length ∧
      s.session.kind.events as = .stream event :: s.session.kind.events as') ∨
    ∃ s', (pull b).run s = Act.result (lastPull e) s' ∧ Concludes b c fork e s as s' ∧
      s.session.kind.events as = [] := by
  rw [run_pull_running b hs.phase]
  exact turns_cases _ hs hs.patient.length_le

/-! ## Draining -/

/-- How a loop ends that came to an ending. -/
def lastDrain (e : Ending) : DrainEnd :=
  e.failure?.elim .exhausted .failed

/-- How the pulls of a session end that came to an ending. -/
def lastOutcome (e : Ending) : Except Failure Unit :=
  e.failure?.elim (.ok ()) .error

theorem lastPull_eq (e : Ending) : lastPull e = (lastOutcome e).map fun _ => none := by
  unfold lastPull lastOutcome
  cases e.failure? <;> rfl

theorem lastDrain_eq (e : Ending) : lastDrain e = .ofPull (lastOutcome e) := by
  unfold lastDrain lastOutcome
  cases e.failure? <;> rfl

/-- A loop that may pull as often as there are answers comes to the end. -/
theorem loop_cases (spent : DrainEnd) (n : Nat) (hs : Awaits b c fork e w s as)
    (hn : (s.session.kind.heard as).length ≤ n) :
    ∃ events s', (loop b spent n).run s = .ok ⟨events, lastDrain e⟩ s' ∧
      events.map .stream = s.session.kind.events as ∧ Concludes b c fork e s as s' := by
  induction n generalizing s as with
  | zero => exact absurd hn (Nat.not_le_of_lt (InputKind.heard_length_pos hs.ending))
  | succ n ih =>
    rcases pull_cases hs with ⟨event, s', as', hrun, hreach, hlt, hev⟩ | ⟨s', hrun, hend, hev⟩
    · have hrest := ih hreach.awaits (by rw [hreach.session]; omega)
      obtain ⟨events, s'', hrest, hmap, hend⟩ := hrest
      refine ⟨event :: events, s'', run_loop_of_delivered hrun hrest, ?_, hend.after hreach⟩
      rw [hev, List.map_cons, hmap, hreach.session]
    · rw [lastPull_eq] at hrun
      rw [lastDrain_eq]
      exact ⟨[], s', run_loop_of_last n hrun, hev.symm, hend⟩

theorem drain_cases (hs : Awaits b c fork e w s as) :
    ∃ events s', (drain b).run s = .ok ⟨events, lastDrain e⟩ s' ∧
      events.map .stream = s.session.kind.events as ∧ Concludes b c fork e s as s' := by
  rcases pull_cases hs with ⟨event, s', as', hrun, hreach, -, hev⟩ | ⟨s', hrun, hend, hev⟩
  · have hbudget : (s'.session.kind.heard as').length ≤ budget b s' := by
      rw [budget, hreach.awaits.phase]
      exact hreach.awaits.patient.length_le
    obtain ⟨events, s'', hrest, hmap, hend⟩ := loop_cases _ _ hreach.awaits hbudget
    refine ⟨event :: events, s'', run_drain_of_delivered hrun hrest, ?_, hend.after hreach⟩
    rw [hev, List.map_cons, hmap, hreach.session]
  · rw [lastPull_eq] at hrun
    rw [lastDrain_eq]
    exact ⟨[], s', run_drain_of_last hrun, hev.symm, hend⟩

/-- A session that is answered starts, and its answers are awaited. -/
theorem start_awaits (hphase : s.session.phase = .start) (hidle : s.controller.Idle)
    (hending : s.session.kind.ending? as = some e)
    (hreadable : ∀ a ∈ s.session.kind.heard as, a.Readable)
    (hreplies : b.Replays s.world (s.session.exchanges s.controller.canonical fork as e) w)
    (hpatient : ∀ v, b.Replays s.world (s.session.beginning s.controller.canonical fork) v →
      b.Patient (s.session.machine s.controller.canonical fork) (s.session.kind.heard as) v) :
    ∃ s' ns, (start b).run s = .ok (s.session.machine s.controller.canonical fork) s' ∧
      Awaits b s.controller fork e w s' as ∧ (∃ p, s'.session = s.session.inPhase p) ∧
      s.site.Follows b (s.session.beginning s.controller.canonical fork) ns s'.site ∧
      ns.filter Notice.settles = [] := by
  obtain ⟨xs, ns, o, s', hrun, hstarts, hsession⟩ := start_cases b hphase
  have hworld := hrun.follows.world
  obtain ⟨rfl, hns, rfl, hc', hp⟩ := hstarts.answered hidle hworld hreplies
  have hawaits : Awaits b s.controller fork e w s' as := by
    refine ⟨hidle, ?_, ?_, ?_, ?_, ?_, ?_⟩ <;> rw [hsession]
    · exact hp
    · exact hc'
    · exact hending
    · exact hreadable
    · exact hworld.drop hreplies
    · exact hpatient _ hworld
  exact ⟨s', ns, hrun.run, hawaits, ⟨_, hsession⟩, hrun.follows, hns⟩

end Seat

/-! ## Scripted machines -/

namespace Scripted

/-- A run uses up an action, or halts. -/
theorem Machine.perform_cases (m : Machine) (actions : List Action) {reason : Int} {m' : Machine}
    (h : m.perform actions = (.ok reason, m')) :
    reason = haltedBreak ∨ m'.actions.length < actions.length := by
  induction actions generalizing m with
  | nil =>
    cases h
    exact .inl rfl
  | cons action rest ih =>
    cases action with
    | append entry => exact (ih _ h).imp_right Nat.lt_succ_of_lt
    | die => exact (ih _ h).imp_right Nat.lt_succ_of_lt
    | raise e => cases h
    | breakWith =>
      cases h
      exact .inr (Nat.lt_succ_self _)

theorem actionsLeft_of_run {m : Handle} {w w' : World} {reason : Int}
    (h : backend.Replies w (.run m (.ok reason)) w') :
    reason = haltedBreak ∨ w'.actionsLeft m < w.actionsLeft m := by
  simp only [Backend.Replies, backend] at h
  rcases w.call_cases .run m fun mach w =>
      ((mach.perform mach.actions).1, w.setMachine m (mach.perform mach.actions).2) with
    ⟨e, he⟩ | ⟨mach, hmach, hcall⟩
  · cases he.symm.trans h
  · obtain ⟨hreply, rfl⟩ := Prod.mk.inj (hcall.symm.trans h)
    obtain ⟨hlt, hget⟩ := List.getElem?_eq_some_iff.1 hmach
    have hrun : mach.perform mach.actions = (.ok reason, (mach.perform mach.actions).2) := by
      rw [← hreply]
    refine (mach.perform_cases _ hrun).imp_right fun hless => ?_
    simpa [World.setMachine, World.count, World.actionsLeft, hlt, hget] using hless

theorem actionsLeft_of_receive {m : Handle} {w w' : World}
    {reply : Except Error (Option YieldRequest)} (h : backend.Replies w (.receive m reply) w') :
    w'.actionsLeft m = w.actionsLeft m := by
  simp only [Backend.Replies, backend] at h
  rcases w.call_cases .receive m fun mach w => (mach.answer, w) with ⟨e, he⟩ | ⟨mach, -, hcall⟩
  · cases he.symm.trans h
    rfl
  · cases hcall.symm.trans h
    rfl

/-- An answer that does not end the input uses up an action. -/
theorem actionsLeft_of_not_ending {kind : InputKind} {a : Break} (ha : kind.endingAt? a = none)
    {m : Handle} {w w' : World} (h : backend.Replays w (a.exchanges m) w') :
    w'.actionsLeft m < w.actionsLeft m := by
  obtain ⟨reason, request⟩ := a
  obtain ⟨v, hrun, hrest⟩ := h.head
  rcases actionsLeft_of_run hrun with rfl | hlt
  · cases kind <;> cases ha
  · split at hrest
    · obtain ⟨v', hreceive, hnil⟩ := hrest.head
      cases hnil
      rwa [actionsLeft_of_receive hreceive]
    · cases hrest
      exact hlt

/-- The host is willing to run a scripted machine as often as it answers. -/
theorem patient (kind : InputKind) {m : Handle} {as : List Break} {w w' : World}
    (h : backend.Replays w ((kind.heard as).flatMap (Break.exchanges m)) w') :
    backend.Patient m (kind.heard as) w := by
  induction as generalizing w with
  | nil => trivial
  | cons a as ih =>
    cases ha : kind.endingAt? a with
    | some e =>
      rw [InputKind.heard_cons_of_ending as ha]
      exact ⟨Nat.succ_pos _, fun _ _ => trivial⟩
    | none =>
      rw [InputKind.heard_cons as ha, List.flatMap_cons] at h
      rw [InputKind.heard_cons as ha]
      have hpatient {v : World} (hv : backend.Replays w (a.exchanges m) v) :
          backend.Patient m (kind.heard as) v := ih (hv.drop h)
      obtain ⟨v, hv, -⟩ := h.split
      have hle : (kind.heard as).length ≤ v.actionsLeft m + 1 := (hpatient hv).length_le
      have hless := actionsLeft_of_not_ending ha hv
      exact ⟨Nat.lt_succ_of_le (Nat.le_trans hle hless), fun _ => hpatient⟩

end Scripted

/-! ## Whole sessions -/

/-- What draining a session comes to by its reference: the room `r`, in which the session `s` has
the number `number`, is `r'` afterwards, with the answer `a`. -/
structure Room.Refines (b : Backend W) (r : Room W) (number : Nat) (s : Session) (fork : Handle)
    (as : List Break) (e : Ending) (a : Answer) (r' : Room W) : Prop where
  events : a.events.map .stream = s.kind.events as
  outcome : a.outcome = (s.kind.conclusion e).outcome
  session : ∃ p : Phase, r'.sessions = r.sessions.set number (some (s.inPhase p)) ∧
    p.state = (s.kind.conclusion e).state ∧ p.result? = (s.kind.conclusion e).result?
  controller : r'.controller =
    r.controller.through s.isolation fork (s.kind.conclusion e).kept
  idle : r'.controller.Idle
  follows : ∃ ns,
    r.toSite.Follows b (s.exchanges r.controller.canonical fork as e) ns r'.toSite ∧
      ns.filter Notice.settles = [if (s.kind.conclusion e).kept
        then .committed s.isolation else .rolledBack s.isolation]

/-- The answer of a loop that came to an ending. -/
theorem Answer.outcome_ofDrain (kind : InputKind) (e : Ending) (events : List StreamEvent) :
    (ofDrain ⟨events, Seat.lastDrain e⟩).outcome = (kind.conclusion e).outcome := by
  rw [kind.outcome_conclusion, ofDrain, Seat.lastDrain]
  cases e.failure? <;> rfl

namespace EngineOp

/-- Let a session begin on an idle engine. If all its calls are answered, by a machine whose answers
are `as` and end the input with `e`, and all that is heard of them can be read, draining the session
comes to what its reference says. -/
theorem take_refines (b : Backend W) (config : EngineConfig) {r : Room W} {number : Nat}
    {s : Session} {fork : Handle} {as : List Break} {e : Ending} {w : W}
    (hidle : r.controller.Idle) (hs : r.session? number = some s) (hphase : s.phase = .start)
    (hending : s.kind.ending? as = some e) (hreadable : ∀ a ∈ s.kind.heard as, a.Readable)
    (hreplies : b.Replays r.world (s.exchanges r.controller.canonical fork as e) w)
    (hpatient : ∀ v, b.Replays r.world (s.beginning r.controller.canonical fork) v →
      b.Patient (s.machine r.controller.canonical fork) (s.kind.heard as) v) :
    r.Refines b number s fork as e
      ((session number (.take none)).perform b config r).1
      ((session number (.take none)).perform b config r).2 := by
  let seat : Seat W := ⟨r.toDesk, s⟩
  obtain ⟨s₁, ns, hstart, hawaits, ⟨p, hs₁⟩, hbegin, hns⟩ :=
    Seat.start_awaits (s := seat) hphase hidle hending hreadable hreplies hpatient
  obtain ⟨events, s₂, hdrain, hevents, hsession, hcontroller, ms, hrest, hms⟩ :=
    Seat.drain_cases hawaits
  have hpull : (Seat.pull b).run seat = (Seat.pull b).run s₁ := by
    rw [Seat.run_pull_start b hphase, EStateM.run_bind, hstart,
      Seat.run_pull_running b hawaits.phase, hs₁]
    rfl
  have hrun : (Seat.take b none).run seat = .ok ⟨events, Seat.lastDrain e⟩ s₂ := by
    change (Seat.drain b).run seat = _
    rw [← hdrain, Seat.drain, EStateM.run_bind, EStateM.run_bind, Act.run_attempt, Act.run_attempt,
      Act.outcome, Act.final, Act.outcome, Act.final, hpull]
  have hperform : (session number (.take none)).perform b config r =
      (.ofDrain ⟨events, Seat.lastDrain e⟩,
        { toDesk := s₂.toDesk, sessions := r.sessions.set number (some s₂.session) }) := by
    change Room.onSession b number (.take none) r = _
    rw [Room.onSession, hs]
    dsimp only
    rw [show SessionOp.perform b (.take none) seat = _ from Answer.drain_of_run hrun]
    rfl
  rw [hperform]
  rw [hs₁] at hevents hsession hcontroller hrest hms
  refine ⟨hevents, Answer.outcome_ofDrain s.kind e events, ⟨e.phase, ?_, ?_, ?_⟩, hcontroller,
    ?_, ns ++ ms, hbegin.trans hrest, ?_⟩
  · rw [hsession]
    rfl
  · exact (s.kind.state_conclusion e).symm
  · exact (s.kind.result?_conclusion e).symm
  · rw [show s₂.controller = _ from hcontroller]
    exact hidle.through s.isolation fork _
  · rw [List.filter_append, hns, List.nil_append]
    exact hms

/-- An advance that yields an output, something undecodable and progress, and is accepted then. -/
theorem advance_refines :
    let program := Scripted.Program.script [.automatic .output [1], .automatic .progress [],
      .automatic .progress (Bytes.word32 7), .manual .accepted [2]]
    let s : Session := { kind := .advance, payload := [5] }
    let r : Room Scripted.World :=
      { toSite := { world := .ofLedger [] [program] [] }
        controller := { canonical := 0 }, sessions := [some s] }
    let as : List Break := [⟨automaticBreak, some ⟨0, 2, [1]⟩⟩, ⟨automaticBreak, some ⟨0, 1, []⟩⟩,
      ⟨automaticBreak, some ⟨0, 1, [7, 0, 0, 0]⟩⟩, ⟨manualBreak, some ⟨1, 1, [2]⟩⟩]
    s.kind.events as = [.stream (.output [1]), .stream (.progress 7)] ∧
      r.Refines Scripted.backend 0 s 1 as (.accepted [2])
        ((session 0 (.take none)).perform Scripted.backend {} r).1
        ((session 0 (.take none)).perform Scripted.backend {} r).2 := by
  intro program s r as
  -- the calls are answered as the record of the run says
  obtain ⟨xs, ns, fs, hdoes, -⟩ := (session 0 (.take none)).does Scripted.backend {} r
  have hcalls : ((session 0 (.take none)).perform Scripted.backend {} r).2.calls =
      s.exchanges 0 1 as (.accepted [2]) := by cbv
  have hxs := hdoes.follows.calls
  rw [hcalls, List.nil_append] at hxs
  have hreplies := hdoes.follows.world
  rw [← hxs] at hreplies
  have hheard : s.kind.heard as = as := by decide +kernel
  have hreadable : ∀ a ∈ s.kind.heard as, a.Readable := by
    rw [hheard]
    simp only [as, List.forall_mem_cons]
    exact ⟨rfl, rfl, rfl, rfl, List.forall_mem_nil _⟩
  refine ⟨by decide +kernel, ?_⟩
  refine take_refines Scripted.backend {} ⟨rfl, rfl⟩ rfl rfl (by decide +kernel) hreadable
    hreplies ?_
  intro v hv
  obtain ⟨_, hheard, -⟩ := (hv.drop hreplies).split
  exact Scripted.patient .advance hheard

/-- An advance whose only break has a reason that is too long. Draining it fails, but with no error
of the engine; the session runs on in its transaction, and no ending is what it comes to. -/
theorem long_reason_unrefined :
    let long : Int := Numeral.limit
    let s : Session := { kind := .advance, payload := [5] }
    let r : Room Scripted.World :=
      { toSite := { world := .ofLedger [] [.script [.breakWith long .absent]] [] }
        controller := { canonical := 0 }, sessions := [some s] }
    let p := (session 0 (.take none)).perform Scripted.backend {} r
    p.1.failure?.map (·.error.message) = some Failure.unwritable.error.message ∧
      p.1.failure?.bind (·.error.engineKind?) = none ∧
      p.2.session? 0 = some (s.inPhase (.running 1)) ∧
      p.2.controller.inTransaction = true ∧
      ¬ ∃ fork e, r.Refines Scripted.backend 0 s fork [⟨long, none⟩] e p.1 p.2 := by
  intro long s r p
  have hopen : p.2.controller.inTransaction = true := by decide +kernel
  refine ⟨by decide +kernel, by decide +kernel, by decide +kernel, hopen, ?_⟩
  rintro ⟨fork, e, h⟩
  rw [Controller.inTransaction, h.idle.2] at hopen
  cases hopen

end EngineOp

end RollupEngine
