import Mathlib.Logic.Relation
import RollupEngine.Proofs.Isolation
import RollupEngine.Proofs.Journal
import RollupEngine.Proofs.Session.Reference
import RollupEngine.Proofs.Session.Rest

/-!
# The life of a session

A session starts, runs, and ends in one of four ways, or it is withdrawn before it starts
(`SessionState.Next`). Its transaction is opened when it starts and closed when it ends, and an end
can come from many places: an ending event, a machine that fails, a close, a scope that is left, a
session that nobody holds any more. `EngineOp.run_lives` says that all of them together close the
transaction exactly once, and that a session which is over does nothing any more.

What happened to a session is read off the record. The notices tell which transactions were opened
and closed for it (`Phase.Marked`), and the calls tell what its machine was heard with
(`Exchange.breaks`), so that its end can be compared with the first break that ends its input
(`Phase.Heard`). Every move keeps both in step with the phase (`Session.Moves.marked`,
`Session.Moves.hears`), which makes the life of a session on record (`Session.Lived`) an invariant
of all that an engine does (`EngineOp.Does.recorded`).
-/

namespace RollupEngine

variable {W : Type}

/-! ## Stages of a life -/

/-- How the state of a session moves. -/
inductive SessionState.Next : SessionState → SessionState → Prop
  | started : Next .start .running
  | withdrawn : Next .start .cancelled
  | accepted : Next .running .accepted
  | rejected : Next .running .rejected
  | fatal : Next .running .fatal
  | cancelled : Next .running .cancelled

/-- Whether a notice tells that a transaction was opened or closed. -/
def Notice.marks : Notice → Bool
  | .began _ | .committed _ | .rolledBack _ => true
  | _ => false

/-- The transactions of a session that has come to a phase, as they were opened and closed. -/
inductive Phase.Marked (kind : InputKind) (mode : Isolation) : List Notice → Phase → Prop
  | fresh : Marked kind mode [] .start
  | withdrawn : Marked kind mode [] .cancelled
  | running (w : Handle) : Marked kind mode [.began mode] (.running w)
  | kept (result : Bytes) (h : kind = .advance) :
    Marked kind mode [.began mode, .committed mode] (.accepted result)
  | undone {p : Phase} (hp : p.done = true) (h : ∀ result, kind = .advance → p ≠ .accepted result) :
    Marked kind mode [.began mode, .rolledBack mode] p

/-! ## Breaks on the record -/

namespace Exchange

/-- The request that a machine answered a call with. -/
def request? : Exchange → Option (Option YieldRequest)
  | .receive _ (.ok request) => some request
  | _ => none

/-- The break that a machine is heard with in a call, where `next` is the call after it. -/
def break? (x : Exchange) (next : Option Exchange) : Option Break :=
  match x with
  | .run _ (.ok reason) =>
    if isYield reason then (next.bind request?).map (⟨reason, ·⟩) else some ⟨reason, none⟩
  | _ => none

/-- The breaks that are heard in calls. -/
def breaks : List Exchange → List Break
  | [] => []
  | x :: xs => (x.break? xs.head?).toList ++ breaks xs

/-- The breaks of calls and of those that follow, unless these begin with an answer. -/
theorem breaks_append {xs ys : List Exchange} (h : ys.head?.bind request? = none) :
    breaks (xs ++ ys) = breaks xs ++ breaks ys := by
  induction xs with
  | nil => rfl
  | cons x xs ih =>
    have hnext : (xs ++ ys).head?.bind request? = xs.head?.bind request? := by
      cases xs with
      | nil => exact h
      | cons => rfl
    have hbreak : x.break? (xs ++ ys).head? = x.break? xs.head? := by
      unfold break?
      rw [hnext]
    rw [List.cons_append, breaks, breaks, ih, hbreak, List.append_assoc]

/-- Nothing is heard unless a machine is run. -/
theorem breaks_eq_nil {xs : List Exchange} (h : ∀ x ∈ xs, ∀ m reply, x ≠ .run m reply) :
    breaks xs = [] := by
  induction xs with
  | nil => rfl
  | cons x xs ih =>
    have hx : x.break? xs.head? = none := by
      cases x with
      | run m reply => exact absurd rfl (h _ (List.mem_cons_self ..) m reply)
      | fork | send | receive | shutdown | store | load => rfl
    rw [breaks, hx, ih fun y hy => h y (List.mem_cons_of_mem _ hy)]
    rfl

theorem head?_bind_request? {xs : List Exchange} (h : ∀ x ∈ xs, x.request? = none) :
    xs.head?.bind request? = none := by
  cases xs with
  | nil => rfl
  | cons x xs => exact h x (List.mem_cons_self ..)

/-- A machine that is released is not heard. -/
theorem breaks_of_shutdowns {xs : List Exchange} (h : ∀ x ∈ xs, ∃ m reply, x = .shutdown m reply) :
    breaks xs = [] := by
  refine breaks_eq_nil fun x hx m reply hrun => ?_
  obtain ⟨_, _, rfl⟩ := h x hx
  cases hrun

theorem head?_of_shutdowns {xs : List Exchange} (h : ∀ x ∈ xs, ∃ m reply, x = .shutdown m reply) :
    xs.head?.bind request? = none := by
  refine head?_bind_request? fun x hx => ?_
  obtain ⟨_, _, rfl⟩ := h x hx
  rfl

end Exchange

/-! ## What a session hears -/

/-- To hear a machine is to hear one break of it, if nothing is raised. -/
theorem Hears.breaks {w : Handle} {xs : List Exchange} {o : Except Failure Reading}
    (h : Hears w xs o) : Exchange.breaks xs = [] ∧ (∃ f, o = .error f) ∨
      ∃ a : Break, Exchange.breaks xs = [a] ∧ o = .ok (readBreak a.reason a.request) := by
  cases h with
  | stopped e => exact .inl ⟨rfl, _, rfl⟩
  | broke reason hy =>
    refine .inr ⟨⟨reason, none⟩, ?_, rfl⟩
    simp [Exchange.breaks, Exchange.break?, hy]
  | silent reason hy e =>
    refine .inl ⟨?_, _, rfl⟩
    simp [Exchange.breaks, Exchange.break?, Exchange.request?, hy]
  | yielded reason hy request =>
    refine .inr ⟨⟨reason, request⟩, ?_, rfl⟩
    simp [Exchange.breaks, Exchange.break?, Exchange.request?, hy]

/-- A phase that a session has come to fits the breaks that it heard: it ended as the first of them
says that ends its input, and it was accepted only so. -/
structure Phase.Heard (kind : InputKind) (as : List Break) (p : Phase) : Prop where
  ended : ∀ e, kind.ending? as = some e → p = e.phase
  accepted : ∀ result, p = .accepted result → kind.ending? as = some (.accepted result)

namespace Phase.Heard

variable {kind : InputKind} {as : List Break} {p : Phase}

/-- A session that heard nothing is not accepted. -/
theorem of_nil (h : ∀ result, p ≠ .accepted result) : Heard kind [] p where
  ended _ he := by cases he
  accepted result hp := absurd hp (h result)

/-- A break that ends no input leaves a session as it was. -/
theorem of_running {a : Break} {w : Handle} (h : kind.endingAt? a = none) :
    Heard kind [a] (.running w) where
  ended e he := by
    rw [InputKind.ending?_cons [] h] at he
    cases he
  accepted _ hp := by cases hp

theorem of_ending {a : Break} {e : Ending} (h : kind.endingAt? a = some e) :
    Heard kind [a] e.phase where
  ended e' he := by
    rw [InputKind.ending?_cons_of_ending [] h] at he
    rw [Option.some.inj he]
  accepted result hp := by
    rw [InputKind.ending?_cons_of_ending [] h]
    cases e <;> cases hp
    rfl

end Phase.Heard

/-- Whatever is released after a machine was heard, nothing more is heard. -/
theorem Hears.breaks_append {w : Handle} {xs ys : List Exchange} {o : Except Failure Reading}
    (h : Hears w xs o) (hy : ∀ y ∈ ys, ∃ m reply, y = .shutdown m reply) :
    (xs ++ ys).head?.bind Exchange.request? = none ∧
      Exchange.breaks (xs ++ ys) = Exchange.breaks xs := by
  refine ⟨by cases h <;> rfl, ?_⟩
  rw [Exchange.breaks_append (Exchange.head?_of_shutdowns hy), Exchange.breaks_of_shutdowns hy,
    List.append_nil]

namespace Session

variable {s : Session} {kind : InputKind} {w : Handle} {c c' : Controller} {p : Phase}
  {xs ys : List Exchange} {ns : List Notice} {fs : List Failure}

theorem Judges.hears {a : Break} {o : Except Failure Seat.Turn}
    (h : Judges kind w (readBreak a.reason a.request) c xs ns o c' p) :
    Phase.Heard kind [a] p := by
  cases h with
  | delivered hv | passed hv | refused hv =>
    exact .of_running (InputKind.endingAt?_eq_none_of_verdict (by rw [hv]; nofun))
  | ended hv => exact .of_ending (InputKind.endingAt?_of_verdict hv)

theorem Turns.hears {o : Except Failure Seat.Turn} (h : Turns kind w c xs ns o c' p) :
    xs.head?.bind Exchange.request? = none ∧ Phase.Heard kind (Exchange.breaks xs) p := by
  cases h with
  | heard hx hj =>
    rcases hx.breaks with ⟨-, _, ho⟩ | ⟨a, ha, ho⟩
    · cases ho
    · cases ho
      obtain ⟨hhead, hbreaks⟩ := hx.breaks_append fun y hy => hj.mem hy
      rw [hbreaks, ha]
      exact ⟨hhead, hj.hears⟩
  | interrupted hx =>
    rcases hx.breaks with ⟨hnil, -⟩ | ⟨_, -, ho⟩
    · have hhead := (hx.breaks_append (List.forall_mem_nil _)).1
      rw [List.append_nil] at hhead
      rw [hnil]
      exact ⟨hhead, .of_nil nofun⟩
    · cases ho
  | failed hx _ hf =>
    rcases hx.breaks with ⟨hnil, -⟩ | ⟨_, -, ho⟩
    · obtain ⟨hhead, hbreaks⟩ := hx.breaks_append fun y hy => hf.mem hy
      rw [hbreaks, hnil]
      exact ⟨hhead, .of_nil nofun⟩
    · cases ho

theorem Starts.not_accepted {o : Except Failure Handle} (h : s.Starts c xs ns o c' p)
    (result : Bytes) : p ≠ .accepted result := by
  cases h with
  | refused | sent | interrupted | failed => nofun

/-- No machine is heard while its session starts. -/
theorem Starts.silent {o : Except Failure Handle} (hp : s.phase = .start)
    (h : s.Starts c xs ns o c' p) :
    xs.head?.bind Exchange.request? = none ∧ Exchange.breaks xs = [] := by
  have hmem {x : Exchange} (hx : x ∈ xs) : (∀ m reply, x ≠ .run m reply) ∧ x.request? = none := by
    rcases (Moves.start hp h).mem hx with
      ⟨-, _, rfl⟩ | ⟨_, _, _, _, _, rfl, -⟩ | ⟨_, hr, -⟩ | ⟨_, _, rfl⟩
    · exact ⟨nofun, rfl⟩
    · exact ⟨nofun, rfl⟩
    · cases hp.symm.trans hr
    · exact ⟨nofun, rfl⟩
  exact ⟨Exchange.head?_bind_request? fun x hx => (hmem hx).2,
    Exchange.breaks_eq_nil fun x hx => (hmem hx).1⟩

/-- What a move hears. -/
theorem Moves.hears (h : s.Moves c xs ns fs c' p) :
    xs.head?.bind Exchange.request? = none ∧
      (s.phase.done = false → Phase.Heard s.kind (Exchange.breaks xs) p) := by
  have closes {o : Except Failure Unit} {ns : List Notice} (hclose : s.Closes c xs ns o c' p) :
      xs.head?.bind Exchange.request? = none ∧
        (s.phase.done = false → Phase.Heard s.kind (Exchange.breaks xs) p) := by
    have hmem : ∀ x ∈ xs, ∃ m reply, x = .shutdown m reply := fun x hx => hclose.mem hx
    refine ⟨Exchange.head?_of_shutdowns hmem, fun hd => ?_⟩
    rw [Exchange.breaks_of_shutdowns hmem]
    cases hclose with
    | fresh | running => exact .of_nil nofun
    | done hover => cases hd.symm.trans hover
  cases h with
  | start hp h =>
    obtain ⟨hhead, hbreaks⟩ := h.silent hp
    rw [hbreaks]
    exact ⟨hhead, fun _ => .of_nil h.not_accepted⟩
  | turn hp h => exact ⟨h.hears.1, fun _ => h.hears.2⟩
  | close h | abandon h => exact closes h

end Session

/-! ## Transactions on the record -/

namespace Phase.Marked

variable {kind : InputKind} {mode : Isolation} {ms : List Notice} {p : Phase}

theorem of_start (h : Marked kind mode ms p) (hp : p = .start) : ms = [] := by
  cases h with
  | fresh => rfl
  | withdrawn | running | kept => cases hp
  | undone hd =>
    rw [hp] at hd
    cases hd

theorem of_running {w : Handle} (h : Marked kind mode ms p) (hp : p = .running w) :
    ms = [.began mode] := by
  cases h with
  | running => rfl
  | fresh | withdrawn | kept => cases hp
  | undone hd =>
    rw [hp] at hd
    cases hd

/-- A transaction is kept if an advance was accepted, and else undone. -/
theorem ended (kind : InputKind) (mode : Isolation) (ending : Ending) :
    Marked kind mode
      [.began mode, if ending.keeps kind then .committed mode else .rolledBack mode]
      ending.phase := by
  cases ending with
  | accepted result =>
    cases kind with
    | advance => exact .kept result rfl
    | inspect => exact .undone rfl nofun
  | rejected | exception | violation => exact .undone rfl nofun

end Phase.Marked

namespace Controller

variable {mode : Isolation} {c c' : Controller} {xs : List Exchange} {ns : List Notice}

theorem Begins.notices_of_ok {w : Handle} (h : c.Begins mode xs ns (.ok w) c') :
    ns = [.began mode] := by
  cases h with
  | direct _ hm | isolated _ hm => rw [hm]

theorem Begins.marks_of_error {f : Failure} (h : c.Begins mode xs ns (.error f) c') :
    ns.filter Notice.marks = [] := by
  cases h with
  | closed | busy | failed | interrupted => rfl

/-- Closing a transaction that is there leaves one mark. -/
theorem Settles.marks {keeps : Bool} {o : Except Failure Unit} (h : c.Settles keeps xs ns o c')
    (hc : c.Fits mode) (ht : c.transaction ≠ none) :
    ns.filter Notice.marks = [if keeps then .committed mode else .rolledBack mode] := by
  cases h with
  | absent h => exact absurd h ht
  | direct h =>
    obtain ⟨rfl, -⟩ := hc.direct _ h
    cases keeps <;> rfl
  | promoted h hk reply =>
    obtain ⟨rfl, -⟩ := hc.isolated _ _ h
    rw [hk]
    cases hl : leaks reply <;> rfl
  | discarded h hk =>
    obtain ⟨rfl, -⟩ := hc.isolated _ _ h
    rw [hk]
    rfl

end Controller

namespace Session

variable {s : Session} {kind : InputKind} {mode : Isolation} {c c' : Controller} {p : Phase}
  {xs : List Exchange} {ns ms : List Notice} {fs : List Failure}

theorem Ends.marks {ending : Ending} {o : Except Failure Seat.Turn}
    (h : Ends kind ending c xs ns o c') (hc : c.Fits mode) (ht : c.transaction ≠ none) :
    ns.filter Notice.marks =
      [if ending.keeps kind then .committed mode else .rolledBack mode] := by
  cases h with
  | settled h =>
    have hquiet : (ending.notices kind).filter Notice.marks = [] := by cases ending <;> rfl
    rw [List.filter_append, h.marks hc ht, hquiet, List.append_nil]
  | unsettled h => exact h.marks hc ht

theorem Fails.marks {e : Error} {f : Failure} (h : Fails kind e c xs ns f c') (hc : c.Fits mode)
    (ht : c.transaction ≠ none) : ns.filter Notice.marks = [.rolledBack mode] := by
  cases h with
  | @rolledBack ms o _ h =>
    have hquiet : (rollbackNotices kind (o.mapError .closing)).filter Notice.marks = [] := by
      unfold rollbackNotices
      split
      · rfl
      · split <;> rfl
    have hfailed : (.machineFailed kind :: ms).filter Notice.marks = ms.filter Notice.marks := rfl
    rw [List.filter_append, hquiet, List.append_nil, hfailed, h.marks hc ht]
    rfl

/-- To pass over a break opens and closes nothing. -/
theorem marks_of_verdict {r : Reading} (h : kind.verdict r = .pass ns) :
    ns.filter Notice.marks = [] := by
  rcases r with (event | ending) | payload | reason | v
  · cases kind <;> cases event <;> cases h
    rfl
  · cases h
  · cases h
    rfl
  · cases h
    rfl
  · cases h

/-- A move marks the transactions of a session as its phase says. -/
theorem Moves.marked (h : s.Moves c xs ns fs c' p) (hc : c.Fits s.isolation)
    (hr : ∀ w, s.phase = .running w → c.transaction ≠ none)
    (hm : Phase.Marked s.kind s.isolation ms s.phase) :
    Phase.Marked s.kind s.isolation (ms ++ ns.filter Notice.marks) p := by
  have closes {o : Except Failure Unit} {ns : List Notice} (hclose : s.Closes c xs ns o c' p) :
      Phase.Marked s.kind s.isolation (ms ++ ns.filter Notice.marks) p := by
    cases hclose with
    | fresh hp =>
      rw [hm.of_start hp]
      exact .withdrawn
    | done => rwa [List.filter_nil, List.append_nil]
    | @running _ ns _ _ _ hp hs =>
      have hnoted : (.cancelled s.kind :: ns).filter Notice.marks = ns.filter Notice.marks := rfl
      rw [hm.of_running hp, hnoted, hs.marks hc (hr _ hp)]
      exact .undone rfl nofun
  cases h with
  | start hp h =>
    rw [hm.of_start hp, List.nil_append]
    cases h with
    | refused h =>
      rw [h.marks_of_error]
      exact .fresh
    | sent h | interrupted h =>
      rw [h.notices_of_ok]
      exact .running _
    | @failed _ _ _ ms _ _ _ _ h _ _ hf =>
      have hstarted : (.started s.kind s.payload.length :: ms).filter Notice.marks =
        ms.filter Notice.marks := rfl
      rw [h.notices_of_ok, List.filter_append, hstarted, hf.marks h.fits h.opens]
      exact .undone rfl nofun
  | turn hp h =>
    rw [hm.of_running hp]
    cases h with
    | heard _ hj =>
      cases hj with
      | delivered | refused => exact .running _
      | passed hv =>
        rw [marks_of_verdict hv]
        exact .running _
      | ended _ he =>
        rw [he.marks hc (hr _ hp)]
        exact .ended _ _ _
    | interrupted => exact .running _
    | failed _ _ hf =>
      rw [hf.marks hc (hr _ hp)]
      exact .undone rfl nofun
  | close h => exact closes h
  | @abandon ns o _ _ h =>
    have hquiet : (lament o).filter Notice.marks = [] := by
      unfold lament
      split
      · rfl
      · split <;> rfl
    rw [List.filter_append, hquiet, List.append_nil]
    exact closes h

/-- A move leads from state to state as sessions may. -/
theorem Moves.next (h : s.Moves c xs ns fs c' p) :
    Relation.ReflTransGen SessionState.Next s.phase.state p.state := by
  have closes {o : Except Failure Unit} {ns : List Notice} (hclose : s.Closes c xs ns o c' p) :
      Relation.ReflTransGen SessionState.Next s.phase.state p.state := by
    cases hclose with
    | done => exact .refl
    | fresh hp =>
      rw [hp]
      exact .single .withdrawn
    | running hp =>
      rw [hp]
      exact .single .cancelled
  cases h with
  | start hp h =>
    rw [hp]
    cases h with
    | refused => exact .refl
    | sent | interrupted => exact .single .started
    | failed => exact .tail (.single .started) .fatal
  | turn hp h =>
    rw [hp]
    cases h with
    | heard _ hj =>
      cases hj with
      | delivered | passed | refused => exact .refl
      | @ended _ _ ending =>
        cases ending with
        | accepted => exact .single .accepted
        | rejected => exact .single .rejected
        | exception | violation => exact .single .fatal
    | interrupted => exact .refl
    | failed => exact .single .fatal
  | close h | abandon h => exact closes h

end Session

/-! ## Lives -/

/-- The calls and the notices that were made for a session tell a life that led to where it is. -/
structure Session.Lived (mode : Isolation) (xs : List Exchange) (ns : List Notice)
    (s : Session) : Prop where
  marked : Phase.Marked s.kind mode (ns.filter Notice.marks) s.phase
  heard : Phase.Heard s.kind (Exchange.breaks xs) s.phase
  /-- There is a result if and only if the input was accepted. -/
  result : s.phase.result?.isSome = true ↔ s.phase.state = .accepted

namespace Phase

theorem isSome_result? (p : Phase) : p.result?.isSome = true ↔ p.state = .accepted := by
  cases p <;> simp [result?, state]

/-- Hearing more. -/
theorem Heard.append {kind : InputKind} {as bs : List Break} {p q : Phase}
    (h : p.Heard kind as) (hp : p.done = false) (h' : q.Heard kind bs) :
    q.Heard kind (as ++ bs) := by
  have hnone : kind.ending? as = none := by
    cases has : kind.ending? as with
    | none => rfl
    | some e =>
      rw [h.ended e has] at hp
      cases e <;> cases hp
  have happend : kind.ending? (as ++ bs) = kind.ending? bs := by
    unfold InputKind.ending? at hnone ⊢
    rw [List.findSome?_append, hnone, Option.none_or]
  exact ⟨fun e he => h'.ended e (happend ▸ he), fun result hq => happend ▸ h'.accepted result hq⟩

end Phase

namespace Seat

variable {b : Backend W} {s s' : Seat W} {xs ys own : List Exchange} {ns ms : List Notice}
  {fs : List Failure} {foreign : Option Transaction} {mode : Isolation}

theorem Move.lived (h : Move b s ys ms fs s') (hs : s.Linked foreign own)
    (hm : s.session.isolation = mode) (hl : s.session.Lived mode xs ns) :
    s'.session.Lived mode (xs ++ ys) (ns ++ ms) where
  marked := by
    subst hm
    rw [h.kind, List.filter_append]
    refine h.moves.marked hs.fits (fun w hp => ?_) hl.marked
    obtain ⟨-, t, ht, -⟩ := hs.of_running hp
    rw [ht]
    nofun
  heard := by
    obtain ⟨hhead, hheard⟩ := h.moves.hears
    rw [h.kind, Exchange.breaks_append hhead]
    cases hd : s.session.phase.done with
    | false => exact hl.heard.append hd (hheard hd)
    | true =>
      obtain ⟨rfl, -, -, -, hp⟩ := h.moves.of_done hd
      rw [hp, Exchange.breaks, List.append_nil]
      exact hl.heard
  result := s'.session.phase.isSome_result?

theorem Path.lived (h : Path b s ys ms fs s') (hs : s.Linked foreign own)
    (hm : s.session.isolation = mode) (hl : s.session.Lived mode xs ns) :
    s'.session.Lived mode (xs ++ ys) (ns ++ ms) := by
  induction h generalizing own xs ns with
  | refl => rwa [List.append_nil, List.append_nil]
  | step head _ ih =>
    rw [← List.append_assoc, ← List.append_assoc]
    exact ih (head.linked hs) (head.isolation.trans hm) (head.lived hs hm hl)

theorem Path.next (h : Path b s ys ms fs s') :
    Relation.ReflTransGen SessionState.Next s.session.phase.state s'.session.phase.state := by
  induction h with
  | refl => exact .refl
  | step head _ ih => exact head.moves.next.trans ih

end Seat

namespace EngineOp

/-- The calls that were made for the session of an operation before it. -/
def pastCalls (js : List (Page W)) : EngineOp → List Exchange
  | .session n _ => sessionCalls n js
  | _ => []

/-- The notices that were made for the session of an operation before it. -/
def pastNotices (js : List (Page W)) : EngineOp → List Notice
  | .session n _ => sessionNotices n js
  | _ => []

/-- What an operation that works on a session adds to its life, after the operations of a journal:
the session was `s` before it and is `t` after it. -/
structure Lives (b : Backend W) (config : EngineConfig) (op : EngineOp) (js : List (Page W))
    (r : Room W) (s t : Session) : Prop where
  /-- The input is the same. -/
  session : t = s.inPhase t.phase
  moves : Relation.ReflTransGen SessionState.Next s.phase.state t.phase.state
  lived : t.Lived config.isolation (op.pastCalls js ++ (op.page b config r).calls)
    (op.pastNotices js ++ (op.page b config r).notices)

/-- What an operation comes to on the session `n`, which is over. -/
structure Exhausted (b : Backend W) (config : EngineConfig) (n : Nat) (op : SessionOp)
    (r : Room W) : Prop where
  /-- No machine is called, nothing is noticed, and the controller is as it was. -/
  desk : ((session n op).perform b config r).2.toDesk = r.toDesk
  /-- The session is as it was, if it is held on to. -/
  room : op.keeps = true → ((session n op).perform b config r).2 = r
  events : ((session n op).perform b config r).1.events = []
  /-- Nothing is raised but what the holder raises. -/
  raised : ∀ f, ((session n op).perform b config r).1.failure? = some f → op.raises? = some f.error
  pull : op = .pull → ((session n op).perform b config r).1.outcome = .ok (.event none)
  next : op = .next → ((session n op).perform b config r).1.outcome = .ok .stop

/-- The lives of all sessions of a room are on record. -/
structure Recorded (mode : Isolation) (js : List (Page W)) (r : Room W) : Prop where
  linked : ∃ own, r.Linked mode own
  lived : Shares (fun s xs ns => s.Lived mode xs ns) js r

variable {b : Backend W} {config : EngineConfig} {op : EngineOp} {r r' : Room W}
  {js : List (Page W)} {xs : List Exchange} {ns : List Notice} {fs : List Failure} {s t : Session}

theorem lived_start (mode : Isolation) (kind : InputKind) (payload : Bytes) :
    (config.session kind payload).Lived mode [] [] where
  marked := .fresh
  heard := .of_nil nofun
  result := Phase.isSome_result? _

theorem Does.lives (h : Does b config r op xs ns fs r') (hr : Recorded config.isolation js r)
    (hact : op.acting? b config r = some (s, t)) :
    t = s.inPhase t.phase ∧ Relation.ReflTransGen SessionState.Next s.phase.state t.phase.state ∧
      t.Lived config.isolation (op.pastCalls js ++ xs) (op.pastNotices js ++ ns) := by
  obtain ⟨own, hlinked⟩ := hr.linked
  cases h with
  | @closed _ input _ h => cases input <;> simp [acting?, h] at hact
  | notBytes | stored | shutDown => cases hact
  | opened _ h => simp [acting?, h] at hact
  | absent h => simp [acting?, h] at hact
  | @collected kind payload _ _ _ _ _ _ _ hact' path =>
    cases hact.symm.trans hact'
    exact ⟨path.session, path.next,
      path.lived (hlinked.fresh rfl rfl) rfl (lived_start _ kind payload)⟩
  | @walked n _ _ _ _ _ _ hn hact' path =>
    cases hact.symm.trans hact'
    exact ⟨path.session, path.next,
      path.lived (hlinked.seat hn) (hlinked.isolation n s hn) (hr.lived.of_session hn)⟩

/-- Every operation keeps the record of all lives. -/
theorem Does.recorded (h : Does b config r op xs ns fs r')
    (hcalls : (op.page b config r).calls = xs) (hnotices : (op.page b config r).notices = ns)
    (hr : Recorded config.isolation js r) :
    Recorded config.isolation (js ++ [op.page b config r]) r' := by
  obtain ⟨own, hlinked⟩ := hr.linked
  exact ⟨⟨_, h.linked hlinked⟩, h.shares hcalls hnotices (lived_start _)
    (fun hn path hl => path.lived (hlinked.seat hn) (hlinked.isolation _ _ hn) hl) hr.lived⟩

theorem exhausted (b : Backend W) (config : EngineConfig) {n : Nat} (hn : r.session? n = some s)
    (hs : s.phase.done = true) (sop : SessionOp) : Exhausted b config n sop r := by
  have hperform := perform_session b config hn sop
  rw [SessionOp.perform_of_done b (s := ⟨r.toDesk, s⟩) hs] at hperform
  refine ⟨?_, fun hkeeps => ?_, ?_, fun f hf => ?_, ?_, ?_⟩
  · rw [hperform]
  · rw [hperform, hkeeps, if_pos rfl, Room.sessions_set_self hn]
  · rw [hperform]
    exact SessionOp.events_answerAtRest sop _
  · rw [hperform] at hf
    exact SessionOp.failure?_answerAtRest hf
  · rintro rfl
    rw [hperform]
    rfl
  · rintro rfl
    rw [hperform]
    rfl

/-- In every room that an engine comes to, whatever its machines do, the calls and notices that were
made for a session tell its life. It moves from state to state as sessions may, and only by what is
done to it; its transaction is opened at most once, and closed exactly once by the time it is over;
then nothing that is done to it has an effect. -/
theorem run_lives (b : Backend W) (config : EngineConfig) (machine : Handle) (s : Site W)
    (ops : List EngineOp) :
    let r := run b config ops (.opening machine s)
    let js := journal b config ops (.opening machine s)
    (∀ n session, r.session? n = some session →
      session.Lived config.isolation (sessionCalls n js) (sessionNotices n js)) ∧
    (∀ op s t, acting? b config op r = some (s, t) → op.Lives b config js r s t) ∧
    (∀ n session, r.session? n = some session → ∀ op : EngineOp, op.isOn n = false →
      (op.perform b config r).2.session? n = some session) ∧
    ∀ n session, r.session? n = some session → session.phase.done = true →
      ∀ op, Exhausted b config n op r := by
  intro r js
  have hopening : Recorded config.isolation [] (Room.opening machine s) :=
    ⟨⟨[], Room.opening_linked _ machine s⟩, .opening _ machine s⟩
  have hr : Recorded config.isolation js r :=
    run_journal (fun _ _ _ _ hdoes hcalls hnotices => hdoes.recorded hcalls hnotices) ops hopening
  refine ⟨fun n session hn => hr.lived.of_session hn, fun op s t hact => ?lives,
    fun n session hn op hop => ?others, fun n session hn hd op => exhausted b config hn hd op⟩
  case lives =>
    obtain ⟨xs, ns, fs, hdoes, -⟩ := op.does b config r
    obtain ⟨hsession, hmoves, hlived⟩ := hdoes.lives hr hact
    have hcalls : (op.page b config r).calls = xs := Page.calls_of_follows hdoes.follows
    have hnotices : (op.page b config r).notices = ns := Page.notices_of_follows hdoes.follows
    exact ⟨hsession, hmoves, by rw [hcalls, hnotices]; exact hlived⟩
  case others =>
    obtain ⟨xs, ns, fs, hdoes, -⟩ := op.does b config r
    exact hdoes.session?_of_some hop hn

end EngineOp

end RollupEngine
