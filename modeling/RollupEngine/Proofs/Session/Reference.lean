import RollupEngine.Proofs.Session.Move

/-!
# What a session should come to

A reference for sessions that knows nothing of how they are pulled. It is a function of what the
machine answers, a list of breaks with their requests. The input ends at the first answer whose
event ends it (`InputKind.ending?`); what the answers before that one carry is what the session
delivers (`InputKind.events`), and `InputKind.conclusion` is what the ending comes to.
`Session.exchanges` is the record of the calls that such a session makes when none of them fails.

`InputKind.verdict_of_ending` and `InputKind.verdict_of_not_ending` compare the reference with what
a session makes of one break. They say nothing of a break whose code is too long to be written; such
a break is not `Break.Readable`, and no session goes on with it.
-/

namespace RollupEngine

variable {W : Type}

/-! ## Answers of a machine -/

/-- An automatic yield violates nothing. -/
theorem readAutomatic_ne_unwritable (r : YieldRequest) (v : Violation) :
    readAutomatic r ≠ .unwritable v := by
  unfold readAutomatic
  split
  · split <;> nofun
  all_goals nofun

/-- A break of a machine, with the request that the machine holds then. -/
structure Break where
  reason : Int
  request : Option YieldRequest
  deriving DecidableEq, Repr

namespace Break

/-- The event of a break, if it carries one. -/
def event? (a : Break) : Option Event :=
  eventOf? a.reason a.request

/-- The break can be interpreted, as an event or as none. -/
def Readable (a : Break) : Prop :=
  interpret a.reason a.request = .ok a.event?

/-- Whatever an automatic yield carries, it can be read. -/
theorem readable_automatic (r : YieldRequest) : Readable ⟨automaticBreak, some r⟩ := by
  change (readAutomatic r).outcome = .ok (readAutomatic r).event?
  cases h : readAutomatic r with
  | event | undecodableProgress | unknownYield => rfl
  | unwritable v => exact absurd h (readAutomatic_ne_unwritable r v)

/-- The calls in which the machine `m` breaks so. Its request is asked for after a yield only. -/
def exchanges (m : Handle) (a : Break) : List Exchange :=
  .run m (.ok a.reason) :: if isYield a.reason then [.receive m (.ok a.request)] else []

end Break

namespace InputKind

/-- The ending that an event is for an input: an inspect may emit no output. -/
def endingOf? : InputKind → Event → Option Ending
  | _, .ending e => some e
  | .inspect, .stream (.output _) => some (.violation .outputInInspect)
  | _, .stream _ => none

/-- Whether an event is shown: an inspect keeps its progress to itself. -/
def shows : InputKind → Event → Bool
  | .inspect, .stream (.progress _) => false
  | _, _ => true

variable (kind : InputKind)

/-- The ending that a break is for an input. -/
def endingAt? (a : Break) : Option Ending :=
  a.event?.bind kind.endingOf?

/-- The first ending among answers. -/
def ending? (as : List Break) : Option Ending :=
  as.findSome? kind.endingAt?

/-- The answers before the first ending. -/
def before (as : List Break) : List Break :=
  as.takeWhile fun a => (kind.endingAt? a).isNone

/-- The answers up to the first ending and with it. No machine is asked for more. -/
def heard (as : List Break) : List Break :=
  as.take ((kind.before as).length + 1)

/-- The events that answers deliver. -/
def events (as : List Break) : List Event :=
  ((kind.before as).filterMap Break.event?).filter kind.shows

end InputKind

/-! ## Conclusions -/

/-- What a drained session comes to. -/
structure Conclusion where
  /-- What its holder is told. -/
  outcome : Except Failure Reply
  state : SessionState
  result? : Option Bytes
  /-- Whether the transaction was committed; else it was rolled back. -/
  kept : Bool

/-- A fatal error of the input, with who brought it about. -/
def Conclusion.fatal (message source : String) : Conclusion where
  outcome := .error {
    error := .engine { kind := .fatal, message, details := [("source", .text source)] } }
  state := .fatal
  result? := none
  kept := false

/-- What an ending comes to. -/
def InputKind.conclusion (kind : InputKind) : Ending → Conclusion
  | .accepted result =>
    { outcome := .ok (.drained true), state := .accepted, result? := some result
      kept := kind = .advance }
  | .rejected =>
    { outcome := .error {
        error := .engine { kind := .inputRejected, message := "Input rejected", details := [] } }
      state := .rejected
      result? := none
      kept := false }
  | .exception d => .fatal (if d.isEmpty then EngineErrorKind.fatal.defaultMessage else d) "guest"
  | .violation v => .fatal v.description "protocol"

/-! ## The record of a session -/

/-- Whether a notice tells of the end of a transaction. -/
def Notice.settles : Notice → Bool
  | .committed _ | .rolledBack _ => true
  | _ => false

namespace Isolation

/-- The machine that a transaction works on, where `fork` is the fork that it may make. -/
def working (mode : Isolation) (canonical fork : Handle) : Handle :=
  match mode with
  | .isolated => fork
  | .direct => canonical

/-- The calls that open a transaction. -/
def opening (mode : Isolation) (canonical fork : Handle) : List Exchange :=
  match mode with
  | .isolated => [.fork canonical (.ok fork)]
  | .direct => []

/-- The calls that close a transaction. -/
def closing (mode : Isolation) (canonical fork : Handle) (kept : Bool) : List Exchange :=
  match mode with
  | .isolated => [.shutdown (if kept then canonical else fork) (.ok ())]
  | .direct => []

end Isolation

namespace Controller

/-- The controller during a transaction. -/
def opened (c : Controller) (mode : Isolation) (fork : Handle) : Controller :=
  match mode with
  | .isolated => c.openedIsolated fork
  | .direct => c.openedDirect

/-- The controller after a transaction. -/
def through (c : Controller) (mode : Isolation) (fork : Handle) (kept : Bool) : Controller :=
  match mode with
  | .isolated =>
    { c with
      canonical := if kept then fork else c.canonical
      created := c.created + 1
      released := c.released + 1 }
  | .direct => c

end Controller

namespace Session

variable (s : Session) (canonical fork : Handle)

/-- The machine that a session works on. -/
def machine : Handle :=
  s.isolation.working canonical fork

/-- The calls that start a session. -/
def beginning : List Exchange :=
  s.isolation.opening canonical fork ++
    [.send (s.machine canonical fork) s.kind.reason s.payload (.ok ())]

/-- The calls of a session that is answered by `as` and ends with `e`, from when it has started. -/
def rest (as : List Break) (e : Ending) : List Exchange :=
  (s.kind.heard as).flatMap (Break.exchanges (s.machine canonical fork)) ++
    s.isolation.closing canonical fork (s.kind.conclusion e).kept

/-- All calls of a session that is answered by `as` and ends with `e`. -/
def exchanges (as : List Break) (e : Ending) : List Exchange :=
  s.beginning canonical fork ++ s.rest canonical fork as e

end Session

/-- Wherever the answers `as` lead from a world, the host is willing to run the machine as often as
there are answers to come. -/
def Backend.Patient (b : Backend W) (m : Handle) : List Break → W → Prop
  | [], _ => True
  | a :: as, w => as.length < b.patience m w ∧
    ∀ w', b.Replays w (a.exchanges m) w' → Patient b m as w'

theorem Backend.Patient.length_le {b : Backend W} {m : Handle} {as : List Break} {w : W}
    (h : b.Patient m as w) : as.length ≤ b.patience m w := by
  cases as with
  | nil => exact Nat.zero_le _
  | cons => exact h.1

/-! ## One answer after the other -/

namespace InputKind

variable {kind : InputKind} {a : Break} {e : Ending} (as : List Break)

theorem ending?_cons_of_ending (h : kind.endingAt? a = some e) :
    kind.ending? (a :: as) = some e := by
  simp [ending?, h]

theorem heard_cons_of_ending (h : kind.endingAt? a = some e) : kind.heard (a :: as) = [a] := by
  simp [heard, before, h]

theorem events_cons_of_ending (h : kind.endingAt? a = some e) : kind.events (a :: as) = [] := by
  simp [events, before, h]

theorem ending?_cons (h : kind.endingAt? a = none) :
    kind.ending? (a :: as) = kind.ending? as := by
  simp [ending?, h]

theorem heard_cons (h : kind.endingAt? a = none) :
    kind.heard (a :: as) = a :: kind.heard as := by
  simp [heard, before, h]

theorem events_cons (h : kind.endingAt? a = none) :
    kind.events (a :: as) = kind.events [a] ++ kind.events as := by
  simp only [events, before, List.takeWhile_cons, h, Option.isNone_none, if_true,
    List.takeWhile_nil]
  rw [← List.filter_append, ← List.filterMap_append, List.singleton_append]

theorem events_singleton (h : kind.endingAt? a = none) :
    kind.events [a] = a.event?.toList.filter kind.shows := by
  simp only [events, before, List.takeWhile_cons, h, Option.isNone_none, if_true,
    List.takeWhile_nil]
  cases he : a.event? with
  | none => simp [he]
  | some event => simp [he]

/-- Some answer is heard, if one ends the input. -/
theorem heard_length_pos {as : List Break} (h : kind.ending? as = some e) :
    0 < (kind.heard as).length := by
  cases as with
  | nil => cases h
  | cons => simp [heard]

/-! ## The reference and what a session makes of a break -/

/-- No session goes on with a break that cannot be read. -/
theorem verdict_ne_refuse_iff :
    kind.verdict (readBreak a.reason a.request) ≠ .refuse ↔ a.Readable := by
  unfold Break.Readable interpret Break.event? eventOf?
  generalize readBreak a.reason a.request = r
  rcases r with (event | ending) | payload | reason | v
  · cases kind <;> cases event <;> simp [verdict, Reading.outcome]
  all_goals simp [verdict, Reading.outcome]

/-- A break that ends the input stops the session with that ending. -/
theorem verdict_of_ending (h : kind.endingAt? a = some e) :
    kind.verdict (readBreak a.reason a.request) = .stop e := by
  unfold endingAt? Break.event? eventOf? at h
  generalize readBreak a.reason a.request = r at h ⊢
  rcases r with (event | ending) | payload | reason | v
  · cases kind <;> cases event <;> simp_all [Reading.event?, endingOf?, verdict]
  · simp_all [Reading.event?, endingOf?, verdict]
  all_goals simp [Reading.event?] at h

/-- A break that does not end the input is delivered, or passed over, if it can be read. -/
theorem verdict_of_not_ending (h : kind.endingAt? a = none) (hr : a.Readable) :
    (∃ event, kind.verdict (readBreak a.reason a.request) = .deliver event ∧
      kind.events [a] = [.stream event]) ∨
    ∃ ns, kind.verdict (readBreak a.reason a.request) = .pass ns ∧ kind.events [a] = [] ∧
      ns.filter Notice.settles = [] := by
  rw [events_singleton h]
  replace hr : kind.verdict (readBreak a.reason a.request) ≠ .refuse := verdict_ne_refuse_iff.2 hr
  unfold endingAt? Break.event? eventOf? at h
  unfold Break.event? eventOf?
  generalize readBreak a.reason a.request = r at h hr ⊢
  rcases r with (event | ending) | payload | reason | v
  · cases kind with
    | advance => exact .inl ⟨event, by cases event <;> rfl, by cases event <;> rfl⟩
    | inspect =>
      cases event with
      | output => simp [Reading.event?, endingOf?] at h
      | report payload => exact .inl ⟨.report payload, rfl, rfl⟩
      | progress => exact .inr ⟨[], rfl, rfl, rfl⟩
  · simp [Reading.event?, endingOf?] at h
  · exact .inr ⟨_, rfl, rfl, rfl⟩
  · exact .inr ⟨_, rfl, rfl, rfl⟩
  · exact absurd rfl hr

/-- A verdict that stops a session is the ending of the break. -/
theorem endingAt?_of_verdict (h : kind.verdict (readBreak a.reason a.request) = .stop e) :
    kind.endingAt? a = some e := by
  cases ha : kind.endingAt? a with
  | some e' =>
    cases h.symm.trans (verdict_of_ending ha)
    rfl
  | none =>
    have hr : a.Readable := verdict_ne_refuse_iff.1 (by rw [h]; nofun)
    rcases verdict_of_not_ending ha hr with ⟨_, hv, -⟩ | ⟨_, hv, -⟩ <;> cases h.symm.trans hv

/-- A break with another verdict does not end the input. -/
theorem endingAt?_eq_none_of_verdict
    (h : ∀ e, kind.verdict (readBreak a.reason a.request) ≠ .stop e) :
    kind.endingAt? a = none :=
  Option.eq_none_iff_forall_ne_some.2 fun e ha => h e (verdict_of_ending ha)

end InputKind

/-! ## Conclusions and endings -/

/-- A violation says something. -/
theorem Violation.isEmpty_description (v : Violation) : v.description.isEmpty = false := by
  cases v with
  | missingRequest | outputInInspect => decide +kernel
  | unexpectedBreak n =>
    change ("unexpected break reason: " ++ Coded.describe BreakReason n).isEmpty = false
    simp
  | unexpectedYield n =>
    change ("unexpected yield reason: " ++ Coded.describe ManualReason n).isEmpty = false
    simp

namespace InputKind

variable (kind : InputKind) (e : Ending)

/-- A loop over a session ends as its conclusion says. -/
theorem outcome_conclusion :
    (kind.conclusion e).outcome = e.failure?.elim (.ok (.drained true)) .error := by
  cases e with
  | accepted | rejected => rfl
  | exception d => rfl
  | violation v =>
    simp only [conclusion, Conclusion.fatal, Ending.failure?, Option.elim, Failure.ofKind,
      EngineError.make, v.isEmpty_description, Bool.false_eq_true, if_false]
    rfl

theorem state_conclusion : (kind.conclusion e).state = e.phase.state := by
  cases e <;> rfl

theorem result?_conclusion : (kind.conclusion e).result? = e.phase.result? := by
  cases e <;> rfl

theorem kept_conclusion : (kind.conclusion e).kept = e.keeps kind := by
  cases e with
  | accepted => cases kind <;> rfl
  | rejected | exception | violation => rfl

end InputKind

end RollupEngine
