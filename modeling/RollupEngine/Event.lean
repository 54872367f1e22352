import RollupEngine.Code
import RollupEngine.Failure
import RollupEngine.Text.ByteLiteral
import RollupEngine.Text.Utf8

/-!
# Events

Every time the machine comes back to the host, the host reads the break as one event of the
protocol. `readBreak` is that reading. Automatic yields carry outputs, reports and progress; every
other break ends the run: a manual yield accepts, rejects or reports an exception, and whatever
else happens violates the protocol. An automatic yield may also carry nothing for the host, either
because its reason is unknown or because its progress payload is too short; `Reading` keeps the
two apart, for they are noticed differently, and `eventOf?` forgets the difference.

A violation names the code that it is about. If that code is too long to be written, there is no
event: the reading is `unwritable`, and to interpret the break fails.
-/

namespace RollupEngine

/-- What breaks the protocol. -/
inductive Violation where
  | unexpectedBreak (reason : Int)
  | missingRequest
  | unexpectedYield (reason : Int)
  | outputInInspect
  deriving DecidableEq, Repr

namespace Violation

/-- Whether the code that a violation names can be written. -/
def writable : Violation → Bool
  | .unexpectedBreak n => (Coded.describe? BreakReason n).isSome
  | .unexpectedYield n => (Coded.describe? ManualReason n).isSome
  | .missingRequest | .outputInInspect => true

/-- The text of a violation. -/
def description : Violation → String
  | .unexpectedBreak n => "unexpected break reason: " ++ Coded.describe BreakReason n
  | .missingRequest => "yield without a pending request"
  | .unexpectedYield n => "unexpected yield reason: " ++ Coded.describe ManualReason n
  | .outputInInspect => "inspect emitted an output"

end Violation

/-- What a session delivers while it runs. -/
inductive StreamEvent where
  | output (payload : Bytes)
  | report (payload : Bytes)
  | progress (value : Nat)
  deriving DecidableEq, Repr

/-- What a session ends with. -/
inductive Ending where
  | accepted (payload : Bytes)
  | rejected
  | exception (description : String)
  | violation (violation : Violation)
  deriving DecidableEq, Repr

/-- An event of the protocol. -/
inductive Event where
  | stream (event : StreamEvent)
  | ending (ending : Ending)
  deriving DecidableEq, Repr

/-- A break as the host reads it. -/
inductive Reading where
  | event (event : Event)
  | undecodableProgress (payload : Bytes)
  | unknownYield (reason : Int)
  | unwritable (violation : Violation)
  deriving DecidableEq, Repr

namespace Reading

/-- The event of a break that has one. -/
def event? : Reading → Option Event
  | .event e => some e
  | _ => none

/-- What a reading comes to: an event, nothing, or the failure to write a code. -/
def outcome : Reading → Except Failure (Option Event)
  | .unwritable _ => .error .unwritable
  | r => .ok r.event?

/-- The reading of a break that ends the run. A violation has to be put into words for it. -/
def ofEnding : Ending → Reading
  | .violation v => if v.writable then .event (.ending (.violation v)) else .unwritable v
  | e => .event (.ending e)

theorem eq_of_ofEnding {e e' : Ending} (h : ofEnding e = .event (.ending e')) : e = e' := by
  cases e with
  | accepted | rejected | exception => exact Event.ending.inj (Reading.event.inj h)
  | violation v =>
    rw [ofEnding] at h
    split at h
    · exact Event.ending.inj (Reading.event.inj h)
    · cases h

end Reading

/-- The break reason of a yield that waits for an answer. -/
def manualBreak : Int := Coded.code BreakReason.yieldedManually

/-- The break reason of a yield that goes on by itself. -/
def automaticBreak : Int := Coded.code BreakReason.yieldedAutomatically

/-- Whether a break is a yield, so that the machine holds a request. -/
def isYield (reason : Int) : Bool :=
  reason = manualBreak || reason = automaticBreak

theorem isYield_iff (reason : Int) : isYield reason = true ↔ reason = 2 ∨ reason = 3 := by
  rw [isYield, Bool.or_eq_true, decide_eq_true_iff, decide_eq_true_iff]
  rfl

/-- How a guest ends its run with a manual yield. -/
def readManual (request : YieldRequest) : Ending :=
  match Coded.ofCode? ManualReason request.reason with
  | some .accepted => .accepted request.payload
  | some .rejected => .rejected
  | some .exception => .exception (Utf8.decode request.payload)
  | none => .violation (.unexpectedYield request.reason)

/-- What an automatic yield carries. -/
def readAutomatic (request : YieldRequest) : Reading :=
  match Coded.ofCode? AutomaticReason request.reason with
  | some .progress =>
    match Bytes.word32? request.payload with
    | some value => .event (.stream (.progress value))
    | none => .undecodableProgress request.payload
  | some .output => .event (.stream (.output request.payload))
  | some .report => .event (.stream (.report request.payload))
  | none => .unknownYield request.reason

/-- Read a break of the machine, with the request it holds. -/
def readBreak (reason : Int) (request : Option YieldRequest) : Reading :=
  if isYield reason then
    match request with
    | none => .ofEnding (.violation .missingRequest)
    | some r => if reason = manualBreak then .ofEnding (readManual r) else readAutomatic r
  else .ofEnding (.violation (.unexpectedBreak reason))

/-- The event of a break, or `none` when it carries none. -/
def eventOf? (reason : Int) (request : Option YieldRequest) : Option Event :=
  (readBreak reason request).event?

/-- Interpret a break: its event if it carries one. This fails if the break violates the protocol by
a code that cannot be written. -/
def interpret (reason : Int) (request : Option YieldRequest) : Except Failure (Option Event) :=
  (readBreak reason request).outcome

/-! ## Results of whole runs -/

namespace StreamEvent

/-- The payload of an output. -/
def output? : StreamEvent → Option Bytes
  | .output p => some p
  | _ => none

/-- The payload of a report. -/
def report? : StreamEvent → Option Bytes
  | .report p => some p
  | _ => none

end StreamEvent

/-- What a whole run produced, in order of delivery. The root is what an advance was accepted
with. -/
inductive Collected where
  | advance (outputs reports : List Bytes) (root : Bytes)
  | inspect (reports : List Bytes)
  deriving DecidableEq, Repr

/-- Gather the events of a run. -/
def Collected.gather (kind : InputKind) (events : List StreamEvent) (root : Bytes) : Collected :=
  match kind with
  | .advance =>
    .advance (events.filterMap StreamEvent.output?) (events.filterMap StreamEvent.report?) root
  | .inspect => .inspect (events.filterMap StreamEvent.report?)

end RollupEngine
