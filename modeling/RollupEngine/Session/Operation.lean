import RollupEngine.Session.Drain

/-!
# Operations on a session

`SessionOp` lists what the holder of a session can do with it, and `SessionOp.perform` does it: it
always gives an `Answer`, in which a failure is a value like any other, and the seat as it is
afterwards. So a sequence of operations is a fold, and goes on after a failure.
-/

namespace RollupEngine

/-- What an operation replies. -/
inductive Reply where
  | done
  /-- The machine that a new transaction works on. -/
  | working (machine : Handle)
  /-- A new session, by its number. -/
  | session (number : Nat)
  /-- The next event, if there is one. -/
  | event (event : Option StreamEvent)
  /-- There are no more events. -/
  | stop
  /-- A loop came to its end, or was stopped before. -/
  | drained (exhausted : Bool)
  | collected (result : Collected)
  /-- The engine that was asked. -/
  | itself
  /-- A new engine, by its number. -/
  | engine (number : Nat)
  /-- There is no session with that number. -/
  | noSession
  /-- There is no engine with that number. -/
  | noEngine
  deriving DecidableEq, Repr

/-- What comes of an operation: the events it delivered to a loop, and its reply or failure. -/
structure Answer where
  events : List StreamEvent := []
  outcome : Except Failure Reply
  deriving Repr

namespace Answer

variable {σ : Type}

/-- The failure in an answer. -/
def failure? (a : Answer) : Option Failure :=
  match a.outcome with
  | .error f => some f
  | .ok _ => none

/-- The answer of a loop. -/
def ofDrain (d : Drain) : Answer where
  events := d.events
  outcome := match d.ending with
    | .exhausted => .ok (.drained true)
    | .stopped => .ok (.drained false)
    | .failed f => .error f

/-- Answer with the reply of an operation. -/
def reply (act : Act σ Reply) (s : σ) : Answer × σ :=
  match act s with
  | .ok r s => ({ outcome := .ok r }, s)
  | .error f s => ({ outcome := .error f }, s)

/-- Answer with what a loop comes to. -/
def drain (act : Act σ Drain) (s : σ) : Answer × σ :=
  match act s with
  | .ok d s => (ofDrain d, s)
  | .error f s => ({ outcome := .error f }, s)

end Answer

/-- What can be done with a session. -/
inductive SessionOp where
  /-- Ask for the next event. -/
  | pull
  /-- Ask for the next event as an iterator does. -/
  | next
  /-- Loop over the events, up to a number if one is given. -/
  | take (limit : Option Nat)
  /-- Loop over the events inside a scope, and perhaps raise an error there. -/
  | scope (limit : Option Nat) (raising : Option Error)
  | close
  /-- Let go of the session. -/
  | drop
  /-- Run the session to its end and gather a result of a kind. -/
  | collect (kind : InputKind)
  deriving Repr

namespace SessionOp

variable {W : Type}

/-- Do an operation. -/
def perform (b : Backend W) : SessionOp → Seat W → Answer × Seat W
  | .pull => Answer.reply do return .event (← Seat.pull b)
  | .next => Answer.reply do
    match ← Seat.pull b with
    | some event => return .event (some event)
    | none => return .stop
  | .take limit => Answer.drain (Seat.take b limit)
  | .scope limit raising => Answer.drain (Seat.scope b limit raising)
  | .close => Answer.reply do
    Seat.close b
    return .done
  | .drop => Answer.reply do
    Seat.abandon b
    return .done
  | .collect kind => Answer.reply do return .collected (← Seat.collect b kind)

/-- Whether the session is held on to afterwards. -/
def keeps : SessionOp → Bool
  | .drop => false
  | _ => true

end SessionOp

end RollupEngine
