import RollupEngine.Session.Pull

/-!
# Draining a session

A loop over a session pulls it until it ends, fails, or has delivered as many events as wanted.
`Drain` is what such a loop comes to: the events delivered, also those before a failure, and how
it ended. A scope (`Seat.scope`) is a loop after which the session is closed however the loop
ended, and collecting is a scope whose events are gathered into one result.
-/

namespace RollupEngine

/-- How a loop over a session ended. -/
inductive DrainEnd where
  | exhausted
  | stopped
  | failed (failure : Failure)
  deriving Repr

/-- What a loop over a session comes to. -/
structure Drain where
  events : List StreamEvent
  ending : DrainEnd
  deriving Repr

/-- The failure that a loop ended with. -/
def Drain.failure? (d : Drain) : Option Failure :=
  match d.ending with
  | .failed f => some f
  | _ => none

namespace Seat

variable {W : Type}

/-- Pull at most so many times; `spent` is how the loop ends when that is used up. -/
def loop (b : Backend W) (spent : DrainEnd) : Nat → Act (Seat W) Drain
  | 0 => pure ⟨[], spent⟩
  | n + 1 => do
    match ← Act.attempt (pull b) with
    | .error f => pure ⟨[], .failed f⟩
    | .ok none => pure ⟨[], .exhausted⟩
    | .ok (some event) =>
      let rest ← loop b spent n
      pure { rest with events := event :: rest.events }

/-- Pull until the session ends. Every event after the first costs the machine a run, so the host
is willing to wait for as many as it is willing to run the machine. -/
def drain (b : Backend W) : Act (Seat W) Drain := do
  match ← Act.attempt (pull b) with
  | .error f => pure ⟨[], .failed f⟩
  | .ok none => pure ⟨[], .exhausted⟩
  | .ok (some event) =>
    let seat ← get
    let budget := match seat.session.phase with
      | .running working => b.patience working seat.world
      | _ => 0
    let rest ← loop b (.failed { error := .stalled }) budget
    pure { rest with events := event :: rest.events }

/-- Loop over the session, up to a number of events if one is given. -/
def take (b : Backend W) (limit : Option Nat) : Act (Seat W) Drain :=
  match limit with
  | some n => loop b .stopped n
  | none => drain b

/-- Loop over the session, then raise an error if one is given, and close the session in every
case. A failure to close takes the place of an earlier one. -/
def scope (b : Backend W) (limit : Option Nat) (raising : Option Error := none) :
    Act (Seat W) Drain := do
  let d ← take b limit
  let d := match d.ending, raising with
    | .failed _, _ | _, none => d
    | _, some e => { d with ending := .failed { error := e } }
  match ← Act.attempt (close b) with
  | .error f => pure { d with ending := .failed f }
  | .ok _ => pure d

/-- Run the session to its end and gather what it delivered. -/
def collect (b : Backend W) (kind : InputKind) : Act (Seat W) Collected := do
  let d ← scope b none
  match d.ending with
  | .failed f => throw f
  | _ => return .gather kind d.events ((← get).session.phase.result?.getD [])

end Seat

end RollupEngine
