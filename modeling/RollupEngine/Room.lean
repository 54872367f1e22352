import RollupEngine.Session.Operation

/-!
# Sessions on one controller

A `Room` is a desk with all the sessions that were made there, numbered in the order of their
making; the place of a session that was let go stays empty. `RoomOp` is what can be done with a
controller and its sessions directly, without an engine in between.
-/

namespace RollupEngine

/-- A desk with the sessions made there. -/
structure Room (W : Type) extends Desk W where
  sessions : List (Option Session) := []

namespace Room

variable {W α : Type}

/-- An operation of the controller. -/
def onDesk (act : Act (Desk W) α) : Act (Room W) α :=
  Act.focus toDesk (fun d r => { r with toDesk := d }) act

/-- The session with a number, unless it was let go. -/
def session? (r : Room W) (number : Nat) : Option Session :=
  r.sessions[number]?.join

/-- Make room for a session; the reply is its number. -/
def addSession (session : Session) : Act (Room W) Reply := fun r =>
  .ok (.session r.sessions.length) { r with sessions := r.sessions ++ [some session] }

/-- Do an operation on a session of the room. -/
def onSession (b : Backend W) (number : Nat) (op : SessionOp) (r : Room W) : Answer × Room W :=
  match r.session? number with
  | none => ({ outcome := .ok .noSession }, r)
  | some session =>
    let (answer, seat) := op.perform b { toDesk := r.toDesk, session }
    let place := if op.keeps then some seat.session else none
    (answer, { toDesk := seat.toDesk, sessions := r.sessions.set number place })

end Room

/-- What can be done with a controller and its sessions. -/
inductive RoomOp where
  | begin (mode : Isolation)
  | commit
  | rollback
  | store (path : String)
  | shutdown
  | makeSession (kind : InputKind) (isolation : Isolation) (payload : Bytes)
  | session (number : Nat) (op : SessionOp)
  deriving Repr

namespace RoomOp

variable {W : Type}

/-- Do an operation. -/
def perform (b : Backend W) : RoomOp → Room W → Answer × Room W
  | .begin mode => Answer.reply do return .working (← Room.onDesk (Desk.begin b mode))
  | .commit => Answer.reply do
    Room.onDesk (Desk.commit b)
    return .done
  | .rollback => Answer.reply do
    Room.onDesk (Desk.rollback b)
    return .done
  | .store path => Answer.reply do
    Room.onDesk (Desk.store b path)
    return .done
  | .shutdown => Answer.reply do
    Room.onDesk (Desk.shutdown b)
    return .done
  | .makeSession kind isolation payload =>
    Answer.reply (Room.addSession { kind, payload, isolation })
  | .session number op => Room.onSession b number op

/-- The room after a sequence of operations, failures or not. -/
def run (b : Backend W) (ops : List RoomOp) (r : Room W) : Room W :=
  ops.foldl (fun r op => (op.perform b r).2) r

end RoomOp

end RollupEngine
