import RollupEngine.Controller
import RollupEngine.Event

/-!
# Sessions

A session is one input on its way through the machine. Before the first pull it has not touched
anything; while it is running it knows the machine it works on; and once over it stays as it
ended. `Phase` holds these stages with what belongs to each, and `SessionState` is a phase as
others see it. `SessionFields`, in `Session/Fields`, keeps the state, the machine and the result
apart; a session does the same on a phase as on its fields (`Seat.pull_mirrors`).
-/

namespace RollupEngine

/-- The state of a session as others see it. -/
inductive SessionState where
  | start | running | accepted | rejected | fatal | cancelled
  deriving DecidableEq, Repr

instance : Labelled SessionState where
  all := [.start, .running, .accepted, .rejected, .fatal, .cancelled]
  label
    | .start => "start"
    | .running => "running"
    | .accepted => "accepted"
    | .rejected => "rejected"
    | .fatal => "fatal"
    | .cancelled => "cancelled"
  mem_all a := by cases a <;> decide
  label_injective a b := by cases a <;> cases b <;> simp

/-- How far a session has come. -/
inductive Phase where
  | start
  | running (working : Handle)
  | accepted (result : Bytes)
  | rejected
  | fatal
  | cancelled
  deriving DecidableEq, Repr

namespace Phase

/-- A phase as others see it. -/
def state : Phase → SessionState
  | start => .start
  | running _ => .running
  | accepted _ => .accepted
  | rejected => .rejected
  | fatal => .fatal
  | cancelled => .cancelled

/-- Whether a session is over. -/
def done : Phase → Bool
  | start | running _ => false
  | _ => true

/-- The machine that a running session works on. -/
def working? : Phase → Option Handle
  | running w => some w
  | _ => none

/-- What the guest accepted with. -/
def result? : Phase → Option Bytes
  | accepted r => some r
  | _ => none

end Phase

/-- The reason with which an input is sent. -/
def InputKind.reason : InputKind → RequestReason
  | .advance => .advance
  | .inspect => .inspect

/-- Whether what an accepted input did is kept. -/
def InputKind.commits : InputKind → Bool
  | .advance => true
  | .inspect => false

/-- An input and how far it has come. -/
structure Session where
  kind : InputKind
  payload : Bytes
  isolation : Isolation := .isolated
  phase : Phase := .start
  deriving DecidableEq, Repr

/-- A desk with the session that is worked on there. -/
structure Seat (W : Type) extends Desk W where
  session : Session

namespace Seat

variable {W α : Type}

/-- An operation of the controller. -/
def onDesk (act : Act (Desk W) α) : Act (Seat W) α :=
  Act.focus toDesk (fun d s => { s with toDesk := d }) act

/-- An operation on the site. -/
def onSite (act : Act (Site W) α) : Act (Seat W) α :=
  onDesk (Desk.onSite act)

/-- Tell the log. -/
def note (n : Notice) : Act (Seat W) Unit :=
  onSite (Site.note n)

/-- Enter a phase. -/
def enter (p : Phase) : Act (Seat W) Unit := fun s =>
  .ok () { s with session := { s.session with phase := p } }

theorem run_onDesk (act : Act (Desk W) α) (s : Seat W) :
    (onDesk act).run s = Act.mapState ({ s with toDesk := · }) (act.run s.toDesk) := rfl

theorem run_onSite (act : Act (Site W) α) (s : Seat W) :
    (onSite act).run s = Act.mapState ({ s with toSite := · }) (act.run s.toSite) := by
  rw [onSite, run_onDesk, Desk.run_onSite]
  cases act.run s.toSite <;> rfl

theorem run_note (n : Notice) (s : Seat W) :
    (note n).run s = .ok () { s with notices := s.notices ++ [n] } := rfl

theorem run_enter (p : Phase) (s : Seat W) :
    (enter p).run s = .ok () { s with session := { s.session with phase := p } } := rfl

end Seat

end RollupEngine
