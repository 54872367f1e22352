import RollupEngine.Session.Basic

/-!
# Pulling a session

`Seat.pull` runs the machine up to the next event that is delivered. The first pull opens the
transaction and sends the input. Each further run of the machine is one `turn`: the break is read
as an event, and the event is delivered, ignored, or ends the session. The session enters its last
phase before the transaction is closed, so it is over even when closing fails.

An ordinary failure of the machine ends the session as well: the transaction is rolled back and
the failure is raised as the cause of a fatal error. An interrupt changes nothing about the
session; it stays running, and can be pulled again or closed. The same is true of a break that
cannot be read because its code is too long to be written (`Reading.unwritable`): that failure is
not the machine's, and nobody handles it.
-/

namespace RollupEngine.Seat

variable {W α : Type}

/-- End the session in a phase and close its transaction. -/
def finish (b : Backend W) (phase : Phase) (commits : Bool) : Act (Seat W) Unit := do
  enter phase
  Act.rescue (onDesk (if commits then Desk.commit b else Desk.rollback b)) fun f =>
    match f.error with
    | .engine _ => throw f
    | e => throw (.fatalFrom "failed to close transaction: " (Failure.source "machine") e)

/-- End the session because the machine failed. -/
def failMachine (b : Backend W) (f : Failure) : Act (Seat W) α := do
  let kind := (← get).session.kind
  note (.machineFailed kind)
  Act.rescue (finish b .fatal false) fun _ => note (.rollbackFailed kind)
  throw (.fatalFrom "machine error: " (Failure.source "machine") f.error)

/-- End the session because of what the guest threw. -/
def failGuest (b : Backend W) (description : String) : Act (Seat W) α := do
  let kind := (← get).session.kind
  finish b .fatal false
  note (.guestException kind description)
  throw (.ofKind .fatal (some description) (Failure.source "guest"))

/-- End the session because the protocol was violated. -/
def failProtocol (b : Backend W) (v : Violation) : Act (Seat W) α := do
  let kind := (← get).session.kind
  finish b .fatal false
  note (.violation kind v.description)
  throw (.ofKind .fatal (some v.description) (Failure.source "protocol"))

/-- Open the transaction and send the input; the result is the machine that works on it. -/
def start (b : Backend W) : Act (Seat W) Handle := do
  let session := (← get).session
  let working ← onDesk (Desk.begin b session.isolation)
  enter (.running working)
  note (.started session.kind session.payload.length)
  Act.rescue (onSite (b.callSend working session.kind.reason session.payload)) (failMachine b)
  pure working

/-- What one run of the machine comes to. -/
inductive Turn where
  | delivered (event : StreamEvent)
  | ignored
  | over
  deriving DecidableEq, Repr

/-- Run the machine once and read its break. -/
def readTurn (b : Backend W) (working : Handle) : Act (Site W) Reading := do
  let reason ← b.callRun working
  if isYield reason then
    return readBreak reason (← b.callReceive working)
  else
    return readBreak reason none

/-- Deliver an event, or pass over it: an inspect shows no progress and may emit no output. -/
def deliver (b : Backend W) (event : StreamEvent) : Act (Seat W) Turn := do
  match (← get).session.kind, event with
  | .inspect, .output _ => failProtocol b .outputInInspect
  | .inspect, .progress _ => pure .ignored
  | _, e => pure (.delivered e)

/-- End the session as its ending event says. -/
def conclude (b : Backend W) (ending : Ending) : Act (Seat W) Turn := do
  let kind := (← get).session.kind
  match ending with
  | .accepted result =>
    finish b (.accepted result) kind.commits
    pure .over
  | .rejected =>
    finish b .rejected false
    note (.rejected kind)
    throw (.ofKind .inputRejected)
  | .exception description => failGuest b description
  | .violation v => failProtocol b v

/-- Run the machine once and act on what it breaks with. -/
def turn (b : Backend W) (working : Handle) : Act (Seat W) Turn := do
  match ← Act.rescue (onSite (readTurn b working)) (failMachine b) with
  | .undecodableProgress p =>
    note (.undecodableProgress p)
    pure .ignored
  | .unknownYield reason =>
    note (.unknownYield reason)
    pure .ignored
  | .unwritable _ => throw .unwritable
  | .event (.stream event) => deliver b event
  | .event (.ending ending) => conclude b ending

/-- Run the machine until a turn is not ignored, at most so many times. -/
def turns (b : Backend W) (working : Handle) : Nat → Act (Seat W) (Option StreamEvent)
  | 0 => throw { error := .stalled }
  | n + 1 => do
    match ← turn b working with
    | .delivered event => pure (some event)
    | .ignored => turns b working n
    | .over => pure none

/-- Run the machine until a turn is not ignored. -/
def advance (b : Backend W) (working : Handle) : Act (Seat W) (Option StreamEvent) := do
  turns b working (b.patience working (← get).world)

/-- The next event that is delivered, or `none` once the session is over. -/
def pull (b : Backend W) : Act (Seat W) (Option StreamEvent) := do
  match (← get).session.phase with
  | .start => advance b (← start b)
  | .running working => advance b working
  | _ => pure none

/-- Stop the session early. A session that has not begun, or is over, needs no machine for it. -/
def close (b : Backend W) : Act (Seat W) Unit := do
  let session := (← get).session
  match session.phase with
  | .start => enter .cancelled
  | .running _ =>
    note (.cancelled session.kind)
    finish b .cancelled false
  | _ => pure ()

/-- Stop a session that nobody holds any more. There is nobody to raise a failure to. -/
def abandon (b : Backend W) : Act (Seat W) Unit := do
  match (← get).session.phase with
  | .running _ =>
    match ← Act.attempt (close b) with
    | .error f => if f.ordinary then note .cancelFailed else pure ()
    | .ok _ => pure ()
  | _ => pure ()

end RollupEngine.Seat
