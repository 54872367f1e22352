import RollupEngine.Session.Pull

/-!
# Sessions in three fields

A session that is kept in variables has three of them: its state, the machine that it works on, and
its result. `Phase` joins the three, so that a session runs if and only if it has a machine, and is
accepted if and only if it has a result. `SessionFields` keeps them apart. Then a session that runs
has to look for its machine (`FieldSeat.hear`), and one that is accepted has its result a little
earlier than its state (`FieldSeat.act`).

`FieldSeat.pull`, `FieldSeat.close` and `FieldSeat.abandon` are the operations of a session on these
fields.
-/

namespace RollupEngine

/-- How far a session has come, the machine that it works on, and what the guest accepted with. -/
structure SessionFields where
  state : SessionState := .start
  working : Option Handle := none
  result : Option Bytes := none
  deriving DecidableEq, Repr

/-- The fields of a phase. -/
def Phase.fields (p : Phase) : SessionFields where
  state := p.state
  working := p.working?
  result := p.result?

/-- A desk with the session that is worked on there, in its fields. -/
structure FieldSeat (W : Type) extends Desk W where
  kind : InputKind
  payload : Bytes
  isolation : Isolation := .isolated
  fields : SessionFields := {}

namespace FieldSeat

variable {W α : Type}

/-- An operation of the controller. -/
def onDesk (act : Act (Desk W) α) : Act (FieldSeat W) α :=
  Act.focus toDesk (fun d s => { s with toDesk := d }) act

/-- An operation on the site. -/
def onSite (act : Act (Site W) α) : Act (FieldSeat W) α :=
  onDesk (Desk.onSite act)

/-- Tell the log. -/
def note (n : Notice) : Act (FieldSeat W) Unit :=
  onSite (Site.note n)

/-- Change the fields. -/
def update (f : SessionFields → SessionFields) : Act (FieldSeat W) Unit := fun s =>
  .ok () { s with fields := f s.fields }

/-- End the session in a state and close its transaction. -/
def finish (b : Backend W) (state : SessionState) (commits : Bool) : Act (FieldSeat W) Unit := do
  update ({ · with state })
  update ({ · with working := none })
  Act.rescue (onDesk (if commits then Desk.commit b else Desk.rollback b)) fun f =>
    match f.error with
    | .engine _ => throw f
    | e => throw (.fatalFrom "failed to close transaction: " (Failure.source "machine") e)

/-- End the session because the machine failed. -/
def failMachine (b : Backend W) (f : Failure) : Act (FieldSeat W) α := do
  let kind := (← get).kind
  note (.machineFailed kind)
  Act.rescue (finish b .fatal false) fun _ => note (.rollbackFailed kind)
  throw (.fatalFrom "machine error: " (Failure.source "machine") f.error)

/-- End the session because of what the guest did, and say who is to blame. -/
def fail (b : Backend W) (notice : InputKind → Notice) (message source : String) :
    Act (FieldSeat W) α := do
  let kind := (← get).kind
  finish b .fatal false
  note (notice kind)
  throw (.ofKind .fatal (some message) (Failure.source source))

/-- End the session because the protocol was violated. -/
def failProtocol (b : Backend W) (v : Violation) : Act (FieldSeat W) α :=
  fail b (.violation · v.description) v.description "protocol"

/-- Open the transaction and send the input. -/
def start (b : Backend W) : Act (FieldSeat W) Unit := do
  let s ← get
  let working ← onDesk (Desk.begin b s.isolation)
  update ({ · with working := some working })
  update ({ · with state := .running })
  note (.started s.kind s.payload.length)
  Act.rescue (onSite (b.callSend working s.kind.reason s.payload)) (failMachine b)

/-- Run the machine once and read its break. There has to be a machine. -/
def hear (b : Backend W) : Act (FieldSeat W) Reading := do
  match (← get).fields.working with
  | none => throw (.ofKind .transaction (some "session has no working machine"))
  | some working => Act.rescue (onSite (Seat.readTurn b working)) (failMachine b)

/-- Act on a break: deliver its event, pass over it, or end the session. -/
def act (b : Backend W) : Reading → Act (FieldSeat W) (Option StreamEvent)
  | .undecodableProgress p => do
    note (.undecodableProgress p)
    return none
  | .unknownYield reason => do
    note (.unknownYield reason)
    return none
  | .unwritable _ => throw .unwritable
  | .event (.stream event) => do
    match (← get).kind, event with
    | .inspect, .output _ => failProtocol b .outputInInspect
    | .inspect, .progress _ => return none
    | _, e => return some e
  | .event (.ending (.accepted result)) => do
    update ({ · with result := some result })
    finish b .accepted (← get).kind.commits
    return none
  | .event (.ending .rejected) => do
    let kind := (← get).kind
    finish b .rejected false
    note (.rejected kind)
    throw (.ofKind .inputRejected)
  | .event (.ending (.exception d)) => fail b (.guestException · d) d "guest"
  | .event (.ending (.violation v)) => failProtocol b v

/-- Run the machine as long as the session runs and delivers nothing, at most so many times. -/
def loop (b : Backend W) : Nat → Act (FieldSeat W) (Option StreamEvent)
  | 0 => do
    if (← get).fields.state = .running then throw { error := .stalled } else return none
  | n + 1 => do
    if (← get).fields.state = .running then
      match ← act b (← hear b) with
      | some event => return some event
      | none => loop b n
    else return none

/-- How often the host is willing to run the machine. -/
def patience (b : Backend W) (s : FieldSeat W) : Nat :=
  (s.fields.working.map fun working => b.patience working s.world).getD 0

/-- The next event that is delivered, or `none` once the session is over. -/
def pull (b : Backend W) : Act (FieldSeat W) (Option StreamEvent) := do
  if (← get).fields.state = .start then start b
  loop b ((← get).patience b)

/-- Stop the session early. -/
def close (b : Backend W) : Act (FieldSeat W) Unit := do
  let s ← get
  if s.fields.state = .start then update ({ · with state := .cancelled })
  else if s.fields.state = .running then
    note (.cancelled s.kind)
    finish b .cancelled false

/-- Stop a session that nobody holds any more. -/
def abandon (b : Backend W) : Act (FieldSeat W) Unit := do
  if (← get).fields.state = .running then
    match ← Act.attempt (close b) with
    | .error f => if f.ordinary then note .cancelFailed
    | .ok _ => pure ()

end FieldSeat

end RollupEngine
