import RollupEngine.Machine

/-!
# Transactions

A `Controller` owns the canonical machine and at most one open transaction on it. An isolated
transaction works on a fork and keeps the canonical machine as its backup: `commit` makes the fork
canonical and releases the backup, `rollback` releases the fork. A direct transaction works on the
canonical machine itself, and both only close it.

A commit stands once the canonical handle has changed, so a failing release of the backup is
counted and noticed, but is no failure of the commit. A failing release of the fork is counted and
is the failure of the rollback. Either way the transaction is closed before any machine is called.
-/

namespace RollupEngine

/-- An open transaction. -/
inductive Transaction where
  | isolated (working backup : Handle)
  | direct (working : Handle)
  deriving DecidableEq, Repr

namespace Transaction

/-- The machine that a transaction works on. -/
def working : Transaction → Handle
  | isolated w _ | direct w => w

/-- The machine that a transaction can go back to. -/
def backup? : Transaction → Option Handle
  | isolated _ b => some b
  | direct _ => none

/-- The mode that a transaction was opened in. -/
def mode : Transaction → Isolation
  | isolated .. => .isolated
  | direct _ => .direct

end Transaction

/-- The owner of the canonical machine. -/
structure Controller where
  canonical : Handle
  transaction : Option Transaction := none
  closed : Bool := false
  /-- Forks made so far. -/
  created : Nat := 0
  /-- Forks that are scratch no longer: promoted, or released. -/
  released : Nat := 0
  /-- Machines whose release failed. -/
  leaked : Nat := 0
  deriving DecidableEq, Repr

namespace Controller

/-- Whether a transaction is open. -/
def inTransaction (c : Controller) : Bool :=
  c.transaction.isSome

/-- Forks that are neither promoted nor released. -/
def outstanding (c : Controller) : Int :=
  c.created - c.released

end Controller

/-- A site with the controller that works there. -/
structure Desk (W : Type) extends Site W where
  controller : Controller

namespace Desk

variable {W α : Type}

/-- An operation on the site. -/
def onSite (act : Act (Site W) α) : Act (Desk W) α :=
  Act.focus toSite (fun s d => { d with toSite := s }) act

/-- Change the controller. -/
def update (f : Controller → Controller) : Act (Desk W) Unit := fun d =>
  .ok () { d with controller := f d.controller }

/-- Tell the log. -/
def note (n : Notice) : Act (Desk W) Unit :=
  onSite (Site.note n)

theorem run_onSite (act : Act (Site W) α) (d : Desk W) :
    (onSite act).run d = Act.mapState ({ d with toSite := · }) (act.run d.toSite) := rfl

theorem run_update (f : Controller → Controller) (d : Desk W) :
    (update f).run d = .ok () { d with controller := f d.controller } := rfl

theorem run_note (n : Notice) (d : Desk W) :
    (note n).run d = .ok () { d with notices := d.notices ++ [n] } := rfl

/-- Refuse to go on unless the controller is open and without a transaction. -/
def ensureIdle : Act (Desk W) Unit := do
  let c := (← get).controller
  if c.closed then throw (.ofKind .closed)
  else if c.inTransaction then throw (.ofKind .busy)
  else pure ()

/-- Close the open transaction and hand it over. -/
def takeTransaction : Act (Desk W) Transaction := do
  match (← get).controller.transaction with
  | none => throw (.ofKind .transaction)
  | some t =>
    update ({ · with transaction := none })
    pure t

/-- Fork the canonical machine, for a transaction to work on. -/
def forkCanonical (b : Backend W) : Act (Desk W) Handle := do
  let canonical := (← get).controller.canonical
  Act.rescue (onSite (b.callFork canonical)) fun f => do
    note .forkFailed
    throw (.fatalFrom "fork failed: " [] f.error)

/-- Open a transaction; the result is the machine it works on. -/
def begin (b : Backend W) (mode : Isolation) : Act (Desk W) Handle := do
  ensureIdle
  let canonical := (← get).controller.canonical
  match mode with
  | .direct =>
    update ({ · with transaction := some (.direct canonical) })
    note (.began .direct)
    pure canonical
  | .isolated =>
    let working ← forkCanonical b
    update fun c =>
      { c with created := c.created + 1, transaction := some (.isolated working canonical) }
    note (.began .isolated)
    pure working

/-- Close the open transaction and keep what it did. -/
def commit (b : Backend W) : Act (Desk W) Unit := do
  match ← takeTransaction with
  | .direct _ => note (.committed .direct)
  | .isolated working backup =>
    update fun c => { c with canonical := working, released := c.released + 1 }
    note (.committed .isolated)
    Act.rescue (onSite (b.callShutdown backup)) fun _ => do
      update fun c => { c with leaked := c.leaked + 1 }
      note .releaseFailed

/-- Close the open transaction and discard what it did, as far as its mode allows. -/
def rollback (b : Backend W) : Act (Desk W) Unit := do
  match ← takeTransaction with
  | .direct _ => note (.rolledBack .direct)
  | .isolated working _ =>
    note (.rolledBack .isolated)
    Act.rescue (onSite (b.callShutdown working)) fun f => do
      update fun c => { c with leaked := c.leaked + 1 }
      throw f
    update fun c => { c with released := c.released + 1 }

/-- Save the canonical machine. -/
def store (b : Backend W) (path : String) : Act (Desk W) Unit := do
  ensureIdle
  onSite (b.callStore (← get).controller.canonical path)
  note (.stored path)

/-- Release the canonical machine and accept no more work. Doing so again has no effect. -/
def shutdown (b : Backend W) : Act (Desk W) Unit := do
  let c := (← get).controller
  if c.closed then pure ()
  else if c.inTransaction then
    throw (.ofKind .busy (some "cannot shut down while a session is open"))
  else
    update ({ · with closed := true })
    onSite (b.callShutdown c.canonical)
    note .shutDown

end Desk

end RollupEngine
