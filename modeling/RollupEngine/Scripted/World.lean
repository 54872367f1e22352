import RollupEngine.Machine
import RollupEngine.Scripted.Program

/-!
# A world of scripted machines

The machines of a `World` are numbered in the order of their making. Every request that is sent
starts the next program of a list, the last one over and over, or the ledger guest if there are no
programs. Faults make certain calls fail, counted over all machines; a call that is not made to
fail fails all the same if its machine is not alive. `backend` is the world as the engine sees it.
Since a run either uses up an action or halts, the host need not be more patient than the number
of actions left, and one.
-/

namespace RollupEngine.Scripted

/-- A scripted machine. -/
structure Machine where
  ledger : Ledger := []
  alive : Bool := true
  actions : List Action := []
  pending : Pending := .absent
  deriving Repr

/-- The calls that a machine knows. -/
inductive Method where
  | fork | send | run | receive | shutdown | store | load
  deriving DecidableEq, Repr

/-- A call that is made to fail. -/
structure Fault where
  method : Method
  /-- Which call of the method fails, counted from one; zero stands for every call. -/
  nth : Nat
  error : Error
  deriving Repr

/-- The machines and what they share. -/
structure World where
  machines : List Machine := []
  programs : List Program := []
  faults : List Fault := []
  /-- The methods called so far. -/
  made : List Method := []
  /-- The requests sent so far. -/
  sends : Nat := 0
  snapshots : List (String × Ledger) := []
  deriving Repr

/-- An error of the machine itself. -/
def machineError (message : String) : Error :=
  .fault "runtime" message

namespace Machine

/-- Do actions up to the next break. -/
def perform (m : Machine) : List Action → Except Error Int × Machine
  | [] => (.ok haltedBreak, { m with actions := [], pending := .absent })
  | .append entry :: rest => { m with ledger := m.ledger ++ [entry] }.perform rest
  | .die :: rest => { m with alive := false }.perform rest
  | .raise e :: rest => (.error e, { m with actions := rest })
  | .breakWith reason pending :: rest => (.ok reason, { m with actions := rest, pending })

/-- What a machine answers when asked for its request. -/
def answer (m : Machine) : Except Error (Option YieldRequest) :=
  match m.pending with
  | .absent => .error (machineError "no pending yield request")
  | .empty => .ok none
  | .request r => .ok (some r)
  | .raises e => .error e

end Machine

namespace World

variable {α : Type}

/-- A world with one machine. -/
def ofLedger (ledger : Ledger) (programs : List Program) (faults : List Fault) : World where
  machines := [{ ledger }]
  programs := programs
  faults := faults

/-- Put a machine in the place of one with the same handle. -/
def setMachine (w : World) (h : Handle) (m : Machine) : World :=
  { w with machines := w.machines.set h m }

/-- Add a machine; its handle comes with it. -/
def addMachine (w : World) (m : Machine) : Except Error Handle × World :=
  (.ok w.machines.length, { w with machines := w.machines ++ [m] })

/-- Count a call. -/
def count (w : World) (method : Method) : World :=
  { w with made := method :: w.made }

/-- The error that the last call of a method is made to fail with. -/
def fault? (w : World) (method : Method) : Option Error :=
  (w.faults.find? fun f =>
    f.method = method && (f.nth = 0 || f.nth = w.made.count method)).map (·.error)

/-- Count a call, and go on with it unless it is made to fail. -/
def enter (w : World) (method : Method) (body : World → Except Error α × World) :
    Except Error α × World :=
  let w := w.count method
  match w.fault? method with
  | some e => (.error e, w)
  | none => body w

/-- Call a machine, which must be alive. -/
def call (w : World) (method : Method) (h : Handle)
    (body : Machine → World → Except Error α × World) : Except Error α × World :=
  w.enter method fun w =>
    match w.machines[h]? with
    | some m => if m.alive then body m w else (.error (machineError "machine is shut down"), w)
    | none => (.error (machineError "machine is shut down"), w)

/-- The program that answers the next request. -/
def nextProgram (w : World) : Program :=
  (w.programs[min w.sends (w.programs.length - 1)]?).getD .ledger

/-- The ledger saved under a path. -/
def snapshot? (w : World) (path : String) : Option Ledger :=
  (w.snapshots.find? fun s => s.1 = path).map (·.2)

/-- Save a ledger under a path, in the place of an older one. -/
def save (w : World) (path : String) (ledger : Ledger) : World :=
  { w with snapshots := (path, ledger) :: w.snapshots }

/-- The ledger of a machine. -/
def ledgerOf (w : World) (h : Handle) : Ledger :=
  (w.machines[h]?.map (·.ledger)).getD []

/-- The machines that are alive, in the order of their making. -/
def aliveHandles (w : World) : List Handle :=
  (List.range w.machines.length).filter fun h => w.machines[h]?.any (·.alive)

/-- The actions that a machine has left. -/
def actionsLeft (w : World) (h : Handle) : Nat :=
  (w.machines[h]?.map (·.actions.length)).getD 0

/-! ## Changes from outside -/

/-- Append to the ledger of a machine. -/
def poke (w : World) (h : Handle) (entry : Bytes) : World :=
  { w with machines := w.machines.modify h fun m => { m with ledger := m.ledger ++ [entry] } }

/-- Let a machine die. -/
def kill (w : World) (h : Handle) : World :=
  { w with machines := w.machines.modify h fun m => { m with alive := false } }

end World

/-- Scripted machines, as the engine sees them. -/
def backend : Backend World where
  fork h w := w.call .fork h fun m w => w.addMachine { ledger := m.ledger }
  send h reason payload w := w.call .send h fun m w =>
    let actions := w.nextProgram.actions m.ledger reason payload
    (.ok (), { w.setMachine h { m with actions, pending := .absent } with sends := w.sends + 1 })
  run h w := w.call .run h fun m w =>
    let (reply, m) := m.perform m.actions
    (reply, w.setMachine h m)
  receive h w := w.call .receive h fun m w => (m.answer, w)
  shutdown h w := w.call .shutdown h fun m w => (.ok (), w.setMachine h { m with alive := false })
  store h path w := w.call .store h fun m w => (.ok (), w.save path m.ledger)
  load origin w := w.enter .load fun w =>
    match w.snapshot? origin.path with
    | some ledger => w.addMachine { ledger }
    | none => (.error (machineError ("no snapshot: " ++ origin.path)), w)
  patience h w := w.actionsLeft h + 1

end RollupEngine.Scripted
