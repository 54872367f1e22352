import RollupEngine.Act
import RollupEngine.Code
import RollupEngine.Notice

/-!
# Machines

The engine knows machines by their handles and reaches them through a `Backend`, which says what
each call returns or raises and what it does to the world the machines live in. Nothing is assumed
of a backend, so what holds of the engine holds of every machine. One field is not a call:
`patience` is how often the host is willing to run a machine, from a given world on, before it
gives up on it; it makes every operation end.

A `Site` is the world with the record of all that the engine did to it: the calls with their
outcomes (`Exchange`), and the notices, both in order.
-/

namespace RollupEngine

/-- A machine, as the engine knows it. -/
abbrev Handle := Nat

/-- Where a stored machine is loaded from, and with what settings. -/
structure Origin where
  path : String
  address : String
  timeout : Int
  settings : Option Mapping
  deriving Repr

/-- What machines do when they are called. -/
structure Backend (W : Type) where
  /-- A new machine with the content of this one. -/
  fork : Handle → W → Except Error Handle × W
  /-- Answer the yield that the machine waits at with a request of the host. -/
  send : Handle → RequestReason → Bytes → W → Except Error Unit × W
  /-- Run the machine until it breaks, and tell why. -/
  run : Handle → W → Except Error Int × W
  /-- The request that the machine yielded with. -/
  receive : Handle → W → Except Error (Option YieldRequest) × W
  /-- Release the machine. -/
  shutdown : Handle → W → Except Error Unit × W
  /-- Save the content of the machine. -/
  store : Handle → String → W → Except Error Unit × W
  /-- A new machine with a saved content. -/
  load : Origin → W → Except Error Handle × W
  /-- How often the host is willing to run the machine. -/
  patience : Handle → W → Nat

/-- A call that was made, and its outcome. -/
inductive Exchange where
  | fork (machine : Handle) (reply : Except Error Handle)
  | send (machine : Handle) (reason : RequestReason) (payload : Bytes) (reply : Except Error Unit)
  | run (machine : Handle) (reply : Except Error Int)
  | receive (machine : Handle) (reply : Except Error (Option YieldRequest))
  | shutdown (machine : Handle) (reply : Except Error Unit)
  | store (machine : Handle) (path : String) (reply : Except Error Unit)
  | load (origin : Origin) (reply : Except Error Handle)
  deriving Repr

namespace Exchange

/-- The machine that was called; loading calls none. -/
def machine? : Exchange → Option Handle
  | fork m _ | send m _ _ _ | run m _ | receive m _ | shutdown m _ | store m _ _ => some m
  | load .. => none

/-- The error that a call raised. -/
def error? : Exchange → Option Error
  | fork _ (.error e) | send _ _ _ (.error e) | run _ (.error e) | receive _ (.error e)
  | shutdown _ (.error e) | store _ _ (.error e) | load _ (.error e) => some e
  | _ => none

/-- The handle that a call brought into being. -/
def created? : Exchange → Option Handle
  | fork _ (.ok m) | load _ (.ok m) => some m
  | _ => none

end Exchange

/-- The world of the machines, and the record of what was done to it. -/
structure Site (W : Type) where
  world : W
  calls : List Exchange := []
  notices : List Notice := []

namespace Site

variable {W : Type} {α : Type}

/-- The site after a call. -/
def after (op : W → Except Error α × W) (record : Except Error α → Exchange) (s : Site W) :
    Site W :=
  { s with world := (op s.world).2, calls := s.calls ++ [record (op s.world).1] }

/-- Make a call and record it. -/
def call (op : W → Except Error α × W) (record : Except Error α → Exchange) : Act (Site W) α :=
  fun s =>
    match (op s.world).1 with
    | .ok a => .ok a (s.after op record)
    | .error e => .error { error := e } (s.after op record)

/-- Tell the log. -/
def note (n : Notice) : Act (Site W) Unit := fun s =>
  .ok () { s with notices := s.notices ++ [n] }

theorem run_call (op : W → Except Error α × W) (record : Except Error α → Exchange) (s : Site W) :
    (call op record).run s = match (op s.world).1 with
      | .ok a => .ok a (s.after op record)
      | .error e => .error { error := e } (s.after op record) := rfl

theorem run_note (n : Notice) (s : Site W) :
    (note n).run s = .ok () { s with notices := s.notices ++ [n] } := rfl

end Site

/-! ## Calls on the record -/

namespace Backend

variable {W : Type} (b : Backend W)

/-- Fork a machine. -/
def callFork (m : Handle) : Act (Site W) Handle :=
  Site.call (b.fork m) (.fork m)

/-- Send a machine a request. -/
def callSend (m : Handle) (reason : RequestReason) (payload : Bytes) : Act (Site W) Unit :=
  Site.call (b.send m reason payload) (.send m reason payload)

/-- Run a machine. -/
def callRun (m : Handle) : Act (Site W) Int :=
  Site.call (b.run m) (.run m)

/-- Ask a machine for its request. -/
def callReceive (m : Handle) : Act (Site W) (Option YieldRequest) :=
  Site.call (b.receive m) (.receive m)

/-- Release a machine. -/
def callShutdown (m : Handle) : Act (Site W) Unit :=
  Site.call (b.shutdown m) (.shutdown m)

/-- Save a machine. -/
def callStore (m : Handle) (path : String) : Act (Site W) Unit :=
  Site.call (b.store m path) (.store m path)

/-- Load a machine. -/
def callLoad (origin : Origin) : Act (Site W) Handle :=
  Site.call (b.load origin) (.load origin)

end Backend

end RollupEngine
