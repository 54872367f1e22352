import RollupEngine.Config.Engine
import RollupEngine.Config.Remote
import RollupEngine.Config.Settings
import RollupEngine.Room

/-!
# Engines

An engine takes inputs for one machine. Its configuration decides the isolation of every session
and whether an input is run to its end at once or handed out as a session to be pulled; the second
choice can be made anew with every input. An input must be a byte string, and a closed engine
takes none.

An engine is made around a machine that is there already (`Engine.wrap`), or around one that is
loaded from a store (`Engine.ofStore`).
-/

namespace RollupEngine

/-- The state of an engine as others see it. -/
inductive EngineState where
  | idle | inSession | shutdown
  deriving DecidableEq, Repr

instance : Labelled EngineState where
  all := [.idle, .inSession, .shutdown]
  label
    | .idle => "idle"
    | .inSession => "in_session"
    | .shutdown => "shutdown"
  mem_all a := by cases a <;> decide
  label_injective a b := by cases a <;> cases b <;> simp

/-- The state of the engine that a controller belongs to. -/
def Controller.state (c : Controller) : EngineState :=
  if c.closed then .shutdown else if c.inTransaction then .inSession else .idle

/-- What is handed in as a payload. -/
inductive Submission where
  | bytes (payload : Bytes)
  /-- A value that is no byte string, of a type with a name. -/
  | other (typeName : String)
  deriving DecidableEq, Repr

/-- Whether an input is run to its end at once. -/
def EngineConfig.collects (c : EngineConfig) (choice : Option Bool) : Bool :=
  choice.getD (c.delivery = .collect)

namespace Room

variable {W : Type}

/-- Run a session that nobody else holds to its end. -/
def collectFresh (b : Backend W) (session : Session) : Act (Room W) Collected :=
  onDesk (Act.focus (fun d => { toDesk := d, session }) (fun seat _ => seat.toDesk)
    (Seat.collect b session.kind))

/-- Take an input. -/
def submit (b : Backend W) (config : EngineConfig) (kind : InputKind) (input : Submission)
    (collect : Option Bool) : Act (Room W) Reply := do
  if (← get).controller.closed then throw (.ofKind .closed)
  match input with
  | .other typeName => throw { error := .notBytes kind typeName }
  | .bytes payload =>
    let session : Session := { kind, payload, isolation := config.isolation }
    if config.collects collect then return .collected (← collectFresh b session)
    else addSession session

end Room

/-- What can be done with an engine and its sessions. -/
inductive EngineOp where
  | submit (kind : InputKind) (input : Submission) (collect : Option Bool)
  | store (path : String)
  | shutdown
  | session (number : Nat) (op : SessionOp)
  deriving Repr

namespace EngineOp

variable {W : Type}

/-- Do an operation. -/
def perform (b : Backend W) (config : EngineConfig) : EngineOp → Room W → Answer × Room W
  | .submit kind input collect => Answer.reply (Room.submit b config kind input collect)
  | .store path => Answer.reply do
    Room.onDesk (Desk.store b path)
    return .itself
  | .shutdown => Answer.reply do
    Room.onDesk (Desk.shutdown b)
    return .done
  | .session number op => Room.onSession b number op

/-- The room after a sequence of operations, failures or not. -/
def run (b : Backend W) (config : EngineConfig) (ops : List EngineOp) (r : Room W) : Room W :=
  ops.foldl (fun r op => (op.perform b config r).2) r

end EngineOp

/-- An engine, apart from the site it works on. -/
structure Engine where
  config : EngineConfig
  controller : Controller
  sessions : List (Option Session) := []
  deriving Repr

namespace Engine

variable {W : Type}

/-- Make an engine around a machine. -/
def wrap (machine : Handle) (config : Option EngineConfig) : Act (Site W) Engine := do
  let config := config.getD {}
  if config.isolation = .direct then Site.note .directEngine
  return { config, controller := { canonical := machine } }

/-- Make an engine around a machine that is loaded from a store. -/
def ofStore (b : Backend W) (path : String) (config : Option EngineConfig)
    (remote : Option RemoteConfig) (runtime : Option MachineSettings) : Act (Site W) Engine := do
  let remote := remote.getD {}
  Site.note (.loading path remote.address)
  let machine ← b.callLoad
    { path, address := remote.address, timeout := remote.timeout,
      settings := runtime.map MachineSettings.toMapping }
  wrap machine config

/-- The engine at work on a site. -/
def room (e : Engine) (s : Site W) : Room W where
  toSite := s
  controller := e.controller
  sessions := e.sessions

end Engine

end RollupEngine
