import RollupEngine.Engine

/-!
# Several engines on one site

A `Plant` is a site with the engines that work on it, numbered in the order of their making. An
operation of an engine changes the site, and no other engine.
-/

namespace RollupEngine

/-- A site with the engines that work on it. -/
structure Plant (W : Type) extends Site W where
  engines : List Engine := []

/-- What can be done with a plant. -/
inductive PlantOp where
  | engine (number : Nat) (op : EngineOp)
  /-- Make an engine around a stored machine. -/
  | load (path : String) (config : Option EngineConfig) (remote : Option RemoteConfig)
    (runtime : Option MachineSettings)
  deriving Repr

namespace Plant

variable {W α : Type}

/-- An operation on the site. -/
def onSite (act : Act (Site W) α) : Act (Plant W) α :=
  Act.focus toSite (fun s p => { p with toSite := s }) act

/-- Give a new engine a number. -/
def addEngine (e : Engine) : Act (Plant W) Reply := fun p =>
  .ok (.engine p.engines.length) { p with engines := p.engines ++ [e] }

/-- Do an operation on an engine of the plant. -/
def onEngine (b : Backend W) (number : Nat) (op : EngineOp) (p : Plant W) : Answer × Plant W :=
  match p.engines[number]? with
  | none => ({ outcome := .ok .noEngine }, p)
  | some e =>
    let (answer, room) := op.perform b e.config (e.room p.toSite)
    let e := { e with controller := room.controller, sessions := room.sessions }
    (answer, { toSite := room.toSite, engines := p.engines.set number e })

/-- A plant with one engine around a machine. -/
def ofMachine (world : W) (machine : Handle) (config : Option EngineConfig) : Plant W :=
  (Answer.reply (do addEngine (← onSite (Engine.wrap machine config))) { world }).2

end Plant

namespace PlantOp

variable {W : Type}

/-- Do an operation. -/
def perform (b : Backend W) : PlantOp → Plant W → Answer × Plant W
  | .engine number op => Plant.onEngine b number op
  | .load path config remote runtime => Answer.reply do
    Plant.addEngine (← Plant.onSite (Engine.ofStore b path config remote runtime))

/-- The plant after a sequence of operations, failures or not. -/
def run (b : Backend W) (ops : List PlantOp) (p : Plant W) : Plant W :=
  ops.foldl (fun p op => (op.perform b p).2) p

end PlantOp

end RollupEngine
