import RollupEngine.Config.Environment
import RollupEngine.Mode
import RollupEngine.Text.Blank
import RollupEngine.Text.Lowercase

/-!
# Engine configuration

An engine is configured with an isolation mode and a delivery mode. Each is read from a variable of
its own (`readMode`): white space around it and the case of letters do not count, and a variable
that is unset or blank leaves the default. The isolation is read first, so of two unreadable
variables its is the one reported. The environment is the one after the `.env` file has been loaded.
-/

namespace RollupEngine

/-- The configuration of an engine. -/
structure EngineConfig where
  isolation : Isolation := .isolated
  delivery : Delivery := .stream
  deriving DecidableEq, Repr

/-- The variable of the isolation mode. -/
def isolationVariable : String := "ROLLKERNEL_ISOLATION"

/-- The variable of the delivery mode. -/
def deliveryVariable : String := "ROLLKERNEL_DELIVERY"

/-- What counts of a mode's text: the part without white space around it, in lower case. -/
def modeKey (s : String) : String :=
  String.ofList (Text.lowercaseAll (Text.strip Text.isBlank s.toList))

/-- Read a mode from a variable. -/
def readMode {α : Type} [Labelled α] (env : Environment) (name : String) (default : α) :
    Except ConfigError α :=
  let key := modeKey ((env name).getD "")
  if key.isEmpty then .ok default
  else match Labelled.ofLabel? α key with
    | some mode => .ok mode
    | none => .error (.notOneOf name ((Labelled.all : List α).map Labelled.label))

/-- Read the configuration of an engine. -/
def EngineConfig.load (env : Environment) : Except ConfigError EngineConfig := do
  let isolation ← readMode env isolationVariable Isolation.isolated
  let delivery ← readMode env deliveryVariable Delivery.stream
  return { isolation, delivery }

end RollupEngine
