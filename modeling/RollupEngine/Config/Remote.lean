import RollupEngine.Config.Environment
import RollupEngine.Text.Numeral

/-!
# Remote machines

A stored machine is loaded from a server at an address, and calls to it time out after so many
milliseconds. A negative timeout waits forever. Both are read from the environment as it is after
the `.env` file has been loaded.
-/

namespace RollupEngine

/-- Where machines are loaded, and how long to wait for them. -/
structure RemoteConfig where
  address : String := "127.0.0.1:0"
  timeout : Int := -1
  deriving DecidableEq, Repr

/-- The variable of the address. -/
def addressVariable : String := "ROLLKERNEL_REMOTE_ADDRESS"

/-- The variable of the timeout. -/
def timeoutVariable : String := "ROLLKERNEL_REMOTE_TIMEOUT"

/-- Read the timeout: the default if the variable is unset or empty, else a numeral. -/
def readTimeout (env : Environment) : Except ConfigError Int :=
  let text := (env timeoutVariable).getD ""
  if text.isEmpty then .ok ({} : RemoteConfig).timeout
  else match Numeral.parse? text with
    | some n => .ok n
    | none => .error (.notInteger timeoutVariable)

/-- Read the configuration of a remote machine. The address is taken as it stands. -/
def RemoteConfig.load (env : Environment) : Except ConfigError RemoteConfig := do
  let address := (env addressVariable).getD ({} : RemoteConfig).address
  let timeout ← readTimeout env
  return { address, timeout }

end RollupEngine
