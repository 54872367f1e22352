/-!
# The environment

Settings are read from environment variables. A `.env` file may set variables that the process
leaves unset; `Environment` is what there is once that file has been loaded, and the loading itself
is no part of this library. What cannot be read is a `ConfigError`, whose text names the variable
and what it may be.
-/

namespace RollupEngine

/-- The environment: the value of every variable that is set, in the process or, failing that, in a
`.env` file. -/
abbrev Environment := String → Option String

/-- A variable that cannot be read. -/
inductive ConfigError where
  | notOneOf (name : String) (choices : List String)
  | notInteger (name : String)
  deriving DecidableEq, Repr

/-- The text of a configuration error. -/
def ConfigError.message : ConfigError → String
  | .notOneOf v choices => v ++ " must be one of: " ++ ", ".intercalate choices
  | .notInteger v => v ++ " must be an integer"

end RollupEngine
