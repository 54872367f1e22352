/-!
# Severity

Log records are ranked by integers, of which five have names. Handlers compare ranks, so ranks
between two named ones are meaningful as well.
-/

namespace RollupEngine.Logging

/-- The named severities. -/
inductive Severity where
  | debug | info | warning | error | critical
  deriving DecidableEq, Repr

namespace Severity

/-- All named severities, the least first. -/
def all : List Severity :=
  [.debug, .info, .warning, .error, .critical]

/-- The rank of a named severity. -/
def rank : Severity → Int
  | .debug => 10
  | .info => 20
  | .warning => 30
  | .error => 40
  | .critical => 50

/-- The name of a severity. -/
def name : Severity → String
  | .debug => "DEBUG"
  | .info => "INFO"
  | .warning => "WARNING"
  | .error => "ERROR"
  | .critical => "CRITICAL"

end Severity

/-- The name of a rank: that of the severity, or its number where none has it. The number is assumed
to have at most 4300 digits; a record at an unnamed rank with more cannot be made, and logging it
fails. -/
def rankName (rank : Int) : String :=
  match Severity.all.find? (·.rank = rank) with
  | some s => s.name
  | none => "Level " ++ toString rank

end RollupEngine.Logging
