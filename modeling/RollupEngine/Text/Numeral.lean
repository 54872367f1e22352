import RollupEngine.Text.Blank
import RollupEngine.Text.DecimalDigit

/-!
# Integers as people write them

A numeral is white space, at most one sign, decimal digits of any script with single underscores
allowed between two of them, and white space again. `Numeral.parse?` gives its value, and
`Numeral.write?` is the plain numeral of a number. A numeral may have up to `Numeral.maxDigits`
digits; the limit keeps reading and writing cheap.
-/

namespace RollupEngine.Numeral

open Text

/-- The most digits a numeral may have, leading zeros counted and underscores not. -/
def maxDigits : Nat := 4300

/-- The digits of a text that is one digit or more with single underscores between them. -/
def digits? : List Char → Option (List Nat)
  | [] => none
  | [c] => (digitValue? c).map ([·])
  | c :: '_' :: rest => do return (← digitValue? c) :: (← digits? rest)
  | c :: rest => do return (← digitValue? c) :: (← digits? rest)

/-- The number that digits spell, the most significant first. -/
def value (ds : List Nat) : Nat :=
  ds.foldl (fun n d => 10 * n + d) 0

/-- The number of an unsigned numeral. -/
def magnitude? (s : List Char) : Option Nat := do
  let ds ← digits? s
  if ds.length ≤ maxDigits then some (value ds) else none

/-- The value of a numeral, or `none` for a text that is not one. -/
def parse? (s : String) : Option Int :=
  match strip isNumeralBlank s.toList with
  | '-' :: rest => (magnitude? rest).map fun n => -(n : Int)
  | '+' :: rest => (magnitude? rest).map fun n => (n : Int)
  | rest => (magnitude? rest).map fun n => (n : Int)

/-- The least natural number that has too many digits. -/
def limit : Nat := Nat.pow 10 maxDigits

/-- The numeral of a number in decimal, or `none` for a number with too many digits. -/
def write? (n : Int) : Option String :=
  if n.natAbs < limit then some (toString n) else none

end RollupEngine.Numeral
