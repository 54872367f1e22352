/-!
# Plain data

Details of errors and runtime settings are handed to others as plain data: nothing, a flag, an
integer, a text, a list, or a mapping whose entries keep their order.
-/

namespace RollupEngine

/-- A piece of plain data. -/
inductive Datum where
  | null
  | flag (value : Bool)
  | integer (value : Int)
  | text (value : String)
  | list (items : List Datum)
  | mapping (entries : List (String × Datum))
  deriving Repr, Inhabited

/-- A mapping from names to data. -/
abbrev Mapping := List (String × Datum)

/-- The entry of a mapping under a name. -/
def Mapping.get? (m : Mapping) (key : String) : Option Datum :=
  (m.find? fun e => e.1 = key).map (·.2)

end RollupEngine
