import RollupEngine.Datum

/-!
# Runtime settings

Settings that the machine itself interprets. They are handed over as a nested mapping
(`MachineSettings.toMapping`) that has an entry exactly for the fields that are set, so a field set
to zero or to false is not lost.
-/

namespace RollupEngine

/-- The value of a runtime setting. -/
inductive Setting where
  | flag (value : Bool)
  | integer (value : Int)
  deriving DecidableEq, Repr

/-- A setting as plain data. -/
def Setting.toDatum : Setting → Datum
  | .flag b => .flag b
  | .integer n => .integer n

/-- The runtime settings of a machine. -/
structure MachineSettings where
  updateMerkleTree : Option Setting := none
  noConsolePutchar : Option Setting := none
  skipRootHashCheck : Option Setting := none
  skipRootHashStore : Option Setting := none
  skipVersionCheck : Option Setting := none
  softYield : Option Setting := none
  deriving DecidableEq, Repr

namespace MachineSettings

/-- The entry of a setting, if it is set. -/
def entry (key : String) (setting : Option Setting) : Mapping :=
  match setting with
  | some s => [(key, s.toDatum)]
  | none => []

/-- The entry of a setting inside a group of its own, if it is set. -/
def grouped (group key : String) (setting : Option Setting) : Mapping :=
  match setting with
  | some s => [(group, .mapping [(key, s.toDatum)])]
  | none => []

/-- The settings as a nested mapping. -/
def toMapping (c : MachineSettings) : Mapping :=
  grouped "concurrency" "update_merkle_tree" c.updateMerkleTree
    ++ grouped "htif" "no_console_putchar" c.noConsolePutchar
    ++ entry "skip_root_hash_check" c.skipRootHashCheck
    ++ entry "skip_root_hash_store" c.skipRootHashStore
    ++ entry "skip_version_check" c.skipVersionCheck
    ++ entry "soft_yield" c.softYield

end MachineSettings

end RollupEngine
