import RollupEngine.Config.Settings
import Mathlib.Data.List.Nodup

/-!
# Settings as a mapping

The mapping of runtime settings is described field by field (`SettingField`): each has a path of one
or two keys, and the mapping holds an entry for the fields that are set and for no others
(`MachineSettings.mem_toMapping_iff`). So it can be read back
(`MachineSettings.ofMapping_toMapping`), and two mappings are alike if and only if the settings are,
by whatever measure values are compared (`MachineSettings.alike_toMapping_iff`).
-/

namespace RollupEngine

/-! ## Looking into mappings -/

/-- What a mapping has at the end of a path of keys. -/
def Mapping.at? (m : Mapping) : List String → Option Datum
  | [] => none
  | [key] => m.get? key
  | key :: rest => match m.get? key with
    | some (.mapping m') => Mapping.at? m' rest
    | _ => none

theorem Mapping.at?_pair (m : Mapping) (group key : String) :
    m.at? [group, key] = match m.get? group with
      | some (.mapping m') => Mapping.get? m' key
      | _ => none := rfl

/-- The setting that a piece of data is. -/
def Datum.setting? : Datum → Option Setting
  | .flag b => some (.flag b)
  | .integer n => some (.integer n)
  | _ => none

theorem Setting.setting?_toDatum (s : Setting) : s.toDatum.setting? = some s := by
  cases s <;> rfl

theorem Setting.toDatum_injective {s t : Setting} (h : s.toDatum = t.toDatum) : s = t := by
  rw [← Option.some_inj, ← setting?_toDatum, ← setting?_toDatum, h]

theorem Mapping.get?_append (m m' : Mapping) (key : String) :
    Mapping.get? (m ++ m') key = (m.get? key).or (m'.get? key) := by
  rw [get?, List.find?_append]
  unfold get?
  cases m.find? fun e => e.1 = key <;> rfl

theorem Mapping.get?_singleton (key key' : String) (d : Datum) :
    Mapping.get? [(key, d)] key' = if key = key' then some d else none := by
  rw [get?, List.find?_singleton]
  by_cases h : key = key' <;> simp [h]

/-- A mapping without repeated keys has under a key what its entry says. -/
theorem Mapping.get?_eq_some_iff {m : Mapping} (h : (m.map Prod.fst).Nodup) {key : String}
    {d : Datum} : m.get? key = some d ↔ (key, d) ∈ m := by
  induction m with
  | nil => exact iff_of_false nofun nofun
  | cons e m ih =>
    obtain ⟨key', d'⟩ := e
    rw [List.map_cons, List.nodup_cons] at h
    rw [List.mem_cons, Prod.mk.injEq, ← ih h.2, ← List.singleton_append, get?_append,
      get?_singleton]
    split
    case isTrue heq =>
      subst heq
      have hfresh : Mapping.get? m key' ≠ some d :=
        fun hget => h.1 (List.mem_map.2 ⟨_, (ih h.2).1 hget, rfl⟩)
      rw [Option.some_or, Option.some_inj, or_iff_left hfresh, eq_comm (a := d')]
      exact (and_iff_right rfl).symm
    case isFalse hne =>
      rw [Option.none_or, or_iff_right fun h => hne h.1.symm]

/-- Two pieces of data are alike if they are settings that are the same in some sense, or mappings
with the same keys and like data under each. The order of the keys does not count. -/
inductive Datum.Alike (same : Setting → Setting → Prop) : Datum → Datum → Prop
  | setting {s t : Setting} (h : same s t) : Alike same s.toDatum t.toDatum
  | mapping {m m' : Mapping} (keys : ∀ key, (m.get? key).isSome = (m'.get? key).isSome)
    (h : ∀ key x y, m.get? key = some x → m'.get? key = some y → Alike same x y) :
    Alike same (.mapping m) (.mapping m')

namespace Datum

variable {same : Setting → Setting → Prop} {s t : Setting}

theorem alike_setting_iff : Alike same s.toDatum t.toDatum ↔ same s t := by
  refine ⟨fun h => ?_, .setting⟩
  generalize hx : s.toDatum = x at h
  generalize hy : t.toDatum = y at h
  cases h with
  | setting h =>
    obtain rfl := Setting.toDatum_injective hx
    obtain rfl := Setting.toDatum_injective hy
    exact h
  | mapping => cases s <;> cases hx

theorem alike_mapping_iff {m m' : Mapping} : Alike same (.mapping m) (.mapping m') ↔
    (∀ key, (m.get? key).isSome = (m'.get? key).isSome) ∧
      ∀ key x y, m.get? key = some x → m'.get? key = some y → Alike same x y := by
  refine ⟨fun h => ?_, fun h => .mapping h.1 h.2⟩
  generalize hx : Datum.mapping m = x at h
  generalize hy : Datum.mapping m' = y at h
  cases h with
  | @setting s => cases s <;> cases hx
  | mapping keys h =>
    cases hx
    cases hy
    exact ⟨keys, h⟩

/-- Mappings with a single key are alike if what they have under it is. -/
theorem alike_singleton_iff {key : String} {x y : Datum} :
    Alike same (.mapping [(key, x)]) (.mapping [(key, y)]) ↔ Alike same x y := by
  simp only [alike_mapping_iff, Mapping.get?_singleton]
  constructor
  · exact fun h => h.2 key x y (if_pos rfl) (if_pos rfl)
  · refine fun h => ⟨fun key' => by split <;> rfl, fun key' x' y' hx hy => ?_⟩
    split at hx
    case isTrue hkey =>
      rw [if_pos hkey] at hy
      obtain rfl := Option.some.inj hx
      obtain rfl := Option.some.inj hy
      exact h
    case isFalse => cases hx

end Datum

/-! ## The fields of the settings -/

/-- The fields of the settings. -/
inductive SettingField where
  | updateMerkleTree | noConsolePutchar | skipRootHashCheck | skipRootHashStore | skipVersionCheck
  | softYield
  deriving DecidableEq, Repr

namespace SettingField

/-- All fields, in order. -/
def all : List SettingField :=
  [updateMerkleTree, noConsolePutchar, skipRootHashCheck, skipRootHashStore, skipVersionCheck,
    softYield]

/-- What is in a field. -/
def get : SettingField → MachineSettings → Option Setting
  | updateMerkleTree => MachineSettings.updateMerkleTree
  | noConsolePutchar => MachineSettings.noConsolePutchar
  | skipRootHashCheck => MachineSettings.skipRootHashCheck
  | skipRootHashStore => MachineSettings.skipRootHashStore
  | skipVersionCheck => MachineSettings.skipVersionCheck
  | softYield => MachineSettings.softYield

/-- The group that a field belongs to, if any. -/
def group? : SettingField → Option String
  | updateMerkleTree => some "concurrency"
  | noConsolePutchar => some "htif"
  | _ => none

/-- The key of a field, inside its group. -/
def key : SettingField → String
  | updateMerkleTree => "update_merkle_tree"
  | noConsolePutchar => "no_console_putchar"
  | skipRootHashCheck => "skip_root_hash_check"
  | skipRootHashStore => "skip_root_hash_store"
  | skipVersionCheck => "skip_version_check"
  | softYield => "soft_yield"

/-- The keys that lead to a field. -/
def path (f : SettingField) : List String :=
  f.group?.toList ++ [f.key]

/-- The entry of a field that is set. A group has no other field. -/
def entry (f : SettingField) (s : Setting) : String × Datum :=
  match f.group? with
  | some group => (group, .mapping [(f.key, s.toDatum)])
  | none => (f.key, s.toDatum)

/-- The key of the entry. -/
def root (f : SettingField) : String :=
  f.group?.getD f.key

theorem mem_all (f : SettingField) : f ∈ all := by
  cases f <;> decide

theorem entry_fst (f : SettingField) (s : Setting) : (f.entry s).1 = f.root := by
  cases f <;> rfl

theorem entry_ne_empty (f : SettingField) (s : Setting) (group : String) :
    f.entry s ≠ (group, .mapping []) := by
  unfold entry
  cases f.group? <;> cases s <;> nofun

/-- Entries of one field are alike if their values are the same. -/
theorem alike_entry_iff {same : Setting → Setting → Prop} (f : SettingField) {s t : Setting} :
    Datum.Alike same (f.entry s).2 (f.entry t).2 ↔ same s t := by
  unfold entry
  cases f.group? with
  | none => exact Datum.alike_setting_iff
  | some group => exact Datum.alike_singleton_iff.trans Datum.alike_setting_iff

theorem root_injective {f g : SettingField} (h : f.root = g.root) : f = g := by
  revert h
  cases f <;> cases g <;> decide

end SettingField

/-! ## The mapping, field by field -/

namespace MachineSettings

open SettingField (get path root)

variable (c d : MachineSettings)

/-- The entries of a field: one if it is set. -/
theorem toMapping_eq :
    c.toMapping = SettingField.all.flatMap fun f => ((f.get c).map f.entry).toList := by
  have hgrouped (group key : String) (o : Option Setting) : grouped group key o =
      (o.map fun s => (group, Datum.mapping [(key, s.toDatum)])).toList := by cases o <;> rfl
  have hentry (key : String) (o : Option Setting) : entry key o =
      (o.map fun s => (key, s.toDatum)).toList := by cases o <;> rfl
  simp only [toMapping, hgrouped, hentry, SettingField.all, List.flatMap_cons, List.flatMap_nil,
    List.append_nil, List.append_assoc]
  rfl

/-- Every entry is that of a field which is set. -/
theorem mem_toMapping_iff {e : String × Datum} :
    e ∈ c.toMapping ↔ ∃ f s, get f c = some s ∧ e = f.entry s := by
  simp only [toMapping_eq, List.mem_flatMap, SettingField.mem_all, true_and, Option.mem_toList,
    Option.map_eq_some_iff, @eq_comm _ e]

/-- No group is empty. -/
theorem empty_notMem_toMapping (key : String) : (key, .mapping []) ∉ c.toMapping := by
  intro h
  obtain ⟨f, s, -, he⟩ := c.mem_toMapping_iff.1 h
  exact f.entry_ne_empty s key he.symm

theorem toMapping_eq_nil_iff : c.toMapping = [] ↔ ∀ f, get f c = none := by
  simp only [toMapping_eq, List.flatMap_eq_nil_iff, SettingField.mem_all, true_implies,
    Option.toList_eq_nil_iff, Option.map_eq_none_iff]

/-- No key occurs twice. -/
theorem nodup_toMapping : (c.toMapping.map Prod.fst).Nodup := by
  -- Fields that are not set only leave keys out.
  have hsublist (l : List SettingField) :
      ((l.flatMap fun f => ((f.get c).map f.entry).toList).map Prod.fst).Sublist (l.map root) := by
    induction l with
    | nil => exact .slnil
    | cons f l ih =>
      rw [List.flatMap_cons, List.map_append, List.map_cons]
      cases get f c with
      | none => exact ih.cons _
      | some s =>
        rw [Option.map_some, Option.toList_some, List.map_singleton, SettingField.entry_fst]
        exact ih.cons_cons _
  rw [toMapping_eq]
  exact (hsublist SettingField.all).nodup (by decide)

theorem get?_toMapping (f : SettingField) :
    c.toMapping.get? (root f) = (get f c).map fun s => (f.entry s).2 := by
  ext x
  rw [Mapping.get?_eq_some_iff c.nodup_toMapping, mem_toMapping_iff, Option.map_eq_some_iff]
  constructor
  · rintro ⟨g, s, hs, he⟩
    obtain rfl : f = g := SettingField.root_injective (by rw [← g.entry_fst s, ← he])
    exact ⟨s, hs, by rw [← he]⟩
  · rintro ⟨s, hs, rfl⟩
    exact ⟨f, s, hs, by rw [← f.entry_fst s]⟩

theorem get?_toMapping_eq_none {key : String} (h : ∀ f, root f ≠ key) :
    c.toMapping.get? key = none := by
  rw [Option.eq_none_iff_forall_ne_some]
  intro x hx
  obtain ⟨f, s, -, he⟩ := c.mem_toMapping_iff.1 ((Mapping.get?_eq_some_iff c.nodup_toMapping).1 hx)
  exact h f (by rw [← f.entry_fst s, ← he])

/-- At the end of the path of a field is what the field is set to. -/
theorem at?_toMapping (f : SettingField) :
    c.toMapping.at? (path f) = (get f c).map Setting.toDatum := by
  have hget := c.get?_toMapping f
  cases hg : f.group? with
  | none =>
    rw [root, hg, Option.getD_none] at hget
    rw [path, hg, Option.toList_none, List.nil_append, Mapping.at?, hget]
    simp only [SettingField.entry, hg]
  | some group =>
    rw [root, hg, Option.getD_some] at hget
    rw [path, hg, Option.toList_some, List.singleton_append, Mapping.at?_pair, hget]
    cases get f c with
    | none => rfl
    | some s =>
      simp only [Option.map_some, SettingField.entry, hg]
      rw [Mapping.get?_singleton, if_pos rfl]

/-- The settings that a mapping holds. -/
def ofMapping (m : Mapping) : MachineSettings :=
  let read (f : SettingField) : Option Setting := (m.at? f.path).bind Datum.setting?
  { updateMerkleTree := read .updateMerkleTree
    noConsolePutchar := read .noConsolePutchar
    skipRootHashCheck := read .skipRootHashCheck
    skipRootHashStore := read .skipRootHashStore
    skipVersionCheck := read .skipVersionCheck
    softYield := read .softYield }

/-- Reading the mapping recovers every field. -/
theorem ofMapping_toMapping : ofMapping c.toMapping = c := by
  have hread (f : SettingField) : (c.toMapping.at? f.path).bind Datum.setting? = get f c := by
    rw [at?_toMapping]
    cases get f c with
    | none => rfl
    | some s => exact s.setting?_toDatum
  simp only [ofMapping, hread]
  rfl

theorem toMapping_injective : Function.Injective toMapping :=
  Function.LeftInverse.injective ofMapping_toMapping

/-- The mappings of two settings are alike if the same fields are set, and to the same values. -/
theorem alike_toMapping_iff {same : Setting → Setting → Prop} :
    Datum.Alike same (.mapping c.toMapping) (.mapping d.toMapping) ↔
      ∀ f, Option.Rel same (get f c) (get f d) := by
  have hfield (f : SettingField) : Option.Rel same (get f c) (get f d) ↔
      (c.toMapping.get? (root f)).isSome = (d.toMapping.get? (root f)).isSome ∧
        ∀ x y, c.toMapping.get? (root f) = some x → d.toMapping.get? (root f) = some y →
          Datum.Alike same x y := by
    rw [get?_toMapping, get?_toMapping]
    cases get f c <;> cases get f d <;> simp [SettingField.alike_entry_iff]
  rw [Datum.alike_mapping_iff, ← forall_and]
  simp only [hfield]
  refine ⟨fun h f => h (root f), fun h key => ?_⟩
  by_cases hkey : ∃ f, root f = key
  · obtain ⟨f, rfl⟩ := hkey
    exact h f
  · rw [get?_toMapping_eq_none c fun f hf => hkey ⟨f, hf⟩,
      get?_toMapping_eq_none d fun f hf => hkey ⟨f, hf⟩]
    exact ⟨rfl, nofun⟩

end MachineSettings

end RollupEngine
