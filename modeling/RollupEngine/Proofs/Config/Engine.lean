import RollupEngine.Config.Engine
import RollupEngine.Proofs.Text.Lowercase

/-!
# Modes in the environment

A variable leaves the mode at its default, or names one, or cannot be read. `Selects` tells what a
variable says without a word on how it is read: a mode's own name, in letters of either case and
with white space around it. Reading agrees with it (`readMode_eq_ok_iff`), so a configuration is
loaded exactly if both variables say something (`EngineConfig.load_modes`).
-/

namespace RollupEngine

open Text (Padded isBlank strip)

/-! ## Words -/

/-- A word in small letters, none of them the one that the Kelvin sign lowers into. -/
def IsWord (s : String) : Prop :=
  s ≠ "" ∧ ∀ c ∈ s.toList, c.isLower ∧ c ≠ 'k'

theorem IsWord.of_all {s : String} (hs : s ≠ "")
    (h : (s.toList.all fun c => c.isLower && c != 'k') = true) : IsWord s := by
  refine ⟨hs, fun c hc => ?_⟩
  have hletter := List.all_eq_true.1 h c hc
  rwa [Bool.and_eq_true, bne_iff_ne] at hletter

theorem ascii_of_isLower {c : Char} (h : c.isLower) : c.toNat < 0x80 := by
  have hbounds := Bool.and_eq_true_iff.1 h
  have hz : c.toNat ≤ 'z'.toNat := UInt32.le_iff_toNat_le.1 (of_decide_eq_true hbounds.2)
  have : 'z'.toNat = 0x7A := rfl
  omega

theorem ascii_of_isLower_toLower {c : Char} (h : c.toLower.isLower) : c.toNat < 0x80 := by
  rcases Nat.lt_or_ge c.toNat 0x80 with hascii | hwide
  · exact hascii
  · rw [Text.toLower_wide hwide] at h
    exact ascii_of_isLower h

theorem not_isBlank_of_isLower_toLower {c : Char} (h : c.toLower.isLower) : isBlank c = false :=
  Text.forall_ascii (p := fun c => c.toLower.isLower → isBlank c = false) (by decide +kernel)
    (ascii_of_isLower_toLower h) h

variable {w s : String}

theorem IsWord.isLower_toLower (hw : IsWord w) {t : List Char} (ht : t.map Char.toLower = w.toList)
    {c : Char} (hc : c ∈ t) : c.toLower.isLower :=
  (hw.2 _ (ht ▸ List.mem_map_of_mem hc)).1

/-- A word is left whole when white space is stripped. -/
theorem IsWord.strip_eq (hw : IsWord w) {t u : List Char} (ht : t.map Char.toLower = w.toList)
    (hu : Padded isBlank t u) : strip isBlank u = t := by
  have hbare {c : Char} (hc : c ∈ t) : isBlank c = false :=
    not_isBlank_of_isLower_toLower (hw.isLower_toLower ht hc)
  exact hu.strip_eq (fun c hc => hbare (List.mem_of_mem_head? hc))
    fun c hc => hbare (List.mem_of_getLast? hc)

theorem modeKey_eq_empty_iff : modeKey s = "" ↔ ∀ c ∈ s.toList, isBlank c = true := by
  rw [modeKey, String.ofList_eq_empty_iff, Text.lowercaseAll_eq_nil_iff, Text.strip_eq_nil_iff]

/-- The part of a text that counts is a word if the text is that word in letters of either case,
with white space around it. -/
theorem modeKey_eq_iff (hw : IsWord w) :
    modeKey s = w ↔ ∃ t, Padded isBlank t s.toList ∧ t.map Char.toLower = w.toList := by
  have hlower (t : List Char) : Text.lowercaseAll t = w.toList ↔ t.map Char.toLower = w.toList :=
    Text.lowercaseAll_eq_iff (fun c hc => ascii_of_isLower (hw.2 c hc).1)
      fun hk => (hw.2 _ hk).2 rfl
  rw [modeKey, ← String.toList_inj, String.toList_ofList, hlower]
  constructor
  · exact fun h => ⟨_, Text.padded_strip _ _, h⟩
  · rintro ⟨t, hpadded, ht⟩
    rwa [hw.strip_eq ht hpadded]

/-! ## Reading a mode -/

variable {α : Type} [Labelled α] {default mode : α}

/-- What a variable says of a mode that has a default. -/
inductive Selects (default : α) : Option String → α → Prop
  | unset : Selects default none default
  | blank {s : String} (h : ∀ c ∈ s.toList, isBlank c = true) : Selects default (some s) default
  /-- The name of a mode, up to the case of ASCII letters. -/
  | named {s : String} {t : List Char} {mode : α} (hs : Padded isBlank t s.toList)
    (ht : t.map Char.toLower = (Labelled.label mode).toList) : Selects default (some s) mode

theorem selects_iff (hwords : ∀ a : α, IsWord (Labelled.label a)) {v : Option String} :
    Selects default v mode ↔
      modeKey (v.getD "") = "" ∧ mode = default ∨ modeKey (v.getD "") = Labelled.label mode := by
  constructor
  · rintro (_ | h | ⟨hs, ht⟩)
    · exact .inl ⟨rfl, rfl⟩
    · exact .inl ⟨modeKey_eq_empty_iff.2 h, rfl⟩
    · exact .inr ((modeKey_eq_iff (hwords mode)).2 ⟨_, hs, ht⟩)
  · rintro (⟨hkey, rfl⟩ | hkey)
    · cases v with
      | none => exact .unset
      | some s => exact .blank (modeKey_eq_empty_iff.1 hkey)
    · cases v with
      | none => exact absurd hkey.symm (hwords mode).1
      | some s =>
        obtain ⟨t, hs, ht⟩ := (modeKey_eq_iff (hwords mode)).1 hkey
        exact .named hs ht

variable {env : Environment} {name : String}

theorem readMode_eq_ok_iff (hwords : ∀ a : α, IsWord (Labelled.label a)) :
    readMode env name default = .ok mode ↔ Selects default (env name) mode := by
  rw [selects_iff hwords, readMode]
  generalize modeKey ((env name).getD "") = key
  split
  case isTrue hempty =>
    rw [String.isEmpty_iff] at hempty
    rw [Except.ok.injEq, hempty]
    have hword := (hwords mode).1
    tauto
  case isFalse hempty =>
    rw [String.isEmpty_iff] at hempty
    rw [or_iff_right fun h => hempty h.1, eq_comm (a := key), ← Labelled.ofLabel?_eq_some_iff]
    cases Labelled.ofLabel? α key with
    | none => exact iff_of_false nofun nofun
    | some m => rw [Except.ok.injEq, Option.some_inj]

/-- A variable that says nothing is refused with the names that it might have given. -/
theorem readMode_of_not_selects (hwords : ∀ a : α, IsWord (Labelled.label a))
    (h : ∀ mode, ¬ Selects default (env name) mode) :
    readMode env name default =
      .error (.notOneOf name ((Labelled.all : List α).map Labelled.label)) := by
  have hno (mode : α) : readMode env name default ≠ .ok mode :=
    fun hok => h mode ((readMode_eq_ok_iff hwords).1 hok)
  revert hno
  rw [readMode]
  split
  · exact fun hno => absurd rfl (hno _)
  · split
    · exact fun hno => absurd rfl (hno _)
    · exact fun _ => rfl

/-- Nothing is said outside ASCII. -/
theorem Selects.ascii (hwords : ∀ a : α, IsWord (Labelled.label a))
    (h : Selects default (some s) mode) {c : Char} (hc : c ∈ strip isBlank s.toList) :
    c.toNat < 0x80 := by
  cases h with
  | blank hblank =>
    rw [Text.strip_eq_nil_iff.2 hblank] at hc
    cases hc
  | named hs ht =>
    rw [(hwords mode).strip_eq ht hs] at hc
    exact ascii_of_isLower_toLower ((hwords mode).isLower_toLower ht hc)

/-! ## Loading a configuration -/

theorem isWord_isolation (m : Isolation) : IsWord (Labelled.label m) := by
  cases m <;> exact .of_all (by decide) (by decide)

theorem isWord_delivery (m : Delivery) : IsWord (Labelled.label m) := by
  cases m <;> exact .of_all (by decide) (by decide)

namespace EngineConfig

theorem load_eq_ok_iff {config : EngineConfig} : load env = .ok config ↔
    readMode env isolationVariable Isolation.isolated = .ok config.isolation ∧
      readMode env deliveryVariable Delivery.stream = .ok config.delivery := by
  obtain ⟨isolation, delivery⟩ := config
  rw [load]
  cases readMode env isolationVariable Isolation.isolated with
  | error => exact iff_of_false nofun nofun
  | ok i =>
    cases readMode env deliveryVariable Delivery.stream with
    | error => exact iff_of_false nofun nofun
    | ok d =>
      constructor
      · intro h
        cases h
        exact ⟨rfl, rfl⟩
      · rintro ⟨hi, hd⟩
        cases hi
        cases hd
        rfl

theorem load_of_isolation {e : ConfigError}
    (h : readMode env isolationVariable Isolation.isolated = .error e) : load env = .error e := by
  rw [load, h]
  rfl

theorem load_of_delivery {e : ConfigError} {m : Isolation}
    (hm : readMode env isolationVariable Isolation.isolated = .ok m)
    (h : readMode env deliveryVariable Delivery.stream = .error e) : load env = .error e := by
  rw [load, hm, h]
  rfl

/-- The configuration of an engine is read exactly by the names of the modes. It is loaded if and
only if both variables say something, and then holds what they say; else the first of the two that
cannot be read is reported with the names that it might have given. A text with a character outside
ASCII between its white space is never read. -/
theorem load_modes (env : Environment) :
    let isolation := env "ROLLKERNEL_ISOLATION"
    let delivery := env "ROLLKERNEL_DELIVERY"
    (∀ config, load env = .ok config ↔
      Selects .isolated isolation config.isolation ∧ Selects .stream delivery config.delivery) ∧
    ((∀ mode, ¬ Selects Isolation.isolated isolation mode) → ∃ e, load env = .error e ∧
      e.message = "ROLLKERNEL_ISOLATION must be one of: isolated, direct") ∧
    ((∃ mode, Selects Isolation.isolated isolation mode) →
      (∀ mode, ¬ Selects Delivery.stream delivery mode) → ∃ e, load env = .error e ∧
        e.message = "ROLLKERNEL_DELIVERY must be one of: stream, collect") ∧
    ∀ s, isolation = some s ∨ delivery = some s → ∀ c ∈ strip isBlank s.toList, 0x80 ≤ c.toNat →
      ∀ config, load env ≠ .ok config := by
  intro isolation delivery
  have hload (config : EngineConfig) : load env = .ok config ↔
      Selects .isolated isolation config.isolation ∧ Selects .stream delivery config.delivery :=
    load_eq_ok_iff.trans
      (and_congr (readMode_eq_ok_iff isWord_isolation) (readMode_eq_ok_iff isWord_delivery))
  refine ⟨hload, fun hno => ?_, fun ⟨mode, hmode⟩ hno => ?_, fun s hs c hc hwide config h => ?_⟩
  · exact ⟨_, load_of_isolation (readMode_of_not_selects isWord_isolation hno), rfl⟩
  · exact ⟨_, load_of_delivery ((readMode_eq_ok_iff isWord_isolation).2 hmode)
      (readMode_of_not_selects isWord_delivery hno), rfl⟩
  · obtain ⟨hi, hd⟩ := (hload config).1 h
    refine absurd hwide (Nat.not_le.2 ?_)
    rcases hs with hs | hs
    · rw [hs] at hi
      exact hi.ascii isWord_isolation hc
    · rw [hs] at hd
      exact hd.ascii isWord_delivery hc

/-- A mode in letters of both cases, between white space that is not ASCII, and a mode that is
written with the long s, whose capital is the one of ASCII. -/
theorem load_long_s :
    let env : Environment := fun v =>
      if v = "ROLLKERNEL_ISOLATION" then some "\u00a0DiReCt\u001c"
      else if v = "ROLLKERNEL_DELIVERY" then some "\u017ftream" else none
    Selects Isolation.isolated (env "ROLLKERNEL_ISOLATION") .direct ∧
      (∀ mode, ¬ Selects Delivery.stream (env "ROLLKERNEL_DELIVERY") mode) ∧
      '\u017f' ∈ strip isBlank "\u017ftream".toList ∧ 0x80 ≤ '\u017f'.toNat ∧
      (∀ config, load env ≠ .ok config) ∧
      ∃ e, load env = .error e ∧
        e.message = "ROLLKERNEL_DELIVERY must be one of: stream, collect" := by
  intro env
  have hdirect : Selects Isolation.isolated (env "ROLLKERNEL_ISOLATION") .direct :=
    .named (t := "DiReCt".toList) ⟨['\u00a0'], ['\u001c'], List.forall_mem_singleton.2 rfl,
      List.forall_mem_singleton.2 rfl, rfl⟩ rfl
  have hno (mode : Delivery) : ¬ Selects Delivery.stream (env "ROLLKERNEL_DELIVERY") mode := by
    rw [← readMode_eq_ok_iff isWord_delivery]
    cases mode <;> decide +kernel
  have hmem : '\u017f' ∈ strip isBlank "\u017ftream".toList := by decide +kernel
  obtain ⟨-, -, hdelivery, hwide⟩ := load_modes env
  exact ⟨hdirect, hno, hmem, by decide, hwide _ (.inr rfl) _ hmem (by decide),
    hdelivery ⟨_, hdirect⟩ hno⟩

end EngineConfig

end RollupEngine
