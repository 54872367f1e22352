import RollupEngine.Proofs.Text.Blank
import RollupEngine.Text.Numeral
import Mathlib.Data.List.Induction
import Mathlib.Data.Nat.Digits.Defs

/-!
# The grammar of numerals

`Numeral.parse?` reads a text from left to right. Here is what it reads, given as a grammar: digits
with single underscores between two of them (`Numeral.Spells`), a sign before them or none
(`Numeral.Writes`), and white space around both (`Numeral.Denotes`). The reader accepts exactly the
grammar (`Numeral.parse?_eq_some_iff`), and the number it finds is the positional value of the
digits. Every integer can be written, in as many ways as there are scripts and places for
underscores, and is read back from each of them (`Numeral.Spelling.writes`).
-/

namespace RollupEngine

/-! ## Digits -/

namespace Text

/-- `c` is the digit `d` of some script. -/
def IsDigit (c : Char) (d : Nat) : Prop :=
  d < 10 ∧ ∃ z ∈ digitZeros, c.toNat = z + d

theorem digitZeros_apart : ∀ z ∈ digitZeros, ∀ z' ∈ digitZeros, z < z' → z + 10 ≤ z' := by
  decide +kernel

theorem digitValue?_eq_some_iff {c : Char} {d : Nat} : digitValue? c = some d ↔ IsDigit c d := by
  rw [digitValue?, Option.map_eq_some_iff]
  constructor
  · rintro ⟨z, hz, rfl⟩
    have hrow := List.find?_some hz
    simp only [Bool.and_eq_true, decide_eq_true_eq] at hrow
    exact ⟨by omega, z, List.mem_of_find?_eq_some hz, by omega⟩
  · rintro ⟨hd, z, hz, hc⟩
    cases hfind : digitZeros.find? fun z => z ≤ c.toNat && c.toNat < z + 10 with
    | none =>
      have hrow := List.find?_eq_none.1 hfind z hz
      simp only [Bool.and_eq_true, decide_eq_true_eq] at hrow
      omega
    | some z' =>
      have hrow := List.find?_some hfind
      simp only [Bool.and_eq_true, decide_eq_true_eq] at hrow
      -- the rows of two scripts do not overlap
      have hlt := digitZeros_apart z hz z' (List.mem_of_find?_eq_some hfind)
      have hgt := digitZeros_apart z' (List.mem_of_find?_eq_some hfind) z hz
      exact ⟨z', rfl, by omega⟩

theorem not_isDigit_underscore (d : Nat) : ¬ IsDigit '_' d := by
  rw [← digitValue?_eq_some_iff]
  have h : digitValue? '_' = none := by decide
  rw [h]
  exact nofun

theorem isDigit_of_isDigit {c : Char} (h : c.isDigit) : IsDigit c (c.toNat - '0'.toNat) := by
  simp only [Char.isDigit, Bool.and_eq_true, decide_eq_true_eq, UInt32.le_iff_toNat_le] at h
  have hlow : 48 ≤ c.toNat := h.1
  have hhigh : c.toNat ≤ 57 := h.2
  have hzero : '0'.toNat = 48 := rfl
  exact ⟨by omega, 0x30, by decide, by omega⟩

theorem digitZeros_not_blank :
    ∀ z ∈ digitZeros, 0x20 < z ∧ ∀ r ∈ wideBlanks, r.2 < z ∨ z + 10 ≤ r.1 := by
  decide

theorem IsDigit.not_blank {c : Char} {d : Nat} (h : IsDigit c d) : isNumeralBlank c = false := by
  obtain ⟨hd, z, hz, hc⟩ := h
  obtain ⟨hascii, hwide⟩ := digitZeros_not_blank z hz
  have hspace : c ≠ ' ' := by
    rintro rfl
    have : ' '.toNat = 0x20 := rfl
    omega
  have hrun : isWideBlank c = false := by
    rw [isWideBlank, List.any_eq_false]
    intro r hr
    have := hwide r hr
    simp only [Bool.and_eq_true, decide_eq_true_eq]
    omega
  have htab : (0x09 ≤ c.toNat && c.toNat ≤ 0x0D) = false := by
    simp only [Bool.and_eq_false_iff, decide_eq_false_iff_not]
    omega
  rw [isNumeralBlank, htab, hrun, decide_eq_false hspace]
  rfl

end Text

namespace Numeral

open Text

/-- `s` spells the digits `ds`, each in some script, with at most one underscore between two. -/
inductive Spells : List Char → List Nat → Prop
  | last {c : Char} {d : Nat} (h : IsDigit c d) : Spells [c] [d]
  | next {c : Char} {d : Nat} {s : List Char} {ds : List Nat} (h : IsDigit c d)
      (rest : Spells s ds) : Spells (c :: s) (d :: ds)
  | gap {c : Char} {d : Nat} {s : List Char} {ds : List Nat} (h : IsDigit c d)
      (rest : Spells s ds) : Spells (c :: '_' :: s) (d :: ds)

variable {s : List Char} {ds : List Nat} {m : Nat} {n : Int}

theorem Spells.head? (h : Spells s ds) : ∃ c d, s.head? = some c ∧ IsDigit c d := by
  cases h with
  | last h | next h | gap h => exact ⟨_, _, rfl, h⟩

theorem Spells.getLast? (h : Spells s ds) : ∃ c d, s.getLast? = some c ∧ IsDigit c d := by
  induction h with
  | last h => exact ⟨_, _, rfl, h⟩
  | next _ _ ih | gap _ _ ih =>
    obtain ⟨c, d, hc, hd⟩ := ih
    refine ⟨c, d, ?_, hd⟩
    simp [List.getLast?_cons, hc]

theorem digits?_cons (c : Char) (h : Spells s ds) :
    digits? (c :: s) = (digitValue? c).bind fun d => (digits? s).map (d :: ·) := by
  -- What comes next begins with a digit, so neither is it missing nor is it an underscore.
  obtain ⟨c', d', hc, hd⟩ := h.head?
  rw [digits?.eq_4]
  · cases digitValue? c <;> cases digits? s <;> rfl
  · rintro rfl
    cases hc
  · rintro s rfl
    cases hc
    exact not_isDigit_underscore _ hd

theorem digits?_eq_some_iff : digits? s = some ds ↔ Spells s ds := by
  constructor
  · intro h
    induction s using digits?.induct generalizing ds with
    | case1 => cases h
    | case2 c =>
      obtain ⟨d, hd, rfl⟩ := Option.map_eq_some_iff.1 h
      exact .last (digitValue?_eq_some_iff.1 hd)
    | case3 c s ih =>
      obtain ⟨d, hd, h⟩ := Option.bind_eq_some_iff.1 h
      obtain ⟨ds, hds, h⟩ := Option.bind_eq_some_iff.1 h
      obtain rfl := Option.some.inj h
      exact .gap (digitValue?_eq_some_iff.1 hd) (ih hds)
    | case4 c s hnil hgap ih =>
      rw [digits?.eq_4 c s hnil hgap] at h
      obtain ⟨d, hd, h⟩ := Option.bind_eq_some_iff.1 h
      obtain ⟨ds, hds, h⟩ := Option.bind_eq_some_iff.1 h
      obtain rfl := Option.some.inj h
      exact .next (digitValue?_eq_some_iff.1 hd) (ih hds)
  · intro h
    induction h with
    | last h => rw [digits?, digitValue?_eq_some_iff.2 h]; rfl
    | next h rest ih => rw [digits?_cons _ rest, digitValue?_eq_some_iff.2 h, ih]; rfl
    | gap h _ ih => rw [digits?, digitValue?_eq_some_iff.2 h, ih]; rfl

/-! ## Numbers -/

theorem value_eq_ofDigits (ds : List Nat) : value ds = Nat.ofDigits 10 ds.reverse := by
  induction ds using List.reverseRecOn with
  | nil => rfl
  | append_singleton ds d ih =>
    rw [List.reverse_append, List.reverse_singleton, List.singleton_append, Nat.ofDigits_cons,
      ← ih, value, List.foldl_append, Nat.add_comm]
    rfl

/-- `s` writes the natural number `m` in digits, which are not too many. -/
def Magnitude (s : List Char) (m : Nat) : Prop :=
  ∃ ds, Spells s ds ∧ ds.length ≤ 4300 ∧ Nat.ofDigits 10 ds.reverse = m

theorem magnitude?_eq_some_iff : magnitude? s = some m ↔ Magnitude s m := by
  rw [magnitude?, Option.bind_eq_bind, Option.bind_eq_some_iff]
  refine exists_congr fun ds => and_congr digits?_eq_some_iff ?_
  rw [Option.ite_none_right_eq_some, Option.some_inj, value_eq_ofDigits]
  rfl

/-- `s` writes the integer `n`: at most one sign, and digits. -/
inductive Writes : List Char → Int → Prop
  | bare {s : List Char} {m : Nat} (h : Magnitude s m) : Writes s m
  | plus {s : List Char} {m : Nat} (h : Magnitude s m) : Writes ('+' :: s) m
  | minus {s : List Char} {m : Nat} (h : Magnitude s m) : Writes ('-' :: s) (-m)

/-- `s` is a numeral of `n`: it writes `n`, with white space around it. -/
def Denotes (s : String) (n : Int) : Prop :=
  ∃ t, Writes t n ∧ Padded isNumeralBlank t s.toList

theorem Writes.head? (h : Writes s n) {c : Char} (hc : s.head? = some c) :
    isNumeralBlank c = false := by
  cases h with
  | bare h =>
    obtain ⟨ds, h, -⟩ := h
    obtain ⟨c', d, hc', hd⟩ := h.head?
    obtain rfl := Option.some.inj (hc'.symm.trans hc)
    exact hd.not_blank
  | plus | minus =>
    cases hc
    decide

theorem Writes.getLast? (h : Writes s n) {c : Char} (hc : s.getLast? = some c) :
    isNumeralBlank c = false := by
  have digits {s : List Char} {m : Nat} (h : Magnitude s m) :
      ∃ c, s.getLast? = some c ∧ isNumeralBlank c = false := by
    obtain ⟨ds, h, -⟩ := h
    obtain ⟨c', d, hc', hd⟩ := h.getLast?
    exact ⟨c', hc', hd.not_blank⟩
  cases h with
  | bare h =>
    obtain ⟨c', hc', hb⟩ := digits h
    obtain rfl := Option.some.inj (hc'.symm.trans hc)
    exact hb
  | plus h | minus h =>
    obtain ⟨c', hc', hb⟩ := digits h
    rw [List.getLast?_cons, hc'] at hc
    obtain rfl := Option.some.inj hc
    exact hb

/-- Digits do not begin with what is no digit. -/
theorem not_magnitude {c : Char} (hc : digitValue? c = none) : ¬ Magnitude (c :: s) m := by
  rintro ⟨ds, h, -⟩
  obtain ⟨c', d, hc', hd⟩ := h.head?
  obtain rfl := Option.some.inj hc'
  cases hc.symm.trans (digitValue?_eq_some_iff.2 hd)

theorem parse?_eq_some_iff_writes {s : String} :
    parse? s = some n ↔ Writes (strip isNumeralBlank s.toList) n := by
  have signed (t : List Char) (f : Int → Int) :
      (do return (← magnitude? t : Int)).map f = some n ↔ ∃ m, Magnitude t m ∧ f m = n := by
    simp only [← magnitude?_eq_some_iff]
    cases magnitude? t <;> simp
  rw [parse?]
  generalize strip isNumeralBlank s.toList = t
  split
  case h_1 rest =>
    rw [signed]
    constructor
    · rintro ⟨m, hm, rfl⟩
      exact .minus hm
    · intro h
      cases h with
      | bare h => exact absurd h (not_magnitude (by decide))
      | minus h => exact ⟨_, h, rfl⟩
  case h_2 rest =>
    rw [signed]
    constructor
    · rintro ⟨m, hm, rfl⟩
      exact .plus hm
    · intro h
      cases h with
      | bare h => exact absurd h (not_magnitude (by decide))
      | plus h => exact ⟨_, h, rfl⟩
  case h_3 hminus hplus =>
    rw [signed]
    constructor
    · rintro ⟨m, hm, rfl⟩
      exact .bare hm
    · intro h
      cases h with
      | bare h => exact ⟨_, h, rfl⟩
      | plus => exact absurd rfl (hplus _)
      | minus => exact absurd rfl (hminus _)

/-- The reader accepts what the grammar allows, and nothing else. -/
theorem parse?_eq_some_iff {s : String} : parse? s = some n ↔ Denotes s n := by
  rw [parse?_eq_some_iff_writes]
  constructor
  · exact fun h => ⟨_, h, padded_strip _ _⟩
  · rintro ⟨t, h, hpadded⟩
    rwa [hpadded.strip_eq (fun _ => h.head?) fun _ => h.getLast?]

/-- White space alone is no numeral. -/
theorem not_denotes_of_blank {s : String} (h : ∀ c ∈ s.toList, isNumeralBlank c = true) :
    ¬ Denotes s n := by
  rw [← parse?_eq_some_iff, parse?, strip_eq_nil_iff.2 h]
  exact nofun

/-! ## Every integer is written -/

/-- The digits of a number, the most significant first. -/
def decimal (m : Nat) : List Nat :=
  (Nat.toDigits 10 m).map fun c => c.toNat - '0'.toNat

theorem ofDigits_decimal (m : Nat) : Nat.ofDigits 10 (decimal m).reverse = m := by
  rw [← value_eq_ofDigits, value, decimal, List.foldl_map, ← Nat.ofDigitChars_eq_foldl,
    Nat.ofDigitChars_ten_toDigits]

theorem spells_of_isDigit {l : List Char} (hl : l ≠ []) (h : ∀ c ∈ l, c.isDigit) :
    Spells l (l.map fun c => c.toNat - '0'.toNat) := by
  induction l with
  | nil => exact absurd rfl hl
  | cons c l ih =>
    have hc := isDigit_of_isDigit (h c List.mem_cons_self)
    cases l with
    | nil => exact .last hc
    | cons c' l => exact .next hc (ih (List.cons_ne_nil _ _) fun x hx => h x (.tail _ hx))

theorem spells_toDigits (m : Nat) : Spells (Nat.toDigits 10 m) (decimal m) :=
  spells_of_isDigit Nat.toDigits_ne_nil fun _ hc =>
    Nat.isDigit_of_mem_toDigits (by decide) (by decide) hc

/-- `s` is the text of `n`: the minus sign of a negative number, and the digits of `n` in any
spelling. -/
inductive Spelling (n : Int) : List Char → Prop
  | nonneg {s : List Char} (hn : 0 ≤ n) (h : Spells s (decimal n.natAbs)) : Spelling n s
  | neg {s : List Char} (hn : n < 0) (h : Spells s (decimal n.natAbs)) : Spelling n ('-' :: s)

/-- Whatever the spelling, the text of a number writes it, if it does not have too many digits. -/
theorem Spelling.writes (h : Spelling n s) (hn : (decimal n.natAbs).length ≤ 4300) :
    Writes s n := by
  have hm {s : List Char} (h : Spells s (decimal n.natAbs)) : Magnitude s n.natAbs :=
    ⟨_, h, hn, ofDigits_decimal _⟩
  cases h with
  | nonneg hpos h =>
    rw [← Int.natAbs_of_nonneg hpos]
    exact .bare (hm h)
  | neg hneg h =>
    rw [← neg_neg n, ← Int.ofNat_natAbs_of_nonpos hneg.le]
    exact .minus (hm h)

/-- A number in decimal is one of its texts. -/
theorem spelling_toString (n : Int) : Spelling n (toString n).toList := by
  change Spelling n n.repr.toList
  have hdigits (m : Nat) : m.repr.toList = Nat.toDigits 10 m := by
    rw [Nat.repr_eq_ofList_toDigits, String.toList_ofList]
  rw [Int.repr_eq_if]
  split
  case isTrue hn =>
    rw [hdigits, show n.toNat = n.natAbs by omega]
    exact .nonneg hn (spells_toDigits _)
  case isFalse hn =>
    rw [String.toList_append, hdigits, show (-n).toNat = n.natAbs by omega]
    exact .neg (by omega) (spells_toDigits _)

end Numeral

end RollupEngine
