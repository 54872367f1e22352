import RollupEngine.Proofs.Text.Blank
import RollupEngine.Text.Lowercase
import Mathlib.Data.List.Basic

/-!
# What lowers into small letters

The lower-case form of a text is found in a table for all of Unicode, while a name is written in
small letters of ASCII. Only one character outside ASCII lowers into such letters alone, the Kelvin
sign (`lowercase_wide`), so on names without a `k` the whole table says no more than the case of
letters of ASCII (`lowercaseAll_eq_iff`).
-/

namespace RollupEngine.Text

variable {c : Char} {s t : List Char}

/-- What holds of all ASCII is found by trying. -/
theorem forall_ascii {p : Char → Prop} (h : ∀ n < 0x80, p (Char.ofNat n)) (hc : c.toNat < 0x80) :
    p c := by
  rw [← Char.ofNat_toNat c]
  exact h _ hc

theorem lowercase_ascii (h : c.toNat < 0x80) : lowercase c = [c.toLower] :=
  forall_ascii (p := fun c => lowercase c = [c.toLower]) (by decide +kernel) h

/-- The lower-case forms of the runs beyond ASCII lie beyond ASCII too, but for the Kelvin sign. -/
theorem caseRuns_small : ∀ r ∈ caseRuns, r.last < 0x80 ∨ (r.first = r.last ∧ r.small = 'k'.toNat) ∨
    0x80 ≤ r.small ∧ (r.small + (r.last - r.first) < 0xD800 ∨
      0xDFFF < r.small ∧ r.small + (r.last - r.first) < 0x110000) := by
  decide +kernel

theorem lowercase_wide (h : 0x80 ≤ c.toNat) :
    'k' ∈ lowercase c ∨ ∃ x ∈ lowercase c, 0x80 ≤ x.toNat := by
  rw [lowercase]
  split
  -- The capital with two characters: the first is an `i`, but the dot above it is not ASCII.
  · exact .inr ⟨Char.ofNat 0x307, .tail _ (.head _), by decide⟩
  split
  case h_1 r hr =>
    have hcovers := List.find?_some hr
    simp only [CaseRun.covers, Bool.and_eq_true, decide_eq_true_eq] at hcovers
    obtain ⟨⟨hfirst, hlast⟩, -⟩ := hcovers
    simp only [List.mem_singleton, exists_eq_left]
    rcases caseRuns_small r (List.mem_of_find?_eq_some hr) with hascii | ⟨heq, hk⟩ | ⟨hwide, hvalid⟩
    · omega
    · left
      rw [hk, show c.toNat - r.first = 0 by omega]
      rfl
    · right
      have hchar : (r.small + (c.toNat - r.first)).isValidChar := by
        rw [Nat.isValidChar]
        omega
      rw [Char.ofNat, dif_pos hchar]
      change 0x80 ≤ r.small + (c.toNat - r.first)
      omega
  case h_2 => exact .inr ⟨c, .head _, h⟩

theorem lowercaseAll_of_ascii (h : ∀ c ∈ s, c.toNat < 0x80) :
    lowercaseAll s = s.map Char.toLower := by
  rw [lowercaseAll, List.map_eq_flatMap]
  exact List.flatMap_congr fun c hc => lowercase_ascii (h c hc)

theorem lowercase_ne_nil (c : Char) : lowercase c ≠ [] := by
  intro h
  rcases Nat.lt_or_ge c.toNat 0x80 with hascii | hwide
  · cases (lowercase_ascii hascii).symm.trans h
  · rcases lowercase_wide hwide with hmem | ⟨x, hmem, -⟩ <;> rw [h] at hmem <;> cases hmem

theorem lowercaseAll_eq_nil_iff : lowercaseAll s = [] ↔ s = [] := by
  rw [lowercaseAll, List.flatMap_eq_nil_iff, List.eq_nil_iff_forall_not_mem]
  exact forall₂_congr fun c _ => iff_false_intro (lowercase_ne_nil c)

theorem toLower_wide (h : 0x80 ≤ c.toNat) : c.toLower = c := by
  refine dif_neg fun hupper => ?_
  have hz : c.toNat ≤ 'Z'.toNat := UInt32.le_iff_toNat_le.1 hupper.2
  have : 'Z'.toNat = 0x5A := rfl
  omega

/-- A text in ASCII that has no `k` is the lower-case form of those texts only that differ from it
in the case of letters of ASCII. -/
theorem lowercaseAll_eq_iff (ht : ∀ c ∈ t, c.toNat < 0x80) (hk : 'k' ∉ t) :
    lowercaseAll s = t ↔ s.map Char.toLower = t := by
  constructor
  · rintro rfl
    refine (lowercaseAll_of_ascii fun c hc => Nat.lt_of_not_le fun hwide => ?_).symm
    rcases lowercase_wide hwide with hmem | ⟨x, hmem, hx⟩
    · exact hk (List.mem_flatMap.2 ⟨c, hc, hmem⟩)
    · exact absurd (ht x (List.mem_flatMap.2 ⟨c, hc, hmem⟩)) (by omega)
  · rintro rfl
    refine lowercaseAll_of_ascii fun c hc => Nat.lt_of_not_le fun hwide => ?_
    have := ht _ (List.mem_map_of_mem hc)
    rw [toLower_wide hwide] at this
    omega

end RollupEngine.Text
