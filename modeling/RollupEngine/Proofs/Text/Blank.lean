import RollupEngine.Text.Blank
import Mathlib.Data.List.TakeWhile

/-!
# Text between white space

Stripping a text finds the part of it that has characters of a class around it (`Padded`). The part
is the only one, if it does not begin or end with such a character itself (`Padded.strip_eq`).
-/

namespace RollupEngine.Text

/-- `s` is `t` with characters of a class around it. -/
def Padded (p : Char → Bool) (t s : List Char) : Prop :=
  ∃ before after, (∀ c ∈ before, p c = true) ∧ (∀ c ∈ after, p c = true) ∧
    s = before ++ t ++ after

variable {p : Char → Bool} {s t : List Char}

/-- Stripping takes away characters of the class alone. -/
theorem padded_strip (p : Char → Bool) (s : List Char) : Padded p (strip p s) s := by
  refine ⟨s.takeWhile p, ((s.dropWhile p).reverse.takeWhile p).reverse, ?_, ?_, ?_⟩
  · exact fun c hc => List.mem_takeWhile_imp hc
  · exact fun c hc => List.mem_takeWhile_imp (List.mem_reverse.1 hc)
  · rw [strip, List.append_assoc, ← List.reverse_append, List.takeWhile_append_dropWhile,
      List.reverse_reverse, List.takeWhile_append_dropWhile]

theorem strip_eq_nil_iff : strip p s = [] ↔ ∀ c ∈ s, p c = true := by
  constructor
  · intro h c hc
    obtain ⟨before, after, hb, ha, hs⟩ := padded_strip p s
    rw [h, List.append_nil] at hs
    rw [hs, List.mem_append] at hc
    exact hc.elim (hb c) (ha c)
  · intro h
    rw [strip, List.dropWhile_eq_nil_iff.2 h]
    rfl

theorem dropWhile_append_of_head? {l : List Char} (hl : ∀ c ∈ l, p c = true)
    (ht : ∀ c, t.head? = some c → p c = false) : (l ++ t).dropWhile p = t := by
  rw [List.dropWhile_append_of_pos hl]
  cases t with
  | nil => rfl
  | cons c t => rw [List.dropWhile_cons_of_neg (by simp [ht c rfl])]

/-- Stripping leaves all of a text that has no character of the class on either end. -/
theorem Padded.strip_eq (h : Padded p t s) (hhead : ∀ c, t.head? = some c → p c = false)
    (hlast : ∀ c, t.getLast? = some c → p c = false) : strip p s = t := by
  obtain ⟨before, after, hb, ha, rfl⟩ := h
  cases t with
  | nil =>
    rw [strip_eq_nil_iff, List.append_nil]
    exact fun c hc => (List.mem_append.1 hc).elim (hb c) (ha c)
  | cons c t =>
    have hleft : (before ++ (c :: t ++ after)).dropWhile p = c :: t ++ after :=
      dropWhile_append_of_head? hb hhead
    have hright : (after.reverse ++ (c :: t).reverse).dropWhile p = (c :: t).reverse :=
      dropWhile_append_of_head? (fun c hc => ha c (List.mem_reverse.1 hc))
        (by rwa [List.head?_reverse])
    rw [strip, List.append_assoc, hleft, List.reverse_append, hright, List.reverse_reverse]

end RollupEngine.Text
