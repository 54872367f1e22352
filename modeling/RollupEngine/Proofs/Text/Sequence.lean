import RollupEngine.Text.Utf8
import Mathlib.Algebra.Group.Nat.Defs
import Mathlib.Tactic.SplitIfs

/-!
# Sequences of UTF-8

The reader of UTF-8 works by the byte, while the standard's sequence of a scalar value is given as a
whole (`String.utf8EncodeChar`). This file relates the two. After a lead byte the reader either
completes a sequence (`Owed.Completes`) or meets its break (`Owed.Breaks`), and never both:

* a lead byte and a completion of what it owes make up the sequence of a scalar value
  (`encode_of_completes`), and every sequence of more than one byte comes about so
  (`completes_of_encode`);
* where a sequence breaks off, no other start of a sequence goes on (`Owed.Breaks.longest`).

`Owed.completes_iff` is the arithmetic: a completion is determined by its scalar value, whose digits
in base 64 are the continuation bytes (`trail`).
-/

namespace RollupEngine.Utf8

/-! ## Encodings by the digit -/

theorem toNat_ofNat {n : Nat} (h : n.isValidChar) : (Char.ofNat n).toNat = n := by
  rw [Char.ofNat, dif_pos h]
  rfl

/-- The sequence of a scalar value below `0x80`. -/
theorem encode_one {n : Nat} (h : n < 0x80) :
    String.utf8EncodeChar (Char.ofNat n) = [UInt8.ofNat n] := by
  have hn : (Char.ofNat n).val.toNat = n := toNat_ofNat (.inl (by omega))
  unfold String.utf8EncodeChar
  simp only [hn]
  rw [if_pos (by omega)]

/-- From `0x80` on the low digits in base 64 are bytes of their own. -/
theorem encode_two {n : Nat} (h : 0x80 ≤ n) (h' : n < 0x800) :
    String.utf8EncodeChar (Char.ofNat n) =
      [UInt8.ofNat (0xC0 + n / 64), UInt8.ofNat (0x80 + n % 64)] := by
  have hn : (Char.ofNat n).val.toNat = n := toNat_ofNat (.inl (by omega))
  have h1 : n / 64 % 32 + 192 = 0xC0 + n / 64 := by omega
  unfold String.utf8EncodeChar
  simp only [hn, h1, Nat.add_comm _ 128]
  rw [if_neg (by omega), if_pos (by omega)]

theorem encode_three {n : Nat} (h : 0x800 ≤ n) (h' : n < 0x10000) (hv : n.isValidChar) :
    String.utf8EncodeChar (Char.ofNat n) =
      [UInt8.ofNat (0xE0 + n / 4096), UInt8.ofNat (0x80 + n / 64 % 64),
        UInt8.ofNat (0x80 + n % 64)] := by
  have hn : (Char.ofNat n).val.toNat = n := toNat_ofNat hv
  have h1 : n / 4096 % 16 + 224 = 0xE0 + n / 4096 := by omega
  unfold String.utf8EncodeChar
  simp only [hn, h1, Nat.add_comm _ 128]
  rw [if_neg (by omega), if_neg (by omega), if_pos (by omega)]

theorem encode_four {n : Nat} (h : 0x10000 ≤ n) (h' : n < 0x110000) :
    String.utf8EncodeChar (Char.ofNat n) =
      [UInt8.ofNat (0xF0 + n / 262144), UInt8.ofNat (0x80 + n / 4096 % 64),
        UInt8.ofNat (0x80 + n / 64 % 64), UInt8.ofNat (0x80 + n % 64)] := by
  have hn : (Char.ofNat n).val.toNat = n := toNat_ofNat (.inr (by omega))
  have h1 : n / 262144 % 8 + 240 = 0xF0 + n / 262144 := by omega
  unfold String.utf8EncodeChar
  simp only [hn, h1, Nat.add_comm _ 128]
  rw [if_neg (by omega), if_neg (by omega), if_neg (by omega)]

/-! ## Sequences that are completed -/

/-- What a lead byte owes, by its number. The ranges after `0xE0`, `0xED`, `0xF0` and `0xF4` are
narrow. -/
inductive Owed.Leads : Nat → Owed → Prop
  | two {n : Nat} (h : 0xC2 ≤ n) (h' : n ≤ 0xDF) : Leads n { bits := n - 0xC0, after := 0 }
  | afterE0 : Leads 0xE0 { bits := 0, low := 0xA0, after := 1 }
  | afterED : Leads 0xED { bits := 0xD, high := 0x9F, after := 1 }
  | three {n : Nat} (h : 0xE1 ≤ n) (h' : n ≤ 0xEF) (hn : n ≠ 0xED) :
    Leads n { bits := n - 0xE0, after := 1 }
  | afterF0 : Leads 0xF0 { bits := 0, low := 0x90, after := 2 }
  | four {n : Nat} (h : 0xF1 ≤ n) (h' : n ≤ 0xF3) : Leads n { bits := n - 0xF0, after := 2 }
  | afterF4 : Leads 0xF4 { bits := 4, high := 0x8F, after := 2 }

theorem Owed.ofLead?_eq_some_iff {b : UInt8} {owed : Owed} :
    Owed.ofLead? b = some owed ↔ Owed.Leads b.toNat owed := by
  simp only [Owed.ofLead?, UInt8.le_iff_toNat_le, ← UInt8.toNat_inj]
  constructor
  · intro h
    split_ifs at h with two afterE0 afterED three afterF0 four afterF4 <;>
      obtain rfl := Option.some.inj h
    · exact .two two.1 two.2
    · exact afterE0 ▸ .afterE0
    · exact afterED ▸ .afterED
    · exact .three three.1 three.2 afterED
    · exact afterF0 ▸ .afterF0
    · exact .four four.1 four.2
    · exact afterF4 ▸ .afterF4
  · have hlt := b.toNat_lt
    generalize b.toNat = n at hlt
    intro h
    cases h with
    | afterE0 | afterED | afterF0 | afterF4 => rfl
    | two | three | four =>
      simp only [UInt8.reduceToNat]
      split_ifs <;> first | omega | rfl

/-- Reading `v` with `owed` to go completes the scalar value `n`. -/
inductive Owed.Completes : Owed → Bytes → Nat → Prop
  | last {owed : Owed} {b : UInt8} {n : Nat} (hb : owed.low ≤ b ∧ b ≤ owed.high)
      (ha : owed.after = 0) (hn : n = owed.bits * 64 + (b.toNat - 0x80)) : Completes owed [b] n
  | step {owed : Owed} {b : UInt8} {v : Bytes} {k n : Nat} (hb : owed.low ≤ b ∧ b ≤ owed.high)
      (ha : owed.after = k + 1)
      (rest : Completes { bits := owed.bits * 64 + (b.toNat - 0x80), after := k } v n) :
    Completes owed (b :: v) n

/-- The last continuation bytes of a scalar value, `k` and one. -/
def trail (n : Nat) : Nat → Bytes
  | 0 => [UInt8.ofNat (0x80 + n % 64)]
  | k + 1 => UInt8.ofNat (0x80 + n / 64 ^ (k + 1) % 64) :: trail n k

theorem toNat_continuation (n : Nat) : (UInt8.ofNat (0x80 + n % 64)).toNat = 0x80 + n % 64 := by
  rw [UInt8.toNat_ofNat']
  omega

theorem toNat_byte {n : Nat} (h : n < 256) : (UInt8.ofNat n).toNat = n := by
  rw [UInt8.toNat_ofNat']
  omega

/-- The range of the next byte is one of continuation bytes. -/
structure Owed.Sound (owed : Owed) : Prop where
  low : 0x80 ≤ owed.low.toNat
  high : owed.high.toNat ≤ 0xBF
  le : owed.low.toNat ≤ owed.high.toNat

/-- A scalar value is completed by its lower digits in base 64 if the bits read before are its
higher ones, and the first of the lower ones is in range. -/
theorem Owed.completes_iff {owed : Owed} (h : owed.Sound) {v : Bytes} {n : Nat} :
    owed.Completes v n ↔ owed.bits = n / 64 ^ (owed.after + 1) ∧ v = trail n owed.after ∧
      owed.low.toNat ≤ 0x80 + n / 64 ^ owed.after % 64 ∧
      0x80 + n / 64 ^ owed.after % 64 ≤ owed.high.toNat := by
  obtain ⟨bits, low, high, after⟩ := owed
  obtain ⟨hlow, hhigh, -⟩ := h
  dsimp only at hlow hhigh ⊢
  induction after generalizing bits low high v with
  | zero =>
    simp only [Nat.zero_add, Nat.pow_one, Nat.pow_zero, Nat.div_one, trail]
    constructor
    · rintro (⟨⟨hl, hh⟩, -, hn⟩ | ⟨-, ha, -⟩)
      · simp only [UInt8.le_iff_toNat_le] at hl hh hn
        refine ⟨by omega, ?_, by omega, by omega⟩
        rw [List.cons.injEq, ← UInt8.toNat_inj, toNat_continuation]
        exact ⟨by omega, rfl⟩
      · cases ha
    · rintro ⟨hbits, rfl, hl, hh⟩
      refine .last ?_ rfl ?_ <;> simp only [UInt8.le_iff_toNat_le, toNat_continuation]
      · exact ⟨hl, hh⟩
      · omega
  | succ k ih =>
    -- the bits read so far and the next byte make up the bits that are read after it
    have hpow : n / 64 ^ (k + 1 + 1) = n / 64 ^ (k + 1) / 64 := by
      rw [Nat.pow_succ, ← Nat.div_div_eq_div_mul]
    rw [hpow, trail]
    have hrest (bits : Nat) (v : Bytes) := ih bits 0x80 0xBF (v := v) (by decide) (by decide)
    generalize n / 64 ^ (k + 1) = d at hrest ⊢
    constructor
    · rintro (⟨-, ha, -⟩ | ⟨⟨hl, hh⟩, ha, rest⟩)
      · cases ha
      · cases ha
        obtain ⟨hbits, rfl, -⟩ := (hrest _ _).1 rest
        simp only [UInt8.le_iff_toNat_le] at hl hh hbits
        refine ⟨by omega, ?_, by omega, by omega⟩
        rw [List.cons.injEq, ← UInt8.toNat_inj, toNat_continuation]
        exact ⟨by omega, rfl⟩
    · rintro ⟨hbits, rfl, hl, hh⟩
      refine .step ?_ rfl ((hrest _ _).2 ⟨?_, rfl, ?_⟩) <;>
        simp only [UInt8.le_iff_toNat_le, toNat_continuation, UInt8.reduceToNat]
      · exact ⟨hl, hh⟩
      · omega
      · omega

theorem Owed.sound_of_lead {n : Nat} {owed : Owed} (h : Owed.Leads n owed) : owed.Sound := by
  cases h <;> refine ⟨?_, ?_, ?_⟩ <;> dsimp only <;> decide

theorem Owed.bounds_of_leads {n : Nat} {owed : Owed} (h : Owed.Leads n owed) :
    0xC2 ≤ n ∧ n ≤ 0xF4 := by
  cases h <;> omega

/-- A sequence that is completed is that of a scalar value. -/
theorem encode_of_completes {b : UInt8} {owed : Owed} {v : Bytes} {n : Nat}
    (hb : Owed.ofLead? b = some owed) (h : owed.Completes v n) :
    String.utf8EncodeChar (Char.ofNat n) = b :: v := by
  rw [Owed.ofLead?_eq_some_iff] at hb
  rw [Owed.completes_iff (Owed.sound_of_lead hb)] at h
  obtain ⟨hbits, rfl, hlow, hhigh⟩ := h
  have lead {k : Nat} (hk : b.toNat = k) : UInt8.ofNat k = b := by
    rw [← hk, UInt8.ofNat_toNat]
  generalize hl : b.toNat = l at hb
  cases hb with
  | two =>
    simp only [Nat.reduceAdd, Nat.reducePow] at hbits
    rw [encode_two (by omega) (by omega), lead (by omega)]
    rfl
  | afterE0 | afterED | three =>
    simp only [Nat.reduceAdd, Nat.reducePow, UInt8.reduceToNat] at hbits hlow hhigh
    rw [encode_three (by omega) (by omega) (by rw [Nat.isValidChar]; omega), lead (by omega)]
    rfl
  | afterF0 | four | afterF4 =>
    simp only [Nat.reduceAdd, Nat.reducePow, UInt8.reduceToNat] at hbits hlow hhigh
    rw [encode_four (by omega) (by omega), lead (by omega)]
    rfl

/-- The sequence of a scalar value is a single byte, or it is completed after its lead byte. -/
theorem completes_of_encode {c : Char} {b : UInt8} {v : Bytes}
    (h : String.utf8EncodeChar c = b :: v) :
    c.toNat < 0x80 ∧ b = UInt8.ofNat c.toNat ∧ v = [] ∨
      ∃ owed, Owed.ofLead? b = some owed ∧ owed.Completes v c.toNat := by
  have hn : c.toNat.isValidChar := c.valid
  rw [← Char.ofNat_toNat c] at h
  generalize c.toNat = n at h hn ⊢
  have led {owed : Owed} {l : Nat} (hlead : Owed.Leads l owed) (hb : b = UInt8.ofNat l)
      (hv : v = trail n owed.after)
      (hdigits : owed.bits = n / 64 ^ (owed.after + 1) ∧
        owed.low.toNat ≤ 0x80 + n / 64 ^ owed.after % 64 ∧
        0x80 + n / 64 ^ owed.after % 64 ≤ owed.high.toNat) :
      ∃ owed, Owed.ofLead? b = some owed ∧ owed.Completes v n := by
    refine ⟨owed, Owed.ofLead?_eq_some_iff.2 ?_, ?_⟩
    · have hbound := Owed.bounds_of_leads hlead
      rw [hb, toNat_byte (by omega)]
      exact hlead
    · exact (Owed.completes_iff (Owed.sound_of_lead hlead)).2 ⟨hdigits.1, hv, hdigits.2⟩
  rcases Nat.lt_or_ge n 0x80 with h1 | h1
  · rw [encode_one h1] at h
    cases h
    exact .inl ⟨h1, rfl, rfl⟩
  refine .inr ?_
  rcases Nat.lt_or_ge n 0x800 with h2 | h2
  · rw [encode_two h1 h2] at h
    cases h
    refine led (.two (n := 0xC0 + n / 64) (by omega) (by omega)) rfl rfl ?_
    simp only [Nat.reduceAdd, Nat.reducePow, UInt8.reduceToNat]
    omega
  rcases Nat.lt_or_ge n 0x10000 with h3 | h3
  · rw [encode_three h2 h3 hn] at h
    cases h
    by_cases hE0 : n / 4096 = 0
    · refine led .afterE0 (by rw [hE0]) rfl ?_
      simp only [Nat.reduceAdd, Nat.reducePow, UInt8.reduceToNat]
      omega
    by_cases hED : n / 4096 = 0xD
    · refine led .afterED (by rw [hED]) rfl ?_
      rw [Nat.isValidChar] at hn
      simp only [Nat.reduceAdd, Nat.reducePow, UInt8.reduceToNat]
      omega
    refine led (.three (n := 0xE0 + n / 4096) (by omega) (by omega) (by omega)) rfl rfl ?_
    simp only [Nat.reduceAdd, Nat.reducePow, UInt8.reduceToNat]
    omega
  · have h4 : n < 0x110000 := by
      rw [Nat.isValidChar] at hn
      omega
    rw [encode_four h3 h4] at h
    cases h
    by_cases hF0 : n / 262144 = 0
    · refine led .afterF0 (by rw [hF0]) rfl ?_
      simp only [Nat.reduceAdd, Nat.reducePow, UInt8.reduceToNat]
      omega
    by_cases hF4 : n / 262144 = 4
    · refine led .afterF4 (by rw [hF4]) rfl ?_
      simp only [Nat.reduceAdd, Nat.reducePow, UInt8.reduceToNat]
      omega
    refine led (.four (n := 0xF0 + n / 262144) (by omega) (by omega)) rfl rfl ?_
    simp only [Nat.reduceAdd, Nat.reducePow, UInt8.reduceToNat]
    omega

/-! ## Sequences that break off -/

namespace Owed

/-- With `owed` to go, the sequence breaks off after `u`: it is cut off by the end, or the byte that
follows is out of range. -/
inductive Breaks : Owed → Bytes → Bytes → Prop
  | cut (owed : Owed) : Breaks owed [] []
  | off {owed : Owed} {b : UInt8} (rest : Bytes) (hb : ¬ (owed.low ≤ b ∧ b ≤ owed.high)) :
    Breaks owed [] (b :: rest)
  | step {owed : Owed} {b : UInt8} {u rest : Bytes} {k : Nat} (hb : owed.low ≤ b ∧ b ≤ owed.high)
      (ha : owed.after = k + 1)
      (h : Breaks { bits := owed.bits * 64 + (b.toNat - 0x80), after := k } u rest) :
    Breaks owed (b :: u) rest

/-- A sequence is completed or it breaks off. -/
theorem completes_or_breaks (owed : Owed) (p : Bytes) :
    (∃ v n q, p = v ++ q ∧ owed.Completes v n) ∨ ∃ u q, p = u ++ q ∧ owed.Breaks u q := by
  induction p generalizing owed with
  | nil => exact .inr ⟨[], [], rfl, .cut owed⟩
  | cons b rest ih =>
    by_cases hb : owed.low ≤ b ∧ b ≤ owed.high
    · cases ha : owed.after with
      | zero => exact .inl ⟨[b], _, rest, rfl, .last hb ha rfl⟩
      | succ k =>
        rcases ih { bits := owed.bits * 64 + (b.toNat - 0x80), after := k } with
          ⟨v, n, q, rfl, h⟩ | ⟨u, q, rfl, h⟩
        · exact .inl ⟨b :: v, n, q, rfl, .step hb ha h⟩
        · exact .inr ⟨b :: u, q, rfl, .step hb ha h⟩
    · exact .inr ⟨[], b :: rest, rfl, .off rest hb⟩

variable {owed : Owed} {u v w q : Bytes} {n : Nat}

theorem Completes.length (h : owed.Completes v n) : v.length = owed.after + 1 := by
  induction h with
  | last _ ha => rw [ha, List.length_singleton]
  | step _ ha _ ih => rw [ha, List.length_cons, ih]

theorem Breaks.length_le (h : owed.Breaks u q) : u.length ≤ owed.after := by
  induction h with
  | cut | off => exact Nat.zero_le _
  | step _ ha _ ih =>
    rw [ha, List.length_cons]
    exact Nat.succ_le_succ ih

/-- Where a sequence breaks off, no start of a completed one goes on. -/
theorem Breaks.longest (h : owed.Breaks u q) (hv : owed.Completes v n) (hw : w <+: v)
    (hq : w <+: u ++ q) : w.length ≤ u.length := by
  induction h generalizing v w with
  | cut => exact hq.length_le
  | off rest hb =>
    cases w with
    | nil => exact Nat.le_refl _
    | cons b' w =>
      obtain ⟨rfl, -⟩ := List.cons_prefix_cons.1 hq
      cases hv with
      | last hb' | step hb' =>
        obtain ⟨rfl, -⟩ := List.cons_prefix_cons.1 hw
        exact absurd hb' hb
  | step hb ha _ ih =>
    cases w with
    | nil => exact Nat.zero_le _
    | cons b' w =>
      obtain ⟨rfl, hrest⟩ := List.cons_prefix_cons.1 hq
      cases hv with
      | last _ ha' => cases ha.symm.trans ha'
      | step _ ha' hv =>
        obtain ⟨rfl, hw'⟩ := List.cons_prefix_cons.1 hw
        cases ha.symm.trans ha'
        exact Nat.succ_le_succ (ih hv hw' hrest)

theorem Sound.inside (bits after : Nat) : Sound { bits, after } := by
  constructor <;> dsimp only <;> decide

/-- Every sequence can be completed. -/
theorem Sound.exists_completes (h : owed.Sound) : ∃ v n, owed.Completes v n := by
  obtain ⟨bits, low, high, after⟩ := owed
  have hlow : low ≤ low ∧ low ≤ high := ⟨UInt8.le_refl _, UInt8.le_iff_toNat_le.2 h.le⟩
  induction after generalizing bits low high with
  | zero => exact ⟨_, _, .last hlow rfl rfl⟩
  | succ k ih =>
    obtain ⟨v, n, hv⟩ := ih _ _ _ (.inside _ k) (by decide)
    exact ⟨_, n, .step hlow rfl hv⟩

/-- A sequence that breaks off is the start of one that is completed. -/
theorem Breaks.exists_completes (h : owed.Breaks u q) (hs : owed.Sound) :
    ∃ v n, owed.Completes (u ++ v) n := by
  induction h with
  | cut | off => exact hs.exists_completes
  | step hb ha _ ih =>
    obtain ⟨v, n, hv⟩ := ih (.inside _ _)
    exact ⟨v, n, .step hb ha hv⟩

/-! ## What is read -/

theorem Completes.readAll (h : owed.Completes v n) (q : Bytes) :
    readAll (some owed) (v ++ q) = Char.ofNat n :: Utf8.readAll none q := by
  induction h with
  | last hb ha hn => simp [Utf8.readAll, Utf8.read, Owed.read, hb, ha, hn]
  | step hb ha _ ih => simpa [Utf8.readAll, Utf8.read, Owed.read, hb, ha] using ih

theorem Breaks.readAll (h : owed.Breaks u q) :
    readAll (some owed) (u ++ q) = replacement :: Utf8.readAll none q := by
  induction h with
  | cut => rfl
  | off rest hb => simp [Utf8.readAll, Utf8.read, Owed.read, hb]
  | step hb ha _ ih => simpa [Utf8.readAll, Utf8.read, Owed.read, hb, ha] using ih

end Owed

theorem readAll_lead {b : UInt8} {owed : Owed} (h : Owed.ofLead? b = some owed) (q : Bytes) :
    readAll none (b :: q) = readAll (some owed) q := by
  have hb : ¬ b < 0x80 := by
    have hlead := Owed.bounds_of_leads (Owed.ofLead?_eq_some_iff.1 h)
    simp only [UInt8.lt_iff_toNat_lt, UInt8.reduceToNat]
    omega
  simp [readAll, read, readLead, hb, h]

theorem readAll_single {b : UInt8} (h : b < 0x80) (q : Bytes) :
    readAll none (b :: q) = Char.ofNat b.toNat :: readAll none q := by
  simp [readAll, read, readLead, h]

/-- A well-formed sequence is read as its scalar value. -/
theorem readAll_encode (c : Char) (q : Bytes) :
    readAll none (String.utf8EncodeChar c ++ q) = c :: readAll none q := by
  cases hc : String.utf8EncodeChar c with
  | nil => exact absurd hc String.utf8EncodeChar_ne_nil
  | cons b v =>
    rcases completes_of_encode hc with ⟨hlt, rfl, rfl⟩ | ⟨owed, hb, h⟩
    · have hnat : (UInt8.ofNat c.toNat).toNat = c.toNat := toNat_byte (by omega)
      rw [List.cons_append, readAll_single, hnat, Char.ofNat_toNat]
      · rfl
      · rw [UInt8.lt_iff_toNat_lt, hnat]
        exact hlt
    · rw [List.cons_append, readAll_lead hb, h.readAll, Char.ofNat_toNat]

end RollupEngine.Utf8
