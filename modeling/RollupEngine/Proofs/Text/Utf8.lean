import RollupEngine.Proofs.Text.Sequence

/-!
# Decoding with replacement

What `Utf8.decode` makes of bytes, against a definition that knows nothing of a reader. A byte
string splits from left to right into parts (`Splits`): the sequence of a scalar value where one
begins, and else the maximal ill-formed subpart (`MaximalSubpart`), which is the longest start of a
sequence that stands there, or a single byte. There is one such split of every byte string, and its
parts are what the reader yields (`Splits.exists_readAll`).

`tolerant_decode` : a decoded byte string is the text of its split, with one U+FFFD for each
ill-formed part, and text that was encoded comes back whole, whatever follows it.
-/

namespace RollupEngine.Utf8

/-! ## Maximal subparts -/

/-- What can stand by itself as an ill-formed subpart: a start of a well-formed sequence, or a
single byte. -/
def Subpart (u : Bytes) : Prop :=
  u.length = 1 ∨ u ≠ [] ∧ ∃ c, u <+: String.utf8EncodeChar c

/-- `u` is the maximal ill-formed subpart at the head of `p`: no well-formed sequence begins there,
and no longer subpart does. -/
structure MaximalSubpart (u p : Bytes) : Prop where
  illFormed : ∀ c, ¬ String.utf8EncodeChar c <+: p
  head : u <+: p
  subpart : Subpart u
  longest : ∀ w, w <+: p → Subpart w → w.length ≤ u.length

namespace MaximalSubpart

variable {u v p : Bytes} {b : UInt8}

/-- There is one at most. -/
theorem unique (hu : MaximalSubpart u p) (hv : MaximalSubpart v p) : u = v :=
  (List.prefix_of_prefix_length_le hu.head hv.head (hv.longest u hu.head hu.subpart)).eq_of_length
    (Nat.le_antisymm (hv.longest u hu.head hu.subpart) (hu.longest v hv.head hv.subpart))

theorem ne_nil (h : MaximalSubpart u p) : u ≠ [] := by
  rintro rfl
  rcases h.subpart with hlen | ⟨hne, -⟩
  · cases hlen
  · exact hne rfl

/-- A subpart is maximal if every sequence with its first byte goes on in another way. -/
theorem of_sequences {q : Bytes} (hsub : Subpart (b :: u))
    (h : ∀ c v, String.utf8EncodeChar c = b :: v → ¬ v <+: u ++ q ∧
      ∀ w, w <+: v → w <+: u ++ q → w.length ≤ u.length) :
    MaximalSubpart (b :: u) (b :: u ++ q) where
  illFormed c hc := by
    cases hseq : String.utf8EncodeChar c with
    | nil => exact absurd hseq String.utf8EncodeChar_ne_nil
    | cons b' v =>
      rw [hseq] at hc
      obtain ⟨rfl, hv⟩ := List.cons_prefix_cons.1 hc
      exact (h c v hseq).1 hv
  head := ⟨q, rfl⟩
  subpart := hsub
  longest w hw hsub := by
    rcases hsub with hlen | ⟨hne, c, v, hv⟩
    · rw [hlen, List.length_cons]
      omega
    · cases w with
      | nil => exact absurd rfl hne
      | cons b' w =>
        obtain ⟨rfl, hrest⟩ := List.cons_prefix_cons.1 hw
        exact Nat.succ_le_succ ((h c _ hv.symm).2 w ⟨v, rfl⟩ hrest)

/-- A byte that leads no sequence stands by itself. -/
theorem of_unled (hb : ¬ b < 0x80) (hlead : Owed.ofLead? b = none) (q : Bytes) :
    MaximalSubpart [b] (b :: q) := by
  refine of_sequences (.inl rfl) fun c v hv => ?_
  rcases completes_of_encode hv with ⟨hlt, rfl, -⟩ | ⟨_, hb', -⟩
  · refine absurd ?_ hb
    rw [UInt8.lt_iff_toNat_lt, toNat_byte (by omega)]
    exact hlt
  · cases hb'.symm.trans hlead

/-- A sequence that breaks off is a maximal subpart. -/
theorem of_breaks {owed : Owed} {q : Bytes} (hb : Owed.ofLead? b = some owed)
    (h : owed.Breaks u q) : MaximalSubpart (b :: u) (b :: u ++ q) := by
  have hlead := Owed.ofLead?_eq_some_iff.1 hb
  have hsub : Subpart (b :: u) := by
    obtain ⟨v, n, hv⟩ := h.exists_completes (Owed.sound_of_lead hlead)
    exact .inr ⟨nofun, Char.ofNat n, v, (encode_of_completes hb hv).symm⟩
  refine of_sequences hsub fun c v hv => ?_
  rcases completes_of_encode hv with ⟨hlt, rfl, -⟩ | ⟨owed', hb', hcompletes⟩
  · have hle := Owed.bounds_of_leads hlead
    rw [toNat_byte (by omega)] at hle
    omega
  · cases hb.symm.trans hb'
    refine ⟨fun hprefix => ?_, fun w => h.longest hcompletes⟩
    have hle := h.longest hcompletes List.prefix_rfl hprefix
    have hbound := h.length_le
    rw [hcompletes.length] at hle
    omega

end MaximalSubpart

/-! ## The split of a byte string -/

/-- A part of a byte string. -/
inductive Part where
  /-- The well-formed sequence of a scalar value. -/
  | scalar (c : Char)
  /-- An ill-formed subpart. -/
  | illFormed (u : Bytes)

namespace Part

/-- The bytes of a part. -/
def bytes : Part → Bytes
  | .scalar c => String.utf8EncodeChar c
  | .illFormed u => u

/-- What a part is shown as. -/
def char : Part → Char
  | .scalar c => c
  | .illFormed _ => replacement

/-- The part stands at the head of a byte string, before `q`. -/
inductive Heads : Part → Bytes → Bytes → Prop
  | scalar (c : Char) (q : Bytes) : Heads (.scalar c) (String.utf8EncodeChar c ++ q) q
  | illFormed {u q : Bytes} (h : MaximalSubpart u (u ++ q)) : Heads (.illFormed u) (u ++ q) q

variable {part part' : Part} {p q q' : Bytes}

theorem Heads.eq_append (h : part.Heads p q) : p = part.bytes ++ q := by
  cases h <;> rfl

theorem Heads.bytes_ne_nil (h : part.Heads p q) : part.bytes ≠ [] := by
  cases h with
  | scalar c => exact String.utf8EncodeChar_ne_nil
  | illFormed h => exact h.ne_nil

theorem Heads.length_lt (h : part.Heads p q) : q.length < p.length := by
  have hpos := List.length_pos_iff.2 h.bytes_ne_nil
  rw [h.eq_append, List.length_append]
  omega

/-- No two parts stand at one head. -/
theorem Heads.unique (h : part.Heads p q) (h' : part'.Heads p q') : part = part' ∧ q = q' := by
  have hpart : part = part' := by
    generalize hp : p = p' at h'
    cases h with
    | scalar c q =>
      cases h' with
      | scalar c' q' =>
        have hread := congrArg (readAll none) hp
        rw [readAll_encode, readAll_encode] at hread
        rw [(List.cons.inj hread).1]
      | illFormed h' =>
        rw [← hp] at h'
        exact absurd ⟨q, rfl⟩ (h'.illFormed c)
    | illFormed h =>
      cases h' with
      | scalar c q' =>
        rw [hp] at h
        exact absurd ⟨q', rfl⟩ (h.illFormed c)
      | illFormed h' =>
        rw [← hp] at h'
        rw [h.unique h']
  subst hpart
  exact ⟨rfl, List.append_cancel_left (h.eq_append.symm.trans h'.eq_append)⟩

/-- Some part stands at the head of every byte string that is not empty, and is read so. -/
theorem exists_heads (b : UInt8) (rest : Bytes) : ∃ part q, Heads part (b :: rest) q ∧
    readAll none (b :: rest) = part.char :: readAll none q := by
  by_cases hb : b < 0x80
  · have hchar : String.utf8EncodeChar (Char.ofNat b.toNat) = [b] := by
      rw [encode_one (UInt8.lt_iff_toNat_lt.1 hb), UInt8.ofNat_toNat]
    have hheads := Heads.scalar (Char.ofNat b.toNat) rest
    rw [hchar] at hheads
    exact ⟨_, rest, hheads, readAll_single hb rest⟩
  cases hlead : Owed.ofLead? b with
  | none => exact ⟨_, rest, .illFormed (.of_unled hb hlead rest), by
      simp [readAll, read, readLead, hb, hlead, char]⟩
  | some owed =>
    rcases owed.completes_or_breaks rest with ⟨v, n, q, rfl, h⟩ | ⟨u, q, rfl, h⟩
    · have hheads := Heads.scalar (Char.ofNat n) q
      rw [encode_of_completes hlead h] at hheads
      exact ⟨_, q, hheads, by rw [readAll_lead hlead, h.readAll]; rfl⟩
    · exact ⟨_, q, .illFormed (.of_breaks hlead h), by rw [readAll_lead hlead, h.readAll]; rfl⟩

end Part

/-- A byte string split from left to right into well-formed sequences and maximal ill-formed
subparts. -/
inductive Splits : Bytes → List Part → Prop
  | nil : Splits [] []
  | cons {part : Part} {p q : Bytes} {ps : List Part} (head : part.Heads p q) (rest : Splits q ps) :
    Splits p (part :: ps)

namespace Splits

variable {p : Bytes} {ps ps' : List Part}

/-- No byte string is split in two ways. -/
theorem unique (h : Splits p ps) (h' : Splits p ps') : ps = ps' := by
  induction h generalizing ps' with
  | nil =>
    cases h' with
    | nil => rfl
    | cons head => exact absurd head.length_lt (Nat.not_lt_zero _)
  | cons head rest ih =>
    cases h' with
    | nil => exact absurd head.length_lt (Nat.not_lt_zero _)
    | cons head' rest' =>
      obtain ⟨rfl, rfl⟩ := head.unique head'
      rw [ih rest']

theorem length_le (h : Splits p ps) : ps.length ≤ p.length := by
  induction h with
  | nil => exact Nat.le_refl _
  | cons head _ ih =>
    have hlt := head.length_lt
    rw [List.length_cons]
    omega

theorem eq_nil_iff (h : Splits p ps) : ps = [] ↔ p = [] := by
  cases h with
  | nil => exact ⟨fun _ => rfl, fun _ => rfl⟩
  | cons head =>
    refine ⟨nofun, ?_⟩
    rintro rfl
    exact absurd head.length_lt (Nat.not_lt_zero _)

/-- Every byte string is split, and it is read part by part. -/
theorem exists_readAll (p : Bytes) : ∃ ps, Splits p ps ∧ readAll none p = ps.map Part.char := by
  induction hn : p.length using Nat.strongRecOn generalizing p with
  | _ n ih =>
    cases p with
    | nil => exact ⟨[], .nil, rfl⟩
    | cons b rest =>
      obtain ⟨part, q, hheads, hread⟩ := Part.exists_heads b rest
      obtain ⟨ps, hps, hrest⟩ := ih q.length (hn ▸ hheads.length_lt) q rfl
      exact ⟨part :: ps, .cons hheads hps, by rw [hread, hrest, List.map_cons]⟩

end Splits

/-- The bytes of a text are read as the text, and what follows them as if it stood alone. -/
theorem readAll_encode_append (s : String) (q : Bytes) :
    readAll none (encode s ++ q) = s.toList ++ readAll none q := by
  unfold encode
  induction s.toList with
  | nil => rfl
  | cons c cs ih =>
    rw [List.flatMap_cons, List.append_assoc, readAll_encode, ih, List.cons_append]

/-! ## Decoding -/

/-- What a decoding of bytes has to do that tolerates ill-formed ones. -/
structure Tolerant (text : Bytes → String) : Prop where
  exact : ∀ s, text (encode s) = s
  append : ∀ s q, text (encode s ++ q) = s ++ text q
  /-- The text is that of the only split. -/
  split : ∀ p, ∃ ps, Splits p ps ∧ (∀ ps', Splits p ps' → ps' = ps) ∧
    text p = String.ofList (ps.map Part.char)
  /-- Surrogates are no scalar values. -/
  scalar : ∀ p, ∀ c ∈ (text p).toList,
    c.toNat < 0xD800 ∨ 0xDFFF < c.toNat ∧ c.toNat < 0x110000
  length_le : ∀ p, (text p).length ≤ p.length
  eq_empty_iff : ∀ p, text p = "" ↔ p = []

theorem decode_encode_append (s : String) (q : Bytes) : decode (encode s ++ q) = s ++ decode q := by
  rw [decode, decode, readAll_encode_append, String.ofList_append, String.ofList_toList]

/-- Decoding tolerates ill-formed sequences. -/
theorem tolerant_decode : Tolerant decode where
  exact s := by
    have h := decode_encode_append s []
    rw [List.append_nil] at h
    exact h.trans String.append_empty
  append := decode_encode_append
  split p := by
    obtain ⟨ps, hps, hread⟩ := Splits.exists_readAll p
    exact ⟨ps, hps, fun _ h => h.unique hps, by rw [decode, hread]⟩
  scalar _ c _ := c.valid
  length_le p := by
    obtain ⟨ps, hps, hread⟩ := Splits.exists_readAll p
    rw [decode, hread, String.length_ofList, List.length_map]
    exact hps.length_le
  eq_empty_iff p := by
    obtain ⟨ps, hps, hread⟩ := Splits.exists_readAll p
    rw [decode, hread, String.ofList_eq_empty_iff, List.map_eq_nil_iff]
    exact hps.eq_nil_iff

/-- An overlong form is broken off at once, so it is three subparts; a sequence without its last
byte is one. -/
example : decode [0x61, 0xE0, 0x80, 0xAF, 0x62, 0xE2, 0x82] = "a\ufffd\ufffd\ufffdb\ufffd" := by
  decide +kernel

end RollupEngine.Utf8
