/-!
# Byte strings

Payloads, reports and ledger entries are byte strings. Besides them a machine speaks one number
format, the 32-bit little-endian word: `Bytes.word32` writes it and `Bytes.word32?` reads the first
four bytes of a string as one. `word32?_word32_append` is the round trip, and
`word32?_eq_some_iff` says that reading a word inverts writing it.
-/

namespace RollupEngine

/-- A byte string. -/
abbrev Bytes := List UInt8

namespace Bytes

/-- The four bytes of `n` modulo `2 ^ 32`, least significant first. -/
def word32 (n : Nat) : Bytes :=
  [UInt8.ofNat n, UInt8.ofNat (n / 256), UInt8.ofNat (n / 65536), UInt8.ofNat (n / 16777216)]

/-- The word in the first four bytes, if there are as many. -/
def word32? : Bytes → Option Nat
  | a :: b :: c :: d :: _ =>
    some (a.toNat + 256 * b.toNat + 65536 * c.toNat + 16777216 * d.toNat)
  | _ => none

@[simp]
theorem length_word32 (n : Nat) : (word32 n).length = 4 := rfl

theorem word32?_word32_append {n : Nat} (h : n < 4294967296) (t : Bytes) :
    word32? (word32 n ++ t) = some n := by
  simp only [word32, List.cons_append, word32?, UInt8.toNat_ofNat', Option.some.injEq]
  omega

theorem word32?_eq_none_iff {p : Bytes} : word32? p = none ↔ p.length < 4 := by
  rcases p with _ | ⟨a, _ | ⟨b, _ | ⟨c, _ | ⟨d, t⟩⟩⟩⟩ <;> simp [word32?]

theorem word32?_eq_some_iff {p : Bytes} {n : Nat} :
    word32? p = some n ↔ n < 4294967296 ∧ ∃ t, p = word32 n ++ t := by
  constructor
  · intro h
    rcases p with _ | ⟨a, _ | ⟨b, _ | ⟨c, _ | ⟨d, t⟩⟩⟩⟩ <;> simp only [word32?, reduceCtorEq] at h
    have ha := a.toNat_lt
    have hb := b.toNat_lt
    have hc := c.toNat_lt
    have hd := d.toNat_lt
    obtain rfl := Option.some.inj h
    refine ⟨by omega, t, ?_⟩
    simp only [word32, List.cons_append, List.nil_append, List.cons.injEq, and_true,
      ← UInt8.toNat_inj, UInt8.toNat_ofNat']
    omega
  · rintro ⟨h, t, rfl⟩
    exact word32?_word32_append h t

end Bytes

end RollupEngine
