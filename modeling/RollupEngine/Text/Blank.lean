/-!
# White space around a value

Settings are written by hand, so white space around them does not count. `isBlank` is the
property of a character to be white space in Unicode, with the four separators U+001C to U+001F;
`isNumeralBlank` is the smaller class around a number, in which those four do not belong. `strip`
takes the characters of a class away on both ends, and no others.
-/

namespace RollupEngine.Text

/-- Runs of code points, first and last, that are white space outside ASCII. -/
def wideBlanks : List (Nat × Nat) :=
  [(0x85, 0x85), (0xA0, 0xA0), (0x1680, 0x1680), (0x2000, 0x200A), (0x2028, 0x2029),
    (0x202F, 0x202F), (0x205F, 0x205F), (0x3000, 0x3000)]

/-- White space outside ASCII. -/
def isWideBlank (c : Char) : Bool :=
  wideBlanks.any fun r => r.1 ≤ c.toNat && c.toNat ≤ r.2

/-- White space around a number: tab to carriage return, the space, and all that is not ASCII. -/
def isNumeralBlank (c : Char) : Bool :=
  (0x09 ≤ c.toNat && c.toNat ≤ 0x0D) || c = ' ' || isWideBlank c

/-- White space of any kind. -/
def isBlank (c : Char) : Bool :=
  (0x1C ≤ c.toNat && c.toNat ≤ 0x1F) || isNumeralBlank c

/-- A text without the characters of a class on either end. -/
def strip (p : Char → Bool) (s : List Char) : List Char :=
  ((s.dropWhile p).reverse.dropWhile p).reverse

theorem isBlank_of_isWhitespace {c : Char} (h : c.isWhitespace) : isBlank c := by
  simp only [Char.isWhitespace, Bool.or_eq_true, decide_eq_true_eq] at h
  rcases h with ((rfl | rfl) | rfl) | rfl <;> decide

/-- What is left after stripping does not begin with a character of the class. -/
theorem head?_strip {p : Char → Bool} {s : List Char} {c : Char}
    (h : (strip p s).head? = some c) : p c = false := by
  have hpre : strip p s <+: s.dropWhile p := by
    simpa [strip] using
      (List.reverse_prefix.2 (List.dropWhile_suffix p (l := (s.dropWhile p).reverse)))
  obtain ⟨t, ht⟩ := hpre
  have hd : (s.dropWhile p).head? = some c := by
    rw [← ht, List.head?_append, h]
    rfl
  simpa [hd] using List.head?_dropWhile_not p s

/-- What is left after stripping does not end with a character of the class. -/
theorem getLast?_strip {p : Char → Bool} {s : List Char} {c : Char}
    (h : (strip p s).getLast? = some c) : p c = false := by
  rw [strip, List.getLast?_reverse] at h
  simpa [h] using List.head?_dropWhile_not p (s.dropWhile p).reverse

end RollupEngine.Text
