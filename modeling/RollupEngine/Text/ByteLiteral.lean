import RollupEngine.Bytes

/-!
# Byte strings as literals

`ByteLiteral.render` writes a byte string for a log line: the letter `b`, a quote, the printable
ASCII bytes as themselves and the others escaped, and the quote again. The quote is the single one
unless the string holds a single and no double quote.
-/

namespace RollupEngine.ByteLiteral

/-- The single quotation mark. -/
def single : UInt8 := 39

/-- The double quotation mark. -/
def double : UInt8 := 34

/-- The mark that delimits a string: double where that saves escaping. -/
def quote (p : Bytes) : UInt8 :=
  if p.contains single && !p.contains double then double else single

/-- A lower-case hexadecimal digit. -/
def hexDigit (n : Nat) : Char :=
  if n < 10 then Char.ofNat (48 + n) else Char.ofNat (87 + n)

/-- One byte inside a literal that `q` delimits. -/
def escape (q b : UInt8) : List Char :=
  if b = q ∨ b = 92 then ['\\', Char.ofNat b.toNat]
  else if b = 9 then ['\\', 't']
  else if b = 10 then ['\\', 'n']
  else if b = 13 then ['\\', 'r']
  else if 0x20 ≤ b ∧ b < 0x7F then [Char.ofNat b.toNat]
  else ['\\', 'x', hexDigit (b.toNat / 16), hexDigit (b.toNat % 16)]

/-- A byte string as a literal. -/
def render (p : Bytes) : String :=
  let q := quote p
  let mark := Char.ofNat q.toNat
  String.ofList ('b' :: mark :: p.flatMap (escape q) ++ [mark])

end RollupEngine.ByteLiteral
