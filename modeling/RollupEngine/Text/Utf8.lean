import RollupEngine.Bytes

/-!
# UTF-8 text in byte strings

A guest describes its exception in bytes, and the host shows it as text whatever the bytes are.
`Utf8.decode` reads well-formed sequences as their scalar values and puts one U+FFFD in the place
of every maximal ill-formed subpart: the longest start of a well-formed sequence that is broken
off, or else a single byte. The reader is a machine that takes one byte at a time. Between
characters it owes nothing; inside a sequence it knows (`Owed`) the bits read so far, the range
of the next byte, and how many more bytes follow that one. The narrow ranges after E0, ED, F0 and
F4 keep out overlong forms, surrogates, and values above U+10FFFF.
-/

namespace RollupEngine.Utf8

/-- The bytes of a text. -/
def encode (s : String) : Bytes :=
  s.toList.flatMap String.utf8EncodeChar

/-- What stands in for a part that cannot be decoded. -/
def replacement : Char := '\ufffd'

/-! ## The reader -/

/-- The rest of a sequence that has begun: the bits read, the range of the next byte, and the
number of continuation bytes after it. -/
structure Owed where
  bits : Nat
  low : UInt8 := 0x80
  high : UInt8 := 0xBF
  after : Nat
  deriving DecidableEq, Repr

/-- What a lead byte of more than one byte's sequence owes; `none` for a byte that leads none. -/
def Owed.ofLead? (b : UInt8) : Option Owed :=
  if 0xC2 ≤ b ∧ b ≤ 0xDF then some { bits := b.toNat - 0xC0, after := 0 }
  else if b = 0xE0 then some { bits := 0, low := 0xA0, after := 1 }
  else if b = 0xED then some { bits := 0xD, high := 0x9F, after := 1 }
  else if 0xE1 ≤ b ∧ b ≤ 0xEF then some { bits := b.toNat - 0xE0, after := 1 }
  else if b = 0xF0 then some { bits := 0, low := 0x90, after := 2 }
  else if 0xF1 ≤ b ∧ b ≤ 0xF3 then some { bits := b.toNat - 0xF0, after := 2 }
  else if b = 0xF4 then some { bits := 4, high := 0x8F, after := 2 }
  else none

/-- Read a byte between characters: the characters it yields, and what is owed after it. -/
def readLead (b : UInt8) : List Char × Option Owed :=
  if b < 0x80 then ([Char.ofNat b.toNat], none)
  else match Owed.ofLead? b with
    | some owed => ([], some owed)
    | none => ([replacement], none)

/-- Read a byte inside a sequence. One that is out of range breaks the sequence off and is read
again as a lead byte. -/
def Owed.read (owed : Owed) (b : UInt8) : List Char × Option Owed :=
  if owed.low ≤ b ∧ b ≤ owed.high then
    let bits := owed.bits * 64 + (b.toNat - 0x80)
    match owed.after with
    | 0 => ([Char.ofNat bits], none)
    | after + 1 => ([], some { bits, after })
  else (replacement :: (readLead b).1, (readLead b).2)

/-- Read a byte in either state. -/
def read : Option Owed → UInt8 → List Char × Option Owed
  | none, b => readLead b
  | some owed, b => owed.read b

/-- Read bytes to the end. A sequence cut off by the end is one ill-formed subpart. -/
def readAll : Option Owed → Bytes → List Char
  | none, [] => []
  | some _, [] => [replacement]
  | owed, b :: rest => (read owed b).1 ++ readAll (read owed b).2 rest

/-- The text of a byte string, with one U+FFFD for every maximal ill-formed subpart. -/
def decode (p : Bytes) : String :=
  String.ofList (readAll none p)

end RollupEngine.Utf8
