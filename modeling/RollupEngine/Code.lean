import RollupEngine.Bytes
import RollupEngine.Text.Numeral

/-!
# Code numbers

Host and machine name reasons and commands by small integers. `Coded` gives the members of such an
enumeration in their order, each with its code and its symbol. `Coded.ofCode?` reads a code back,
and `Coded.describe?` is its text in diagnostics: the symbol of a code that is known, the number in
decimal for any other. A number that is too long for a numeral has no such text.
-/

namespace RollupEngine

/-- An enumeration whose members have distinct integer codes. -/
class Coded (α : Type) where
  all : List α
  code : α → Int
  symbol : α → String
  mem_all : ∀ a, a ∈ all
  code_injective : ∀ a b, code a = code b → a = b

namespace Coded

variable {α : Type} [Coded α]

/-- The member with a code. -/
def ofCode? (α : Type) [Coded α] (n : Int) : Option α :=
  (all : List α).find? fun a => code a = n

/-- The text of a code, or `none` for an unknown one that is too long to be written. -/
def describe? (α : Type) [Coded α] (n : Int) : Option String :=
  match ofCode? α n with
  | some a => some (symbol a)
  | none => Numeral.write? n

/-- The text that a code has, or would have without a limit to its length. -/
def describe (α : Type) [Coded α] (n : Int) : String :=
  match ofCode? α n with
  | some a => symbol a
  | none => toString n

theorem ofCode?_eq_some_iff {n : Int} {a : α} : ofCode? α n = some a ↔ code a = n := by
  constructor
  · intro h
    simpa using List.find?_some h
  · rintro rfl
    cases h : ofCode? α (code a) with
    | none =>
      have := List.find?_eq_none.1 h a (mem_all a)
      simp at this
    | some b =>
      have hb : code b = code a := by simpa using List.find?_some h
      rw [code_injective b a hb]

theorem describe_code (a : α) : describe α (code a) = symbol a := by
  simp [describe, ofCode?_eq_some_iff.2 rfl]

theorem describe_eq_of_describe? {n : Int} {s : String} (h : describe? α n = some s) :
    describe α n = s := by
  unfold describe? at h
  unfold describe
  split at h
  · exact Option.some.inj h
  · unfold Numeral.write? at h
    split at h
    · exact Option.some.inj h
    · cases h

/-- A code has no text only if it is unknown, and too long for a numeral. -/
theorem describe?_eq_none_iff {n : Int} :
    describe? α n = none ↔ ofCode? α n = none ∧ Numeral.limit ≤ n.natAbs := by
  unfold describe?
  split
  case h_1 _ h => simp [h]
  case h_2 h => simp [Numeral.write?, h]

end Coded

/-- Why a run of the machine came back to the host. -/
inductive BreakReason where
  | failed | halted | yieldedManually | yieldedAutomatically | yieldedSoftly | reachedTarget
  deriving DecidableEq, Repr

instance : Coded BreakReason where
  all := [.failed, .halted, .yieldedManually, .yieldedAutomatically, .yieldedSoftly,
    .reachedTarget]
  code
    | .failed => 0
    | .halted => 1
    | .yieldedManually => 2
    | .yieldedAutomatically => 3
    | .yieldedSoftly => 4
    | .reachedTarget => 5
  symbol
    | .failed => "FAILED"
    | .halted => "HALTED"
    | .yieldedManually => "YIELDED_MANUALLY"
    | .yieldedAutomatically => "YIELDED_AUTOMATICALLY"
    | .yieldedSoftly => "YIELDED_SOFTLY"
    | .reachedTarget => "REACHED_TARGET_MCYCLE"
  mem_all a := by cases a <;> decide
  code_injective a b := by cases a <;> cases b <;> decide

/-- How the guest yields: it goes on by itself, or waits for an answer. -/
inductive YieldCommand where
  | automatic | manual
  deriving DecidableEq, Repr

instance : Coded YieldCommand where
  all := [.automatic, .manual]
  code
    | .automatic => 0
    | .manual => 1
  symbol
    | .automatic => "AUTOMATIC"
    | .manual => "MANUAL"
  mem_all a := by cases a <;> decide
  code_injective a b := by cases a <;> cases b <;> decide

/-- What an automatic yield is for. -/
inductive AutomaticReason where
  | progress | output | report
  deriving DecidableEq, Repr

instance : Coded AutomaticReason where
  all := [.progress, .output, .report]
  code
    | .progress => 1
    | .output => 2
    | .report => 4
  symbol
    | .progress => "PROGRESS"
    | .output => "TX_OUTPUT"
    | .report => "TX_REPORT"
  mem_all a := by cases a <;> decide
  code_injective a b := by cases a <;> cases b <;> decide

/-- What a manual yield is for. -/
inductive ManualReason where
  | accepted | rejected | exception
  deriving DecidableEq, Repr

instance : Coded ManualReason where
  all := [.accepted, .rejected, .exception]
  code
    | .accepted => 1
    | .rejected => 2
    | .exception => 4
  symbol
    | .accepted => "RX_ACCEPTED"
    | .rejected => "RX_REJECTED"
    | .exception => "TX_EXCEPTION"
  mem_all a := by cases a <;> decide
  code_injective a b := by cases a <;> cases b <;> decide

/-- What the host asks of the machine with a yield response. -/
inductive RequestReason where
  | advance | inspect
  deriving DecidableEq, Repr

instance : Coded RequestReason where
  all := [.advance, .inspect]
  code
    | .advance => 0
    | .inspect => 1
  symbol
    | .advance => "ADVANCE_STATE"
    | .inspect => "INSPECT_STATE"
  mem_all a := by cases a <;> decide
  code_injective a b := by cases a <;> cases b <;> decide

/-- What a machine that yielded holds for the host. -/
structure YieldRequest where
  command : Int
  reason : Int
  payload : Bytes := []
  deriving DecidableEq, Repr

end RollupEngine
