/-!
# Modes

The choices an engine is configured with, and the two kinds of input. `Isolation` says what a
transaction works on, `Delivery` how results are handed out, and `InputKind` what an input
is for: an advance may change the machine for good, an inspect never does.
-/

namespace RollupEngine

/-- An enumeration whose members have distinct names. -/
class Labelled (α : Type) where
  all : List α
  label : α → String
  mem_all : ∀ a, a ∈ all
  label_injective : ∀ a b, label a = label b → a = b

/-- The member with a label. -/
def Labelled.ofLabel? (α : Type) [Labelled α] (s : String) : Option α :=
  (Labelled.all : List α).find? fun a => Labelled.label a = s

theorem Labelled.ofLabel?_eq_some_iff {α : Type} [Labelled α] {s : String} {a : α} :
    ofLabel? α s = some a ↔ label a = s := by
  constructor
  · intro h
    simpa using List.find?_some h
  · rintro rfl
    cases h : ofLabel? α (label a) with
    | none =>
      have := List.find?_eq_none.1 h a (mem_all a)
      simp at this
    | some b =>
      have hb : label b = label a := by simpa using List.find?_some h
      rw [label_injective b a hb]

/-- What a transaction works on: a fork of the canonical machine, which can be discarded, or the
canonical machine itself, whose changes cannot be undone. -/
inductive Isolation where
  | isolated | direct
  deriving DecidableEq, Repr

instance : Labelled Isolation where
  all := [.isolated, .direct]
  label
    | .isolated => "isolated"
    | .direct => "direct"
  mem_all a := by cases a <;> decide
  label_injective a b := by cases a <;> cases b <;> simp

/-- How results are handed out: event by event, or collected at the end. -/
inductive Delivery where
  | stream | collect
  deriving DecidableEq, Repr

instance : Labelled Delivery where
  all := [.stream, .collect]
  label
    | .stream => "stream"
    | .collect => "collect"
  mem_all a := by cases a <;> decide
  label_injective a b := by cases a <;> cases b <;> simp

/-- What an input is for. -/
inductive InputKind where
  | advance | inspect
  deriving DecidableEq, Repr

instance : Labelled InputKind where
  all := [.advance, .inspect]
  label
    | .advance => "advance"
    | .inspect => "inspect"
  mem_all a := by cases a <;> decide
  label_injective a b := by cases a <;> cases b <;> simp

end RollupEngine
