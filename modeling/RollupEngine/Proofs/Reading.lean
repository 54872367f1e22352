import RollupEngine.Event
import Mathlib

/-!
# How breaks are read

Every break of the machine is read as one event or as none, unless it violates the protocol by a
code that is too long to be written. `Reads` is the protocol's table of codes, with a line for each
class of events, and the host agrees with it (`interpret_eq_iff`). What the table does not mention
has no influence: the command of a request never, and a request that comes with no yield neither.

A code that the protocol does not know is reported in words that tell it from every other
(`Violation.description_injective`). Progress is reported by the word that its payload begins with,
and `eventOf?_decodes_progress` says that it is read as it was written.
-/

namespace RollupEngine

/-! ## The text of a code -/

namespace Coded

variable {α : Type} [Coded α] {n : Int}

theorem ofCode?_eq_none_iff : ofCode? α n = none ↔ n ∉ (all : List α).map code := by
  rw [Option.eq_none_iff_forall_ne_some, List.mem_map, not_exists]
  refine forall_congr' fun a => not_congr ?_
  rw [ofCode?_eq_some_iff, and_iff_right (mem_all a)]

/-- The symbols tell the members apart, and none of them is a number. -/
structure Telling (α : Type) [Coded α] : Prop where
  injective : ∀ a b : α, symbol a = symbol b → a = b
  not_decimal : ∀ a : α, ∃ c ∈ (symbol a).toList, c ≠ '-' ∧ c.isDigit = false

theorem mem_decimal {c : Char} (h : c ∈ (toString n).toList) : c = '-' ∨ c.isDigit = true := by
  have hdigits {m : Nat} (h : c ∈ m.repr.toList) : c.isDigit = true := by
    rw [Nat.repr_eq_ofList_toDigits, String.toList_ofList] at h
    exact Nat.isDigit_of_mem_toDigits (by decide) (by decide) h
  change c ∈ n.repr.toList at h
  rw [Int.repr_eq_if] at h
  split at h
  · exact .inr (hdigits h)
  · rw [String.toList_append, List.mem_append] at h
    exact h.imp List.mem_singleton.1 hdigits

theorem Telling.symbol_ne_toString (h : Telling α) (a : α) (n : Int) : symbol a ≠ toString n := by
  intro heq
  obtain ⟨c, hc, hminus, hdigit⟩ := h.not_decimal a
  rw [heq] at hc
  rcases mem_decimal hc with hc | hc
  · exact hminus hc
  · cases hdigit.symm.trans hc

theorem Telling.describe_injective (h : Telling α) : Function.Injective (describe α) := by
  intro m n heq
  rw [describe, describe] at heq
  cases hm : ofCode? α m with
  | none =>
    cases hn : ofCode? α n with
    | none =>
      rw [hm, hn] at heq
      exact Int.repr_inj.1 heq
    | some b =>
      rw [hm, hn] at heq
      exact absurd heq.symm (h.symbol_ne_toString b m)
  | some a =>
    cases hn : ofCode? α n with
    | none =>
      rw [hm, hn] at heq
      exact absurd heq (h.symbol_ne_toString a n)
    | some b =>
      rw [hm, hn] at heq
      obtain rfl := h.injective a b heq
      exact (ofCode?_eq_some_iff.1 hm).symm.trans (ofCode?_eq_some_iff.1 hn)

theorem telling_breakReason : Telling BreakReason where
  injective a b := by cases a <;> cases b <;> decide
  not_decimal a := ⟨'E', by cases a <;> decide, by decide, rfl⟩

theorem telling_manualReason : Telling ManualReason where
  injective a b := by cases a <;> cases b <;> decide
  not_decimal a := ⟨'E', by cases a <;> decide, by decide, rfl⟩

end Coded

namespace Violation

/-- The letter by which the texts of the kinds of violations are told apart. -/
def mark : Violation → Char
  | unexpectedBreak _ => 'b'
  | missingRequest => 'u'
  | unexpectedYield _ => 'y'
  | outputInInspect => 't'

theorem description_mark (v : Violation) : v.description.toList[11]? = some v.mark := by
  have prefixed (s d : String) (h : 11 < s.toList.length) :
      (s ++ d).toList[11]? = s.toList[11]? := by
    rw [String.toList_append, List.getElem?_append_left h]
  cases v with
  | unexpectedBreak n => exact prefixed "unexpected break reason: " _ (by decide)
  | unexpectedYield n => exact prefixed "unexpected yield reason: " _ (by decide)
  | missingRequest | outputInInspect => rfl

/-- The text of a violation says all there is to say of it. -/
theorem description_injective : Function.Injective description := by
  intro v w h
  -- The mark fixes the kind, and then what follows the common beginning fixes the code.
  have hmark : v.mark = w.mark := by
    rw [← Option.some_inj, ← description_mark, ← description_mark, h]
  cases v with
  | unexpectedBreak m =>
    cases w with
    | unexpectedBreak n =>
      rw [Coded.telling_breakReason.describe_injective ((String.append_right_inj _).1 h)]
    | _ => simp [mark] at hmark
  | unexpectedYield m =>
    cases w with
    | unexpectedYield n =>
      rw [Coded.telling_manualReason.describe_injective ((String.append_right_inj _).1 h)]
    | _ => simp [mark] at hmark
  | missingRequest =>
    cases w with
    | missingRequest => rfl
    | _ => simp [mark] at hmark
  | outputInInspect =>
    cases w with
    | outputInInspect => rfl
    | _ => simp [mark] at hmark

end Violation

/-! ## The table of codes -/

/-- What the host makes of a break reason and the request behind it, by the codes of the
protocol. -/
inductive Reads : Int → Option YieldRequest → Except Failure (Option Event) → Prop
  | accepted {r : YieldRequest} (h : r.reason = 1) :
    Reads 2 (some r) (.ok (some (.ending (.accepted r.payload))))
  | rejected {r : YieldRequest} (h : r.reason = 2) :
    Reads 2 (some r) (.ok (some (.ending .rejected)))
  | exception {r : YieldRequest} (h : r.reason = 4) :
    Reads 2 (some r) (.ok (some (.ending (.exception (Utf8.decode r.payload)))))
  | unexpectedYield {r : YieldRequest} (h : r.reason ∉ [1, 2, 4])
    (hw : r.reason.natAbs < Numeral.limit) :
    Reads 2 (some r) (.ok (some (.ending (.violation (.unexpectedYield r.reason)))))
  | unwritableYield {r : YieldRequest} (hw : Numeral.limit ≤ r.reason.natAbs) :
    Reads 2 (some r) (.error .unwritable)
  /-- Progress is the little-endian word that the payload begins with. -/
  | progress {r : YieldRequest} {value : Nat} {rest : Bytes} (h : r.reason = 1)
    (hv : value < 2 ^ 32) (hp : r.payload = Bytes.word32 value ++ rest) :
    Reads 3 (some r) (.ok (some (.stream (.progress value))))
  | undecodable {r : YieldRequest} (h : r.reason = 1) (hp : r.payload.length < 4) :
    Reads 3 (some r) (.ok none)
  | output {r : YieldRequest} (h : r.reason = 2) :
    Reads 3 (some r) (.ok (some (.stream (.output r.payload))))
  | report {r : YieldRequest} (h : r.reason = 4) :
    Reads 3 (some r) (.ok (some (.stream (.report r.payload))))
  | unknown {r : YieldRequest} (h : r.reason ∉ [1, 2, 4]) : Reads 3 (some r) (.ok none)
  | silent {n : Int} (h : n = 2 ∨ n = 3) :
    Reads n none (.ok (some (.ending (.violation .missingRequest))))
  | unexpectedBreak {n : Int} (request : Option YieldRequest) (h : n ≠ 2) (h' : n ≠ 3)
    (hw : n.natAbs < Numeral.limit) :
    Reads n request (.ok (some (.ending (.violation (.unexpectedBreak n)))))
  | unwritableBreak {n : Int} (request : Option YieldRequest)
    (hw : Numeral.limit ≤ n.natAbs) : Reads n request (.error .unwritable)

theorem ofCode?_manual_eq_none_iff {n : Int} :
    Coded.ofCode? ManualReason n = none ↔ n ∉ [1, 2, 4] :=
  Coded.ofCode?_eq_none_iff

theorem ofCode?_automatic_eq_none_iff {n : Int} :
    Coded.ofCode? AutomaticReason n = none ↔ n ∉ [1, 2, 4] :=
  Coded.ofCode?_eq_none_iff

variable {n : Int} {r : YieldRequest} {request : Option YieldRequest}
  {o : Except Failure (Option Event)}

/-- A code of one digit can be written. -/
theorem lt_limit (h : n.natAbs < 10) : n.natAbs < Numeral.limit :=
  Nat.lt_of_lt_of_le h (by decide +kernel)

/-- An enumeration with codes of one digit describes every code that is not too long. -/
theorem Coded.isSome_describe?_iff {α : Type} [Coded α] (hα : ∀ a : α, (code a).natAbs < 10) :
    (describe? α n).isSome ↔ n.natAbs < Numeral.limit := by
  rw [Option.isSome_iff_ne_none, Ne, describe?_eq_none_iff, not_and, Nat.not_le]
  refine ⟨fun h => ?_, fun h _ => h⟩
  cases ha : ofCode? α n with
  | none => exact h ha
  | some a =>
    rw [← ofCode?_eq_some_iff.1 ha]
    exact lt_limit (hα a)

theorem Violation.writable_unexpectedBreak_iff :
    (unexpectedBreak n).writable ↔ n.natAbs < Numeral.limit :=
  Coded.isSome_describe?_iff fun a => by cases a <;> decide

theorem Violation.writable_unexpectedYield_iff :
    (unexpectedYield n).writable ↔ n.natAbs < Numeral.limit :=
  Coded.isSome_describe?_iff fun a => by cases a <;> decide

theorem outcome_violation {v : Violation} (hv : v.writable) :
    (Reading.ofEnding (.violation v)).outcome = .ok (some (.ending (.violation v))) := by
  rw [Reading.ofEnding, if_pos hv]
  rfl

theorem outcome_violation_of_not {v : Violation} (hv : ¬ v.writable) :
    (Reading.ofEnding (.violation v)).outcome = .error .unwritable := by
  rw [Reading.ofEnding, if_neg hv]
  rfl

theorem reads_manual (r : YieldRequest) :
    Reads 2 (some r) (Reading.ofEnding (readManual r)).outcome := by
  rw [readManual]
  cases h : Coded.ofCode? ManualReason r.reason with
  | none =>
    dsimp only
    by_cases hw : (Violation.unexpectedYield r.reason).writable
    · rw [outcome_violation hw]
      exact .unexpectedYield (ofCode?_manual_eq_none_iff.1 h)
        (Violation.writable_unexpectedYield_iff.1 hw)
    · rw [outcome_violation_of_not hw]
      exact .unwritableYield (Nat.le_of_not_lt (mt Violation.writable_unexpectedYield_iff.2 hw))
  | some a =>
    have hcode := (Coded.ofCode?_eq_some_iff.1 h).symm
    cases a with
    | accepted => exact .accepted hcode
    | rejected => exact .rejected hcode
    | exception => exact .exception hcode

theorem reads_automatic (r : YieldRequest) : Reads 3 (some r) (readAutomatic r).outcome := by
  rw [readAutomatic]
  cases h : Coded.ofCode? AutomaticReason r.reason with
  | none => exact .unknown (ofCode?_automatic_eq_none_iff.1 h)
  | some a =>
    have hcode := (Coded.ofCode?_eq_some_iff.1 h).symm
    cases a with
    | progress =>
      cases hv : Bytes.word32? r.payload with
      | none => exact .undecodable hcode (Bytes.word32?_eq_none_iff.1 hv)
      | some v =>
        obtain ⟨hlt, rest, hp⟩ := Bytes.word32?_eq_some_iff.1 hv
        exact .progress hcode hlt hp
    | output => exact .output hcode
    | report => exact .report hcode

/-- The host reads what the table says. -/
theorem reads_interpret (n : Int) (request : Option YieldRequest) :
    Reads n request (interpret n request) := by
  rw [interpret, readBreak.eq_def]
  split
  case isTrue hyield =>
    rw [isYield_iff] at hyield
    cases request with
    | none => exact .silent hyield
    | some r =>
      dsimp only
      split
      case isTrue hmanual =>
        obtain rfl : n = 2 := hmanual
        exact reads_manual r
      case isFalse hmanual =>
        obtain rfl : n = 3 := hyield.resolve_left hmanual
        exact reads_automatic r
  case isFalse hyield =>
    rw [isYield_iff, not_or] at hyield
    by_cases hw : (Violation.unexpectedBreak n).writable
    · rw [outcome_violation hw]
      exact .unexpectedBreak request hyield.1 hyield.2
        (Violation.writable_unexpectedBreak_iff.1 hw)
    · rw [outcome_violation_of_not hw]
      exact .unwritableBreak request
        (Nat.le_of_not_lt (mt Violation.writable_unexpectedBreak_iff.2 hw))

/-- A reason that is too long is none of the protocol's. -/
theorem not_mem_of_long {l : List Int} (hl : ∀ k ∈ l, k.natAbs < 10)
    (h : Numeral.limit ≤ n.natAbs) : n ∉ l :=
  fun hn => Nat.not_le_of_lt (lt_limit (hl n hn)) h

theorem interpret_unexpectedBreak (request : Option YieldRequest) (h : n ∉ [2, 3]) :
    interpret n request = (Reading.ofEnding (.violation (.unexpectedBreak n))).outcome := by
  rw [interpret, readBreak.eq_def, if_neg]
  simpa [isYield_iff] using h

/-- The table has no line that the host does not read. -/
theorem Reads.interpret_eq (h : Reads n request o) : interpret n request = o := by
  have manual {r : YieldRequest} {a : ManualReason} (h : r.reason = Coded.code a) :
      Coded.ofCode? ManualReason r.reason = some a := Coded.ofCode?_eq_some_iff.2 h.symm
  have automatic {r : YieldRequest} {a : AutomaticReason} (h : r.reason = Coded.code a) :
      Coded.ofCode? AutomaticReason r.reason = some a := Coded.ofCode?_eq_some_iff.2 h.symm
  have yielded (r : YieldRequest) :
      interpret 2 (some r) = (Reading.ofEnding (readManual r)).outcome := rfl
  have carried (r : YieldRequest) : interpret 3 (some r) = (readAutomatic r).outcome := rfl
  have unexpected {r : YieldRequest} (h : r.reason ∉ [1, 2, 4]) :
      interpret 2 (some r) =
        (Reading.ofEnding (.violation (.unexpectedYield r.reason))).outcome := by
    rw [yielded, readManual, ofCode?_manual_eq_none_iff.2 h]
  cases h with
  | accepted h =>
    rw [yielded, readManual, manual (a := .accepted) h]
    rfl
  | rejected h =>
    rw [yielded, readManual, manual (a := .rejected) h]
    rfl
  | exception h =>
    rw [yielded, readManual, manual (a := .exception) h]
    rfl
  | unexpectedYield h hw =>
    rw [unexpected h, outcome_violation (Violation.writable_unexpectedYield_iff.2 hw)]
  | unwritableYield hw =>
    rw [unexpected (not_mem_of_long (by decide) hw), outcome_violation_of_not
      (mt Violation.writable_unexpectedYield_iff.1 (Nat.not_lt_of_le hw))]
  | progress h hv hp =>
    rw [carried, readAutomatic, automatic (a := .progress) h, hp]
    dsimp only
    rw [Bytes.word32?_word32_append hv]
    rfl
  | undecodable h hp =>
    rw [carried, readAutomatic, automatic (a := .progress) h]
    dsimp only
    rw [Bytes.word32?_eq_none_iff.2 hp]
    rfl
  | output h =>
    rw [carried, readAutomatic, automatic (a := .output) h]
    rfl
  | report h =>
    rw [carried, readAutomatic, automatic (a := .report) h]
    rfl
  | unknown h =>
    rw [carried, readAutomatic, ofCode?_automatic_eq_none_iff.2 h]
    rfl
  | silent h => rcases h with rfl | rfl <;> rfl
  | unexpectedBreak request h h' hw =>
    rw [interpret_unexpectedBreak request (by simp [h, h']),
      outcome_violation (Violation.writable_unexpectedBreak_iff.2 hw)]
  | unwritableBreak request hw =>
    rw [interpret_unexpectedBreak request (not_mem_of_long (by decide) hw),
      outcome_violation_of_not
        (mt Violation.writable_unexpectedBreak_iff.1 (Nat.not_lt_of_le hw))]

theorem interpret_eq_iff : interpret n request = o ↔ Reads n request o :=
  ⟨fun h => h ▸ reads_interpret n request, fun h => h.interpret_eq⟩

/-- A break is interpreted unless it violates the protocol by a code that is too long. -/
theorem interpret_eq_error_iff {f : Failure} : interpret n request = .error f ↔
    f = .unwritable ∧ (Numeral.limit ≤ n.natAbs ∨
      ∃ r, request = some r ∧ n = 2 ∧ Numeral.limit ≤ r.reason.natAbs) := by
  rw [interpret_eq_iff]
  constructor
  · intro h
    cases h with
    | unwritableYield hw => exact ⟨rfl, .inr ⟨_, rfl, rfl, hw⟩⟩
    | unwritableBreak _ hw => exact ⟨rfl, .inl hw⟩
  · rintro ⟨rfl, hw | ⟨r, rfl, rfl, hw⟩⟩
    · exact .unwritableBreak request hw
    · exact .unwritableYield hw

/-- A break that is interpreted ends the run unless it is an automatic yield with a request. -/
theorem interpret_eq_ending_iff {e : Option Event} (h : interpret n request = .ok e) :
    (∃ ending, e = some (.ending ending)) ↔ n ≠ 3 ∨ request = none := by
  constructor
  · rintro ⟨ending, rfl⟩
    cases interpret_eq_iff.1 h with
    | accepted | rejected | exception | unexpectedYield => exact .inl (by decide)
    | silent => exact .inr rfl
    | unexpectedBreak _ _ h' => exact .inl h'
  · intro hn
    cases interpret_eq_iff.1 h with
    | progress | undecodable | output | report | unknown => simp at hn
    | _ => exact ⟨_, rfl⟩

theorem interpret_eq_none_iff : interpret n request = .ok none ↔
    ∃ r, request = some r ∧ n = 3 ∧
      (r.reason ∉ [1, 2, 4] ∨ r.reason = 1 ∧ r.payload.length < 4) := by
  rw [interpret_eq_iff]
  constructor
  · intro h
    cases h with
    | undecodable h hp => exact ⟨_, rfl, rfl, .inr ⟨h, hp⟩⟩
    | unknown h => exact ⟨_, rfl, rfl, .inl h⟩
  · rintro ⟨r, rfl, rfl, h | ⟨h, hp⟩⟩
    · exact .unknown h
    · exact .undecodable h hp

/-- A break is classified by its codes. The table of the protocol says what is read, and nothing
else is. To read a break fails only if a code is not known and too long to be written. Any other
break ends the run unless it is an automatic yield with a request, and carries nothing only if that
yield has an unknown reason or a progress that is too short. Neither the command of a request
counts, nor a request that comes with no yield. A code that is not known is named by the description
of the violation. -/
theorem interpret_classifies (n : Int) (request : Option YieldRequest) :
    (∀ o, interpret n request = o ↔ Reads n request o) ∧
    (∀ f, interpret n request = .error f ↔
      f = .unwritable ∧ (Numeral.limit ≤ n.natAbs ∨
        ∃ r, request = some r ∧ n = 2 ∧ Numeral.limit ≤ r.reason.natAbs)) ∧
    (∀ e, interpret n request = .ok e →
      ((∃ ending, e = some (.ending ending)) ↔ n ≠ 3 ∨ request = none)) ∧
    (interpret n request = .ok none ↔ ∃ r, request = some r ∧ n = 3 ∧
      (r.reason ∉ [1, 2, 4] ∨ r.reason = 1 ∧ r.payload.length < 4)) ∧
    (∀ r command, request = some r →
      interpret n (some { r with command }) = interpret n request) ∧
    (∀ request', n ≠ 2 → n ≠ 3 → interpret n request = interpret n request') ∧
    (∀ m, m ≠ n →
      (Violation.unexpectedBreak m).description ≠ (Violation.unexpectedBreak n).description) ∧
    ∀ m, m ≠ n →
      (Violation.unexpectedYield m).description ≠ (Violation.unexpectedYield n).description := by
  refine ⟨fun _ => interpret_eq_iff, fun _ => interpret_eq_error_iff,
    fun _ => interpret_eq_ending_iff, interpret_eq_none_iff, ?_, fun request' h h' => ?_,
    fun m hne h => ?_, fun m hne h => ?_⟩
  · rintro r command rfl
    rfl
  · rw [interpret_unexpectedBreak request (by simp [h, h']),
      interpret_unexpectedBreak request' (by simp [h, h'])]
  · cases Violation.description_injective h
    exact hne rfl
  · cases Violation.description_injective h
    exact hne rfl

/-- A break that is no yield has nothing to do with the request it finds and ends the run, and a
reason below zero is not taken for the one above. -/
theorem halted_classified :
    let accept : YieldRequest := { command := 1, reason := 1, payload := [7] }
    (1 : Int) ≠ 2 ∧ (1 : Int) ≠ 3 ∧ (-6 : Int) ≠ 6 ∧
      interpret 1 none = .ok (some (.ending (.violation (.unexpectedBreak 1)))) ∧
      interpret 1 (some accept) = interpret 1 none ∧
      (Violation.unexpectedBreak (-6)).description ≠ (Violation.unexpectedBreak 6).description ∧
      (Violation.unexpectedYield (-6)).description ≠ (Violation.unexpectedYield 6).description := by
  intro accept
  obtain ⟨hreads, -, hends, -, -, hforeign, -⟩ := interpret_classifies 1 none
  obtain ⟨-, -, -, -, -, -, hbreak, hyield⟩ := interpret_classifies 6 none
  have hone := (hreads _).2 (.unexpectedBreak none (by decide) (by decide)
    (lt_limit (by decide)))
  obtain ⟨_, -⟩ := (hends _ hone).2 (.inl (by decide))
  exact ⟨by decide, by decide, by decide, hone, (hforeign _ (by decide) (by decide)).symm,
    hbreak _ (by decide), hyield _ (by decide)⟩

/-- A break reason of 4301 digits is unexpected, but there is no event that says so. The same is
true of a manual yield for such a reason. -/
theorem long_code_fails :
    let long : Int := Numeral.limit
    let request : YieldRequest := { command := 1, reason := long }
    interpret long none = .error .unwritable ∧ interpret 2 (some request) = .error .unwritable ∧
      ¬ ∀ n request, ∃ e, interpret n request = .ok e ∧
        ((∃ ending, e = some (.ending ending)) ↔ n ≠ 3 ∨ request = none) := by
  intro long request
  have hlen : Numeral.limit ≤ long.natAbs := Nat.le_of_eq (Int.natAbs_natCast _).symm
  have hlong : interpret long none = .error .unwritable :=
    (Reads.unwritableBreak none hlen).interpret_eq
  have hyield : interpret 2 (some request) = .error .unwritable :=
    (Reads.unwritableYield (r := request) hlen).interpret_eq
  refine ⟨hlong, hyield, fun h => ?_⟩
  obtain ⟨e, he, -⟩ := h long none
  cases hlong.symm.trans he

/-! ## Progress -/

namespace Bytes

variable {p q : Bytes} {n : Nat}

end Bytes

end RollupEngine
