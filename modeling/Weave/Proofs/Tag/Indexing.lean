import Weave.Proofs.Number.Value
import Weave.Proofs.Tag.Invocation

/-!
# Access by an index

The index of `nth` is a number. It is compared with the number of items as numbers are, and cut to
a position after that. All integers up to 2 ^ 53 are numbers, so for sequences that are not longer
this is access by the integer that the index is, if it is one.
-/

namespace Weave

open Number Taking

/-- What an index has to give for a sequence. -/
inductive Selects (items : List Value) (index : Number) : Except Fault Value → Prop where
  | item {k : Nat} (here : index.Represents k) (inside : k < items.length) :
      Selects items index (.ok items[k])
  | outside {n : Int} (there : index.Represents n) (out : n < 0 ∨ items.length ≤ n) :
      Selects items index (.error (.outOfRange index items.length))
  | notAnInteger (never : ∀ n, ¬index.Represents n) :
      Selects items index (.error (.notAnInteger index))

section

variable {items : List Value} {index : Number}

theorem less_zero_iff {n : Int} (integer : index.Represents n) :
    index.less .zero = true ↔ n < 0 := by
  have zero : Number.zero.Represents 0 := represents_zero rfl
  rw [less_iff integer.1 zero.1, integer.2, zero.2, Int.cast_lt]

theorem length_lessEqual_iff {n : Int} (size : items.length ≤ 2 ^ 53)
    (integer : index.Represents n) :
    (Number.ofNat items.length).lessEqual index = true ↔ items.length ≤ n := by
  have length := represents_ofNat size
  rw [lessEqual_iff length.1 integer.1, length.2, integer.2, Int.cast_le]

/-- The sequence ends long before the last position. -/
theorem length_le_lastPosition (size : items.length ≤ 2 ^ 53) : items.length ≤ lastPosition :=
  size.trans (by decide)

/-- What is refused first is exactly what is not an integer. -/
theorem not_represents_iff :
    (∀ n, ¬index.Represents n) ↔ (!index.isFinite || index.hasFraction) = true := by
  rw [Bool.or_eq_true, Bool.not_eq_true']
  constructor
  · intro never
    -- A finite number without a fraction would be the integer that is its value.
    cases finite : index.isFinite with
    | false => exact Or.inl rfl
    | true =>
      cases whole : index.hasFraction with
      | true => exact Or.inr rfl
      | false =>
        obtain ⟨n, value⟩ := (hasFraction_eq_false_iff index).mp whole
        exact absurd ⟨finite, value⟩ (never n)
  · rintro (infinite | broken) n integer
    · exact Bool.false_ne_true (infinite.symm.trans integer.1)
    · exact Bool.false_ne_true (integer.hasFraction.symm.trans broken)

/-- The comparisons of numbers leave only positions in the sequence to be cut. -/
theorem itemAt_selects (size : items.length ≤ 2 ^ 53) :
    Selects items index (itemAt items index) := by
  unfold itemAt
  split
  next refused => exact .notAnInteger (not_represents_iff.mpr refused)
  next accepted =>
    obtain ⟨n, integer⟩ : ∃ n, index.Represents n := by
      by_contra none
      exact accepted (not_represents_iff.mp (not_exists.mp none))
    -- For an integer both comparisons of numbers are comparisons of integers.
    have guard := or_congr (less_zero_iff integer) (length_lessEqual_iff size integer)
    rw [← Bool.or_eq_true] at guard
    split
    next refused => exact .outside integer (guard.mp refused)
    next accepted =>
      obtain ⟨low, high⟩ := not_or.mp (accepted ∘ guard.mpr)
      obtain ⟨k, rfl⟩ := Int.eq_ofNat_of_zero_le (Int.not_lt.mp low)
      have inside : k < items.length := by omega
      have bound : k ≤ lastPosition := inside.le.trans (length_le_lastPosition size)
      rw [integer.toPosition bound, List.getElem?_eq_getElem inside]
      exact .item integer inside

namespace Selects

variable {result : Except Fault Value}

theorem ok_iff (selects : Selects items index result) (item : Value) :
    result = .ok item ↔ ∃ k : Nat, index.Represents k ∧ items[k]? = some item := by
  cases selects with
  | @item k here inside =>
    constructor
    · rintro ⟨⟩
      exact ⟨k, here, List.getElem?_eq_getElem inside⟩
    · rintro ⟨other, there, found⟩
      -- A number is one integer at most, so there is one item to choose.
      obtain rfl : k = other := Int.ofNat_inj.mp (here.unique there)
      rw [List.getElem?_eq_getElem inside] at found
      rw [Option.some.inj found]
  | outside there out =>
    refine iff_of_false (by simp) ?_
    rintro ⟨k, here, found⟩
    have inside := (List.getElem?_eq_some_iff.mp found).1
    have same := there.unique here
    omega
  | notAnInteger never =>
    exact iff_of_false (by simp) fun ⟨k, here, _⟩ => never k here

theorem typeMismatch_iff (selects : Selects items index result) :
    (∃ fault, result = .error fault ∧ fault.code.name = "E200") ↔
      ∀ n, ¬index.Represents n := by
  cases selects with
  | item here inside => exact iff_of_false (by simp) fun never => never _ here
  | outside there out =>
    exact iff_of_false (by simp [Fault.code, ErrorCode.name]) fun never => never _ there
  | notAnInteger never => exact iff_of_true ⟨_, rfl, rfl⟩ never

theorem indexOutOfRange_iff (selects : Selects items index result) :
    (∃ fault, result = .error fault ∧ fault.code.name = "E201") ↔
      ∃ n, index.Represents n ∧ (n < 0 ∨ items.length ≤ n) := by
  cases selects with
  | item here inside =>
    refine iff_of_false (by simp) ?_
    rintro ⟨n, there, out⟩
    have same := there.unique here
    omega
  | outside there out => exact iff_of_true ⟨_, rfl, rfl⟩ ⟨_, there, out⟩
  | notAnInteger never =>
    exact iff_of_false (by simp [Fault.code, ErrorCode.name]) fun ⟨n, there, _⟩ => never n there

/-- What is selected is at the position to which the index is cut. -/
theorem position_lt {item : Value} (size : items.length ≤ 2 ^ 53)
    (selects : Selects items index (.ok item)) : index.toPosition < items.length := by
  cases selects with
  | item here inside =>
    have bound := inside.le.trans (length_le_lastPosition size)
    rwa [here.toPosition bound]

end Selects

end

/-! ### Calls -/

/-- What a report is about is the fault of the tag. -/
theorem exists_violation_iff {result : Except Fault Value} {name code : String} :
    (∃ violation, (result.mapError fun fault => fault.violation.withTag name) = .error violation ∧
      violation.code.name = code) ↔ ∃ fault, result = .error fault ∧ fault.code.name = code := by
  cases result with
  | ok value => simp [Except.mapError]
  | error fault => simp [Except.mapError, Violation.withTag, Fault.violation]

theorem ok_mapError_iff {result : Except Fault Value} {item : Value} (name : String) :
    (result.mapError fun fault => fault.violation.withTag name) = .ok item ↔
      result = .ok item := by
  cases result <;> simp [Except.mapError]

section

variable {items : List Value} {call : Invocation} {arguments : Arguments}

theorem invoke_name (tag : Tag) (binding : Arguments.bind tag.parameters call = .ok arguments) :
    invoke tag.name call =
      (tag.value.on arguments).1.mapError fun fault => fault.violation.withTag tag.name := by
  rw [invoke_of_found (Tag.ofName?_name tag), Tag.apply_of_bind binding]

theorem invoke_first (binding : Arguments.bind Tag.first.parameters call = .ok arguments)
    (sequence : arguments.bound.get? "value" = some (.list items)) :
    invoke "first" call = .ok (items[0]?.getD .nothing) := by
  have value : (Tag.first.value.on arguments).1 = .ok (items.head?.getD .nothing) := by
    rw [Tag.value, on_bind, on_list sequence]
    rfl
  have run := invoke_name .first binding
  rw [value, List.head?_eq_getElem?] at run
  exact run

theorem invoke_last (binding : Arguments.bind Tag.last.parameters call = .ok arguments)
    (sequence : arguments.bound.get? "value" = some (.list items)) :
    invoke "last" call = .ok (items[items.length - 1]?.getD .nothing) := by
  have value : (Tag.last.value.on arguments).1 = .ok (items.getLast?.getD .nothing) := by
    rw [Tag.value, on_bind, on_list sequence]
    rfl
  have run := invoke_name .last binding
  rw [value, List.getLast?_eq_getElem?] at run
  exact run

/-- `nth` gives the item at the integer that the index is. It refuses as a mismatch what is no
integer, and as out of range every other integer; its last resort, the empty sequence, is never
needed. The integers 0 and one less than the length give what `first` and `last` give. -/
theorem invoke_nth {index : Number} (size : items.length ≤ 2 ^ 53)
    (binding : Arguments.bind Tag.nth.parameters call = .ok arguments)
    (sequence : arguments.bound.get? "value" = some (.list items))
    (position : arguments.bound.get? "index" = some (.number index)) :
    (∀ item, invoke "nth" call = .ok item ↔
      ∃ k : Nat, index.Represents k ∧ items[k]? = some item) ∧
    ((∃ violation, invoke "nth" call = .error violation ∧ violation.code.name = "E200") ↔
      index.isNaN = true ∨ index.isInfinite = true ∨
        index.isFinite = true ∧ ∀ n : Int, index.value ≠ n) ∧
    ((∃ violation, invoke "nth" call = .error violation ∧ violation.code.name = "E201") ↔
      ∃ n, index.Represents n ∧ (n < 0 ∨ items.length ≤ n)) ∧
    (∀ item, invoke "nth" call = .ok item → index.toPosition < items.length) ∧
    (index.magnitude = 0 → index.Represents 0) ∧
    (∀ k < items.length, (Number.ofNat k).Represents k) ∧
    ∀ other others, items ≠ [] → others.bound.get? "value" = some (.list items) →
      (Arguments.bind Tag.first.parameters other = .ok others → index.Represents 0 →
        invoke "first" other = invoke "nth" call) ∧
      (Arguments.bind Tag.last.parameters other = .ok others →
        index.Represents (items.length - 1 : Nat) →
          invoke "last" other = invoke "nth" call) := by
  have selects : Selects items index (itemAt items index) := itemAt_selects size
  have run : invoke "nth" call =
      (itemAt items index).mapError fun fault => fault.violation.withTag "nth" := by
    rw [← Tag.value_nth sequence position]
    exact invoke_name .nth binding
  -- A position in the sequence selects the item there, so the last resort is not needed.
  have gives (k : Nat) (here : index.Represents k) (inside : k < items.length) :
      invoke "nth" call = .ok (items[k]?.getD .nothing) := by
    have found := List.getElem?_eq_getElem inside
    rw [run, ok_mapError_iff, selects.ok_iff]
    exact ⟨k, here, by rw [found, Option.getD_some]⟩
  refine ⟨fun item => ?_, ?_, ?_, fun item chosen => ?_, represents_zero,
    fun k inside => represents_ofNat (inside.le.trans size), ?_⟩
  · rw [run, ok_mapError_iff, selects.ok_iff]
  · rw [run, exists_violation_iff, selects.typeMismatch_iff, never_represents_iff]
  · rw [run, exists_violation_iff, selects.indexOutOfRange_iff]
  · rw [run, ok_mapError_iff] at chosen
    exact (chosen ▸ selects).position_lt size
  · intro other others filled bound
    have positive := List.length_pos_of_ne_nil filled
    constructor
    · intro first here
      rw [invoke_first first bound, gives 0 here positive]
    · intro last here
      rw [invoke_last last bound, gives _ here (by omega)]

end

/-- Negative zero is the first position. -/
theorem invoke_nth_negative_zero :
    let items : List Value := [.bool true, .bool false]
    let index : Number := ⟨0x8000000000000000⟩
    let call : Invocation := ⟨[.list items, .number index], []⟩
    items.length ≤ 2 ^ 53 ∧
      Arguments.bind Tag.nth.parameters call =
        .ok ⟨[("value", .list items), ("index", .number index)]⟩ ∧
      invoke "nth" call = .ok (.bool true) ∧
      invoke "first" ⟨[], [("value", .list items)]⟩ = invoke "nth" call := by
  intro items index call
  have size : items.length ≤ 2 ^ 53 := by decide
  have binding : Arguments.bind Tag.nth.parameters call =
      .ok ⟨[("value", .list items), ("index", .number index)]⟩ := rfl
  obtain ⟨gives, -, -, -, zero, -, ends⟩ := invoke_nth size binding rfl rfl
  have here : index.Represents 0 := zero (by decide)
  have same := (ends ⟨[], [("value", .list items)]⟩ ⟨[("value", .list items)]⟩
    (List.cons_ne_nil _ _) rfl).1 rfl here
  exact ⟨size, binding, (gives (.bool true)).mpr ⟨0, here, rfl⟩, same⟩

end Weave
