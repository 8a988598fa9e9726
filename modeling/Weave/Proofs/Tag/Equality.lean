import Mathlib.Data.List.Perm.Subperm
import Weave.Proofs.Document.Comparison
import Weave.Proofs.Tag.Binding
import Weave.Tag.Evaluation

/-!
# Equality as the markup language decides it

The equality of values is symmetric and transitive. It is not reflexive: a value is equal to itself
only if nothing in it is a number in name only. Fields are equal when they have the same names with
equal values, in whatever order they stand.
-/

namespace Weave

namespace Value

/-- What holds of a value when it holds of its parts holds of every value. -/
theorem induction_on_parts {property : Value → Prop}
    (step : ∀ whole, (∀ part ∈ whole.parts, property part) → property whole) (value : Value) :
    property value :=
  step value fun part _ => induction_on_parts step part
termination_by sizeOf value
decreasing_by exact sizeOf_lt_of_mem_parts ‹_›

namespace Equal

theorem symm {a b : Value} (same : a.Equal b) : b.Equal a := by
  induction a using induction_on_parts generalizing b with
  | step a ih =>
    rw [equal_iff_matches] at same ⊢
    -- Turned round, the parts are compared by equality turned round, which is equality again.
    exact same.flip.mono fun _ _ p held => ih p held

theorem trans {a b c : Value} (first : a.Equal b) (second : b.Equal c) : a.Equal c := by
  induction a using induction_on_parts generalizing b c with
  | step a ih =>
    rw [equal_iff_matches] at first second ⊢
    refine (first.comp second).mono fun p held r _ between => ?_
    obtain ⟨q, left, right⟩ := between
    exact ih p held left right

end Equal

/-- A value is equal to itself when it is so throughout, so numbers alone decide. -/
theorem equal_self_iff (a : Value) : a.Equal a ↔ a.Throughout fun v => v.isNaN = false := by
  induction a using induction_on_parts with
  | step a ih =>
    rw [equal_iff_matches, throughout_iff,
      matches_self_iff Equal (fun _ _ => Equal.symm) (fun _ _ _ => Equal.trans)]
    exact and_congr_right fun _ => forall₂_congr ih

theorem throughout_defined_iff (a : Value) :
    (a.Throughout fun v => v.isNaN = false) ↔
      ∀ x : Number, (number x).Within a → x.isNaN = false := by
  constructor
  · exact fun all x within => all (number x) within
  · intro numbers inner within
    cases inner with
    | number x => exact numbers x within
    | _ => rfl

end Value

/-! ### Fields with distinct names -/

namespace Fields

variable {α β : Type} {fits : α → β → Prop} {as : Fields α} {bs : Fields β}

theorem mem_keys_of_alike (alike : Alike fits as bs) (name : String) :
    name ∈ keys as ↔ name ∈ keys bs := by
  simp only [keys, List.mem_map]
  constructor
  · rintro ⟨a, held, rfl⟩
    obtain ⟨b, partner, same, -⟩ := alike.1 a held
    exact ⟨b, partner, same.symm⟩
  · rintro ⟨b, held, rfl⟩
    obtain ⟨a, partner, same, -⟩ := alike.2 b held
    exact ⟨a, partner, same⟩

/-- Where a name stands once, the value under it is the one that fits. -/
theorem exists_get?_of_alike (alike : Alike fits as bs) (distinctA : (keys as).Nodup)
    (distinctB : (keys bs).Nodup) {name : String} {a : α} (found : get? name as = some a) :
    ∃ b, get? name bs = some b ∧ fits a b := by
  have held := (get?_eq_some_iff name a as distinctA).mp found
  obtain ⟨⟨_, b⟩, partner, rfl, fit⟩ := alike.1 _ held
  exact ⟨b, (get?_eq_some_iff _ b bs distinctB).mpr partner, fit⟩

theorem alike_iff_keys (distinctA : (keys as).Nodup) (distinctB : (keys bs).Nodup) :
    Alike fits as bs ↔
      (∀ name, name ∈ keys as ↔ name ∈ keys bs) ∧
        ∀ name a b, get? name as = some a → get? name bs = some b → fits a b := by
  constructor
  · intro alike
    refine ⟨mem_keys_of_alike alike, fun name a b foundA foundB => ?_⟩
    obtain ⟨b', found, fit⟩ := exists_get?_of_alike alike distinctA distinctB foundA
    rw [foundB, Option.some.injEq] at found
    exact found ▸ fit
  · rintro ⟨names, values⟩
    constructor
    · rintro ⟨name, a⟩ held
      obtain ⟨⟨_, b⟩, partner, rfl⟩ :=
        List.mem_map.mp ((names name).mp (List.mem_map_of_mem held))
      exact ⟨_, partner, rfl, values _ a b ((get?_eq_some_iff _ a as distinctA).mpr held)
        ((get?_eq_some_iff _ b bs distinctB).mpr partner)⟩
    · rintro ⟨name, b⟩ held
      obtain ⟨⟨_, a⟩, partner, rfl⟩ :=
        List.mem_map.mp ((names name).mpr (List.mem_map_of_mem held))
      exact ⟨_, partner, rfl, values _ a b ((get?_eq_some_iff _ a as distinctA).mpr partner)
        ((get?_eq_some_iff _ b bs distinctB).mpr held)⟩

/-- Fields of one number are alike when each of the first is found among the second: then these have
no further names. -/
theorem alike_iff_length (distinctA : (keys as).Nodup) (distinctB : (keys bs).Nodup) :
    Alike fits as bs ↔
      as.length = bs.length ∧
        ∀ name a, get? name as = some a → ∃ b, get? name bs = some b ∧ fits a b := by
  constructor
  · intro alike
    have names : (keys as).Perm (keys bs) :=
      (List.perm_ext_iff_of_nodup distinctA distinctB).mpr (mem_keys_of_alike alike)
    have length : as.length = bs.length := by simpa [keys] using names.length_eq
    exact ⟨length, fun name a found => exists_get?_of_alike alike distinctA distinctB found⟩
  · rintro ⟨length, values⟩
    have within : keys as ⊆ keys bs := by
      intro name member
      obtain ⟨⟨_, a⟩, held, rfl⟩ := List.mem_map.mp member
      obtain ⟨b, found, -⟩ := values _ a ((get?_eq_some_iff _ a as distinctA).mpr held)
      exact List.mem_map_of_mem ((get?_eq_some_iff _ b bs distinctB).mp found)
    -- As many names, and all of the first among the second: none of the second is left over.
    have enough : (keys bs).length ≤ (keys as).length := by simp [keys, length]
    have names : (keys as).Perm (keys bs) :=
      (List.subperm_of_subset distinctA within).perm_of_length_le enough
    refine (alike_iff_keys distinctA distinctB).mpr ⟨fun name => names.mem_iff, ?_⟩
    intro name a b foundA foundB
    obtain ⟨b', found, fit⟩ := values name a foundA
    rw [foundB, Option.some.injEq] at found
    exact found ▸ fit

end Fields

/-! ### The tag -/

/-- Whether the tag for equality holds of two values. -/
def Value.Equated (a b : Value) : Prop :=
  invoke "=" ⟨[a, b], []⟩ = .ok (.bool true)

namespace Value

theorem invoke_equal (a b : Value) : invoke "=" ⟨[a, b], []⟩ = .ok (.bool (a.equal b)) :=
  rfl

theorem equated_iff (a b : Value) : a.Equated b ↔ a.Equal b := by
  rw [Equated, invoke_equal, Equal, Except.ok.injEq, bool.injEq]

theorem equated_eq_equal : Equated = Equal := by
  funext a b
  exact propext (equated_iff a b)

theorem equated_record_iff (as bs : Fields Value) :
    (record as).Equated (record bs) ↔ Alike Equated as bs := by
  rw [equated_eq_equal]
  exact equalFields_iff_alike as bs

theorem equated_node_iff (m n : Node Value) :
    (node m).Equated (node n) ↔
      m.outline = n.outline ∧ Alike Equated m.named n.named ∧
        List.Forall₂ Equated m.ordered n.ordered := by
  rw [equated_eq_equal]
  exact equalNodes_iff m n

/-- The tag for equality answers for all values. What it decides is symmetric and transitive, and
holds of a value and itself exactly when no number in name only stands within it. Records, whose
names stand once, are equal when they have the same names with equal values; or else, when they have
as many fields and each of the first is found in the second with an equal value. So it is with the
metadata of nodes, whose names stand once, too: nodes are equal when they have one outline, when
they have as much metadata and each piece of the first is found in the second with an equal value,
and when their other parts are equal in order. -/
theorem equality_of_values :
    (∀ a b : Value, ∃ answer, invoke "=" ⟨[a, b], []⟩ = .ok (.bool answer)) ∧
    (∀ a b : Value, a.Equated b → b.Equated a) ∧
    (∀ a b c : Value, a.Equated b → b.Equated c → a.Equated c) ∧
    (∀ a : Value, a.Equated a ↔ ∀ x : Number, (number x).Within a → x.isNaN = false) ∧
    (∀ as bs : Fields Value, (Fields.keys as).Nodup → (Fields.keys bs).Nodup →
      ((record as).Equated (record bs) ↔
        (∀ name, name ∈ Fields.keys as ↔ name ∈ Fields.keys bs) ∧
          ∀ name a b, Fields.get? name as = some a → Fields.get? name bs = some b →
            a.Equated b) ∧
      ((record as).Equated (record bs) ↔
        as.length = bs.length ∧
          ∀ name a, Fields.get? name as = some a →
            ∃ b, Fields.get? name bs = some b ∧ a.Equated b)) ∧
    ∀ m n : Node Value, (Fields.keys m.named).Nodup → (Fields.keys n.named).Nodup →
      ((node m).Equated (node n) ↔
        m.outline = n.outline ∧
          (m.named.length = n.named.length ∧
            ∀ name a, Fields.get? name m.named = some a →
              ∃ b, Fields.get? name n.named = some b ∧ a.Equated b) ∧
          List.Forall₂ Equated m.ordered n.ordered) := by
  refine ⟨fun a b => ⟨_, invoke_equal a b⟩, ?_, ?_, ?_, ?_, ?_⟩
  · intro a b same
    rw [equated_iff] at same ⊢
    exact same.symm
  · intro a b c first second
    rw [equated_iff] at first second ⊢
    exact first.trans second
  · intro a
    rw [equated_iff, equal_self_iff, throughout_defined_iff]
  · intro as bs distinctA distinctB
    rw [equated_record_iff]
    exact ⟨Fields.alike_iff_keys distinctA distinctB, Fields.alike_iff_length distinctA distinctB⟩
  · intro m n distinctM distinctN
    rw [equated_node_iff, Fields.alike_iff_length distinctM distinctN]

theorem equality_of_values_reordered :
    let one := record [("a", .number ⟨0⟩), ("b", .string "x")]
    let other := record [("b", .string "x"), ("a", .number ⟨0x8000000000000000⟩)]
    let undefined :=
      list [.node (.titled ⟨"t", [("a", .number ⟨0x7FF8000000000000⟩)], [.bool true]⟩)]
    let titled (metadata : Fields Value) := node (.titled ⟨"t", metadata, [.bool true]⟩)
    one.Equated other ∧ other.Equated one ∧ one.Equated one ∧
      ¬one.Equated (record [("a", .number ⟨0⟩)]) ∧ ¬undefined.Equated undefined ∧
      (titled [("a", one), ("b", .bool true)]).Equated (titled [("b", .bool true), ("a", other)]) ∧
      ¬(titled [("a", one), ("b", .bool true)]).Equated (titled [("a", one)]) := by
  intro one other undefined titled
  obtain ⟨-, symm, trans, self, records, nodes⟩ := equality_of_values
  have forward : one.Equated other := (equated_iff one other).mpr (by decide)
  have back := symm one other forward
  have reordered : (titled [("a", one), ("b", .bool true)]).Equated
      (titled [("b", .bool true), ("a", other)]) := (equated_iff _ _).mpr (by decide)
  refine ⟨forward, back, trans one other one forward back, fun same => ?_, fun same => ?_,
    reordered, fun same => ?_⟩
  · obtain ⟨names, -⟩ := (records _ _ (by decide) (by decide)).1.mp same
    exact absurd (names "b") (by decide)
  · have within : (number ⟨0x7FF8000000000000⟩).Within undefined :=
      .part (List.mem_singleton_self _) (.part List.mem_cons_self (.self _))
    exact absurd ((self undefined).mp same _ within) (by decide)
  · obtain ⟨-, ⟨length, -⟩, -⟩ := (nodes _ _ (by decide) (by decide)).mp same
    exact absurd length (by decide)

end Value

end Weave
