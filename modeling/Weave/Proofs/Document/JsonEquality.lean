import Mathlib.Data.List.Basic
import Weave.Document.Json

/-!
# Equality of serialised values

Two serialised values are equal by structure, numbers by their numeric order and objects whatever
the order of their members. Objects with a fixed layout are compared member by member.
-/

namespace Weave

namespace Json

mutual

/-- Equality of serialised values. Each member of an object has an equal one in an equal object. -/
def equal : Json → Json → Bool
  | null, null => true
  | bool a, bool b => a == b
  | number x, number y => x.equal y
  | string a, string b => a == b
  | array xs, array ys => equalItems xs ys
  | object ms, object ns => within ms ns && ns.all fun (name, y) => hasMember ms name y
  | _, _ => false
termination_by structural x => x

def equalItems : List Json → List Json → Bool
  | [], [] => true
  | x :: xs, y :: ys => x.equal y && equalItems xs ys
  | _, _ => false
termination_by structural x => x

/-- Whether each of some members has an equal one among others. -/
def within : List (String × Json) → List (String × Json) → Bool
  | [], _ => true
  | (name, x) :: ms, ns =>
    ns.any (fun (other, y) => name == other && x.equal y) && within ms ns
termination_by structural x => x

/-- Whether a member equal to a given one is among some members. -/
def hasMember : List (String × Json) → String → Json → Bool
  | [], _, _ => false
  | (name, x) :: ms, other, y => name == other && x.equal y || hasMember ms other y
termination_by structural x => x

end

example : equal (.object [("a", .null), ("b", .number ⟨0⟩)])
    (.object [("b", .number ⟨0x8000000000000000⟩), ("a", .null)]) = true := by decide

end Json

/-! ### Members and fields -/

/-- Whether each of some named contents has a fitting one of its name among others, and the other
way round. -/
def Alike {α β : Type} (fits : α → β → Prop) (as : List (String × α)) (bs : List (String × β)) :
    Prop :=
  (∀ a ∈ as, ∃ b ∈ bs, a.1 = b.1 ∧ fits a.2 b.2) ∧ ∀ b ∈ bs, ∃ a ∈ as, a.1 = b.1 ∧ fits a.2 b.2

theorem alike_map_iff {α β : Type} {fits : α → α → Prop} {others : β → β → Prop} (f : α → β)
    {as bs : List (String × α)}
    (same : ∀ a ∈ as, ∀ b ∈ bs, others (f a.2) (f b.2) ↔ fits a.2 b.2) :
    Alike others (as.map fun (name, a) => (name, f a)) (bs.map fun (name, b) => (name, f b)) ↔
      Alike fits as bs := by
  simp only [Alike, List.forall_mem_map]
  simp only [List.mem_map, exists_exists_and_eq_and]
  refine and_congr (forall₂_congr fun a heldA => ?_) (forall₂_congr fun b heldB => ?_)
  · exact exists_congr fun b => and_congr_right fun heldB =>
      and_congr_right fun _ => same a heldA b heldB
  · exact exists_congr fun a => and_congr_right fun heldA =>
      and_congr_right fun _ => same a heldA b heldB

namespace Json

theorem within_iff (ms ns : List (String × Json)) :
    within ms ns = true ↔ ∀ m ∈ ms, ∃ n ∈ ns, m.1 = n.1 ∧ m.2.equal n.2 = true := by
  induction ms with
  | nil => simp [within]
  | cons m ms ih => simp [within, ih]

theorem hasMember_iff (ms : List (String × Json)) (name : String) (y : Json) :
    hasMember ms name y = true ↔ ∃ m ∈ ms, m.1 = name ∧ m.2.equal y = true := by
  induction ms with
  | nil => simp [hasMember]
  | cons m ms ih => simp [hasMember, ih]

theorem equal_object_iff (ms ns : List (String × Json)) :
    (object ms).equal (object ns) = true ↔ Alike (fun x y => x.equal y = true) ms ns := by
  simp [equal, Alike, within_iff, hasMember_iff]

end Json

/-! ### Objects with a fixed layout -/

namespace Json

/-- A member of one name in both of two objects can be split off. -/
theorem equal_object_cons (name : String) (x y : Json) (ms ns : List (String × Json))
    (freshM : ∀ m ∈ ms, m.1 ≠ name) (freshN : ∀ n ∈ ns, n.1 ≠ name) :
    (object ((name, x) :: ms)).equal (object ((name, y) :: ns)) =
      (x.equal y && (object ms).equal (object ns)) := by
  rw [Bool.eq_iff_iff, Bool.and_eq_true, equal_object_iff, equal_object_iff]
  -- No other member has the name, so the two can only be each other's partners.
  have apartN : ¬∃ n ∈ ns, name = n.1 ∧ x.equal n.2 = true :=
    fun ⟨n, held, same, _⟩ => freshN n held same.symm
  have apartM : ¬∃ m ∈ ms, m.1 = name ∧ m.2.equal y = true :=
    fun ⟨m, held, same, _⟩ => freshM m held same
  have forward : (∀ m ∈ ms, ∃ n ∈ (name, y) :: ns, m.1 = n.1 ∧ m.2.equal n.2 = true) ↔
      ∀ m ∈ ms, ∃ n ∈ ns, m.1 = n.1 ∧ m.2.equal n.2 = true :=
    forall₂_congr fun m held => by simp [freshM m held]
  have backward : (∀ n ∈ ns, ∃ m ∈ (name, x) :: ms, m.1 = n.1 ∧ m.2.equal n.2 = true) ↔
      ∀ n ∈ ns, ∃ m ∈ ms, m.1 = n.1 ∧ m.2.equal n.2 = true :=
    forall₂_congr fun n held => by simp [Ne.symm (freshN n held)]
  rw [Alike, List.forall_mem_cons, List.forall_mem_cons, forward, backward,
    List.exists_mem_cons_iff, List.exists_mem_cons_iff, or_iff_left apartN, or_iff_left apartM]
  simp only [true_and]
  exact and_and_left.symm

/-- Objects are not equal when only one of them has a member of some name. -/
theorem equal_object_of_fresh (name : String) (x : Json) (ms ns : List (String × Json))
    (fresh : ∀ n ∈ ns, n.1 ≠ name) :
    (object ((name, x) :: ms)).equal (object ns) = false := by
  rw [Bool.eq_false_iff, Ne, equal_object_iff]
  rintro ⟨forward, -⟩
  obtain ⟨n, held, same, -⟩ := forward (name, x) List.mem_cons_self
  exact fresh n held same.symm

theorem equal_object_of_fresh_right (name : String) (y : Json) (ms ns : List (String × Json))
    (fresh : ∀ m ∈ ms, m.1 ≠ name) :
    (object ms).equal (object ((name, y) :: ns)) = false := by
  rw [Bool.eq_false_iff, Ne, equal_object_iff]
  rintro ⟨-, backward⟩
  obtain ⟨m, held, same, -⟩ := backward (name, y) List.mem_cons_self
  exact fresh m held same

@[simp] theorem equal_object_nil : (object []).equal (object []) = true := rfl

@[simp] theorem equal_bool (a b : Bool) : (bool a).equal (bool b) = (a == b) := rfl

@[simp] theorem equal_string (a b : String) : (string a).equal (string b) = (a == b) := rfl

@[simp] theorem equal_array (xs ys : List Json) :
    (array xs).equal (array ys) = equalItems xs ys := rfl

@[simp] theorem equal_single_string (name text : String) (x : Json) :
    (single name x).equal (string text) = false := rfl

@[simp] theorem equal_string_single (name text : String) (x : Json) :
    (string text).equal (single name x) = false := rfl

@[simp] theorem equal_single (name other : String) (x y : Json) :
    (single name x).equal (single other y) = (name == other && x.equal y) := by
  by_cases same : name = other
  · subst same
    simp [single, equal_object_cons]
  · have apart : other ≠ name := Ne.symm same
    simp [single, equal_object_of_fresh, same, apart]

theorem equal_null {x : Json} (present : x ≠ null) : x.equal null = false := by
  cases x <;> first | rfl | exact absurd rfl present

theorem null_equal {x : Json} (present : x ≠ null) : null.equal x = false := by
  cases x <;> first | rfl | exact absurd rfl present

end Json

end Weave
