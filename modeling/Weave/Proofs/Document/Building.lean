import Weave.Proofs.Document.Canonical

/-!
# Declarations built step by step

Signatures and single pieces of metadata are put on a declaration, in any number and order. What
stands under a key is what was put there last. So the metadata say what the last signature says, but
for parents: those that were named before stay where it names none.
-/

namespace Weave

namespace Fields

variable {α : Type}

theorem filter_insert (keep : String → Bool) (name : String) (value : α) (fields : Fields α) :
    (insert name value fields).filter (fun field => keep field.1) =
      if keep name then insert name value (fields.filter fun field => keep field.1)
      else fields.filter fun field => keep field.1 := by
  induction fields with
  | nil => cases kept : keep name <;> simp [insert, kept]
  | cons head rest ih =>
    obtain ⟨key, old⟩ := head
    by_cases same : key = name
    · subst same
      cases kept : keep key <;> simp [insert, kept]
    · -- Another field stands in front, and stays there or goes whatever is inserted behind it.
      rw [insert, if_neg same]
      cases kept : keep key <;> cases wanted : keep name <;> simp_all [insert]

end Fields

/-- What the metadata of a declaration hold under a key. -/
def Declaration.under? (d : Declaration Value) (key : String) : Option Value :=
  Fields.get? key d.metadata

/-- One thing that is put on a declaration. -/
inductive Amendment where
  | signature (s : Signature)
  | metadata (key : String) (value : Value)

/-- The keys under which metadata say what a signature says. -/
def Signature.keys : List String :=
  ["name", "signature", "parents"]

namespace Amendment

def apply (d : Declaration Value) : Amendment → Declaration Value
  | signature s => d.withSignature s
  | metadata key value => d.withMetadata key value

/-- The pieces of metadata that are put. -/
def fields : Amendment → Fields Value
  | signature s => s.metadata
  | metadata key value => [(key, value)]

def isMetadata : Amendment → Bool
  | signature _ => false
  | metadata _ _ => true

/-- Whether what is put concerns the signature. -/
def Touches : Amendment → Prop
  | signature _ => True
  | metadata key _ => key ∈ Signature.keys

/-- The last value that is put under a key. -/
def lastUnder? (key : String) (amendments : List Amendment) : Option Value :=
  amendments.reverse.findSome? fun a => a.fields.get? key

theorem lastUnder?_append (key : String) (before after : List Amendment) :
    lastUnder? key (before ++ after) = (lastUnder? key after).or (lastUnder? key before) := by
  rw [lastUnder?, List.reverse_append, List.findSome?_append]
  rfl

theorem lastUnder?_singleton (key : String) (a : Amendment) :
    lastUnder? key [a] = a.fields.get? key :=
  List.findSome?_singleton

end Amendment

namespace Signature

theorem get?_parents (s : Signature) : s.metadata.get? "parents" = s.parents.map .string := by
  unfold metadata
  cases s.parents <;> rfl

end Signature

namespace Amendment

/-! ### One amendment -/

theorem under?_apply (d : Declaration Value) (a : Amendment) (key : String) :
    (a.apply d).under? key = (a.fields.get? key).or (d.under? key) := by
  cases a with
  | metadata name value =>
    unfold apply Declaration.withMetadata Declaration.under?
    rw [Fields.get?_insert, fields, Fields.get?, Fields.get?]
    split <;> rfl
  | signature s =>
    -- A signature inserts its pieces one by one, and their keys differ.
    obtain ⟨name, text, parents⟩ := s
    unfold apply Declaration.withSignature Declaration.under? fields Signature.metadata
    cases parents with
    | none =>
      simp only [Fields.get?_insert, Fields.get?, Option.toList_none, List.map_nil,
        List.append_nil]
      grind
    | some parents =>
      simp only [Fields.get?_insert, Fields.get?, Option.toList_some, List.map_cons, List.map_nil,
        List.cons_append, List.nil_append]
      grind

/-- What concerns no signature leaves the signature and all that is said of it. -/
theorem get?_fields_of_untouched {a : Amendment} (untouched : ¬a.Touches) {key : String}
    (mirrored : key ∈ Signature.keys) : a.fields.get? key = none := by
  cases a with
  | signature s => exact absurd trivial untouched
  | metadata name value =>
    have apart : name ≠ key := fun same => untouched (same ▸ mirrored)
    simp [fields, Fields.get?, apart]

theorem signature_apply_of_untouched (d : Declaration Value) {a : Amendment}
    (untouched : ¬a.Touches) : (a.apply d).signature = d.signature := by
  cases a with
  | signature s => exact absurd trivial untouched
  | metadata name value => rfl

theorem kind_apply (d : Declaration Value) (a : Amendment) : (a.apply d).kind = d.kind := by
  cases a <;> rfl

theorem children_apply (d : Declaration Value) (a : Amendment) :
    (a.apply d).children = d.children := by
  cases a <;> rfl

end Amendment

namespace Signature

/-- The metadata under keys that concern no signature. -/
def besides (metadata : Fields Value) : Fields Value :=
  metadata.filter fun field => field.1 ∉ keys

theorem besides_insert (key : String) (value : Value) (metadata : Fields Value) :
    besides (Fields.insert key value metadata) =
      if key ∈ keys then besides metadata else Fields.insert key value (besides metadata) := by
  rw [besides, Fields.filter_insert (fun key => key ∉ keys) key value metadata]
  by_cases mirrored : key ∈ keys <;> simp [mirrored, besides]

end Signature

namespace Amendment

theorem besides_apply_signature (d : Declaration Value) (s : Signature) :
    Signature.besides ((signature s).apply d).metadata = Signature.besides d.metadata := by
  obtain ⟨name, text, parents⟩ := s
  cases parents <;>
    simp [apply, Declaration.withSignature, Signature.besides_insert, Signature.keys]

/-- What becomes of the other keys depends on nothing but them. -/
theorem besides_apply {d e : Declaration Value} (a : Amendment)
    (same : Signature.besides d.metadata = Signature.besides e.metadata) :
    Signature.besides (a.apply d).metadata = Signature.besides (a.apply e).metadata := by
  cases a with
  | signature s => rw [besides_apply_signature, besides_apply_signature, same]
  | metadata key value =>
    simp only [apply, Declaration.withMetadata, Signature.besides_insert, same]

end Amendment

/-! ### Many amendments -/

namespace Declaration

/-- Put one thing after the other on a declaration. -/
def amend (d : Declaration Value) (amendments : List Amendment) : Declaration Value :=
  amendments.foldl Amendment.apply d

theorem amend_append (d : Declaration Value) (before after : List Amendment) :
    d.amend (before ++ after) = (d.amend before).amend after :=
  List.foldl_append

/-- Under every key stands what was put there last, and before that what stood there at first. -/
theorem under?_amend (d : Declaration Value) (amendments : List Amendment) (key : String) :
    (d.amend amendments).under? key =
      (Amendment.lastUnder? key amendments).or (d.under? key) := by
  induction amendments generalizing d with
  | nil => rfl
  | cons a rest ih =>
    change ((a.apply d).amend rest).under? key = _
    -- What the rest puts stands over what the first one puts, and that over what was there.
    rw [ih, Amendment.under?_apply, ← List.singleton_append, Amendment.lastUnder?_append,
      Amendment.lastUnder?_singleton, Option.or_assoc]

theorem signature_amend_of_untouched (d : Declaration Value) {amendments : List Amendment}
    (untouched : ∀ a ∈ amendments, ¬a.Touches) : (d.amend amendments).signature = d.signature := by
  induction amendments generalizing d with
  | nil => rfl
  | cons a rest ih =>
    obtain ⟨first, later⟩ := List.forall_mem_cons.mp untouched
    exact (ih (a.apply d) later).trans (Amendment.signature_apply_of_untouched d first)

theorem kind_amend (d : Declaration Value) (amendments : List Amendment) :
    (d.amend amendments).kind = d.kind := by
  induction amendments generalizing d with
  | nil => rfl
  | cons a rest ih => exact (ih (a.apply d)).trans (a.kind_apply d)

theorem children_amend (d : Declaration Value) (amendments : List Amendment) :
    (d.amend amendments).children = d.children := by
  induction amendments generalizing d with
  | nil => rfl
  | cons a rest ih => exact (ih (a.apply d)).trans (a.children_apply d)

/-- Under the other keys all is as if no signature had been put. -/
theorem besides_amend {d e : Declaration Value} (amendments : List Amendment)
    (same : Signature.besides d.metadata = Signature.besides e.metadata) :
    Signature.besides (d.amend amendments).metadata =
      Signature.besides (e.amend (amendments.filter Amendment.isMetadata)).metadata := by
  -- By induction for two declarations that agree under these keys, as only one of them is signed.
  induction amendments generalizing d e with
  | nil => exact same
  | cons a rest ih =>
    cases a with
    | signature s =>
      exact ih ((Amendment.besides_apply_signature d s).trans same)
    | metadata key value => exact ih (Amendment.besides_apply (.metadata key value) same)

/-! ### The last signature -/

/-- Whether the metadata of a declaration say what a signature says. -/
structure Mirrors (d : Declaration Value) (s : Signature) : Prop where
  name : d.under? "name" = some (.string s.name)
  text : d.under? "signature" = some (.string s.text)
  parents : d.under? "parents" = s.parents.map .string

/-- What is put after the last signature and concerns none leaves what the signature has put. -/
theorem under?_amend_signature (d : Declaration Value) (before : List Amendment) (s : Signature)
    {after : List Amendment} (untouched : ∀ a ∈ after, ¬a.Touches) {key : String}
    (mirrored : key ∈ Signature.keys) :
    (d.amend (before ++ .signature s :: after)).under? key =
      (s.metadata.get? key).or ((Amendment.lastUnder? key before).or (d.under? key)) := by
  have nothing : Amendment.lastUnder? key after = none :=
    List.findSome?_eq_none_iff.mpr fun a member =>
      Amendment.get?_fields_of_untouched (untouched a (List.mem_reverse.mp member)) mirrored
  have signed : Amendment.lastUnder? key (.signature s :: after) = s.metadata.get? key := by
    rw [← List.singleton_append, Amendment.lastUnder?_append, nothing, Option.none_or,
      Amendment.lastUnder?_singleton]
    rfl
  rw [under?_amend, Amendment.lastUnder?_append, signed, Option.or_assoc]

/-- A declaration shows the signature that was put last, and its metadata say the name and the text
of it. Parents that it names stand there too. Where it names none, those stand there that were put
before, so the metadata say what the signature says exactly when it names parents or none were put
before. Kind and children stay, and under the other keys all is as if no signature had been put. -/
theorem amend_last_signature (d : Declaration Value) (before : List Amendment) (s : Signature)
    (after : List Amendment) (untouched : ∀ a ∈ after, ¬a.Touches) :
    let amendments := before ++ .signature s :: after
    let built := d.amend amendments
    built.signature = some s ∧
    built.under? "name" = some (.string s.name) ∧
    built.under? "signature" = some (.string s.text) ∧
    built.under? "parents" = (s.parents.map .string).or
      ((Amendment.lastUnder? "parents" before).or (d.under? "parents")) ∧
    (built.Mirrors s ↔ s.parents.isSome = true ∨
      (Amendment.lastUnder? "parents" before = none ∧ d.under? "parents" = none)) ∧
    built.kind = d.kind ∧
    built.children = d.children ∧
    Signature.besides built.metadata =
      Signature.besides (d.amend (amendments.filter Amendment.isMetadata)).metadata := by
  intro amendments built
  have shown : built.signature = some s := by
    change (d.amend (before ++ .signature s :: after)).signature = some s
    rw [amend_append]
    exact signature_amend_of_untouched _ untouched
  have name : built.under? "name" = some (.string s.name) :=
    under?_amend_signature d before s untouched (by decide)
  have text : built.under? "signature" = some (.string s.text) :=
    under?_amend_signature d before s untouched (by decide)
  have parents : built.under? "parents" = (s.parents.map .string).or
      ((Amendment.lastUnder? "parents" before).or (d.under? "parents")) := by
    rw [← s.get?_parents]
    exact under?_amend_signature d before s untouched (by decide)
  have mirrors : built.Mirrors s ↔ s.parents.isSome = true ∨
      (Amendment.lastUnder? "parents" before = none ∧ d.under? "parents" = none) := by
    -- Name and text are always said, so it depends on the parents alone.
    have reduced : built.Mirrors s ↔ built.under? "parents" = s.parents.map .string :=
      ⟨Mirrors.parents, fun same => ⟨name, text, same⟩⟩
    rw [reduced, parents]
    cases s.parents <;> simp [Option.or_eq_none_iff]
  exact ⟨shown, name, text, parents, mirrors, kind_amend d amendments, children_amend d amendments,
    besides_amend amendments rfl⟩

/-- A signature without parents after one with parents, other metadata around them. -/
theorem amend_last_signature_replaced :
    let d : Declaration Value := { kind := "class", children := [.bool true] }
    let foo : Signature := ⟨"Foo", "Foo(a)", some "Bar"⟩
    let baz : Signature := ⟨"Baz", "Baz()", none⟩
    let since : Amendment := .metadata "since" (.string "1")
    let built := d.amend [.signature foo, since, .signature baz, .metadata "since" (.string "2")]
    built.signature = some baz ∧ built.under? "name" = some (.string "Baz") ∧
      built.under? "parents" = some (.string "Bar") ∧ ¬built.Mirrors baz ∧
      built.kind = "class" ∧ built.children = [.bool true] ∧
      Signature.besides built.metadata = [("since", .string "2")] := by
  intro d foo baz since built
  have untouched : ∀ a ∈ [Amendment.metadata "since" (.string "2")], ¬a.Touches := by
    simp [Amendment.Touches, Signature.keys]
  obtain ⟨shown, name, -, parents, mirrors, kind, children, besides⟩ :=
    amend_last_signature d [.signature foo, since] baz [.metadata "since" (.string "2")] untouched
  refine ⟨shown, name, parents, fun held => ?_, kind, children, besides⟩
  rcases mirrors.mp held with named | ⟨never, -⟩
  · contradiction
  · exact Option.some_ne_none (Value.string "Bar") never

/-- The metadata do not always say what the last signature says. -/
theorem amend_stale_parents :
    ¬∀ (d : Declaration Value) (before : List Amendment) (s : Signature) (after : List Amendment),
      (∀ a ∈ after, ¬a.Touches) → (d.amend (before ++ .signature s :: after)).Mirrors s := by
  intro mirrors
  have stale := (mirrors { kind := "class", children := [] }
    [.signature ⟨"Foo", "Foo(a)", some "Bar"⟩] ⟨"Baz", "Baz()", none⟩ [] (by simp)).parents
  exact Option.some_ne_none (Value.string "Bar") stale

end Declaration

end Weave
