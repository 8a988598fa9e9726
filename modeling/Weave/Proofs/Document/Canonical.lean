import Weave.Document.Declaration
import Weave.Proofs.Text.Trimming

/-!
# Canonical documents

The values that stand inside a value, and what declarations and sections look like as they are made:
the metadata of a declaration say what its signature says and nothing else, and a section has none.
-/

namespace Weave

/-! ### Parts -/

namespace Entry

variable {α : Type}

/-- The values that a piece of metadata holds. -/
def parts : Entry α → List α
  | visibility _ => []
  | text _ _ => []
  | stability _ => []
  | throws name _ => [name]
  | custom key value => [key, value]

end Entry

namespace Node

variable {α : Type}

/-- The values that a node holds. -/
def parts : Node α → List α
  | declaration d => d.metadata.map Prod.snd ++ d.children
  | titled s => s.metadata.map Prod.snd ++ s.children
  | code _ _ => []
  | sample e => e.emphasis.toList
  | items _ held => held
  | literal _ => []
  | link url text => [url, text]
  | ref _ _ => []
  | note _ _ => []
  | version _ _ _ => []
  | styled _ value => [value]
  | entry e => e.parts
  | raw _ _ => []
  | tagged _ value => [value]

end Node

namespace Value

/-- The values that a value holds. -/
def parts : Value → List Value
  | bool _ => []
  | number _ => []
  | string _ => []
  | list items => items
  | symbol _ => []
  | record fields => fields.map Prod.snd
  | node n => n.parts

/-- A value stands within a value when it is that value or stands within a part of it. -/
inductive Within : Value → Value → Prop
  | self (value : Value) : Within value value
  | part {inner part whole : Value} (held : part ∈ whole.parts) (deeper : Within inner part) :
      Within inner whole

/-- Whether all that stands within a value has a property. -/
def Throughout (property : Value → Prop) (whole : Value) : Prop :=
  ∀ inner, Within inner whole → property inner

theorem throughout_iff (property : Value → Prop) (whole : Value) :
    whole.Throughout property ↔
      property whole ∧ ∀ part ∈ whole.parts, part.Throughout property := by
  constructor
  · intro all
    exact ⟨all whole (.self whole), fun part held inner deeper => all inner (.part held deeper)⟩
  · rintro ⟨here, inside⟩ inner within
    cases within with
    | self => exact here
    | part held deeper => exact inside _ held inner deeper

theorem throughout_of_parts {property : Value → Prop} {whole : Value} (here : property whole)
    (inside : ∀ part ∈ whole.parts, part.Throughout property) : whole.Throughout property :=
  (throughout_iff property whole).mpr ⟨here, inside⟩

theorem throughout_leaf {property : Value → Prop} {whole : Value} (here : property whole)
    (leaf : whole.parts = []) : whole.Throughout property := by
  refine throughout_of_parts here ?_
  rw [leaf]
  exact fun _ held => absurd held List.not_mem_nil

/-! A part is smaller than the whole, whatever it is held in. -/

theorem sizeOf_lt_of_mem_fields {value : Value} {fields : List (String × Value)}
    (held : value ∈ fields.map Prod.snd) : sizeOf value < sizeOf fields := by
  obtain ⟨⟨key, value⟩, field, rfl⟩ := List.mem_map.mp held
  have inside := List.sizeOf_lt_of_mem field
  rw [Prod.mk.sizeOf_spec] at inside
  dsimp only
  omega

theorem sizeOf_lt_of_mem_node {part : Value} {n : Node Value} (held : part ∈ n.parts) :
    sizeOf part < sizeOf n := by
  -- Declarations and sections hold values in two places, their metadata and their children.
  cases n with
  | declaration d =>
    obtain ⟨kind, signature, metadata, children⟩ := d
    rcases List.mem_append.mp held with held | held
    · have inner := sizeOf_lt_of_mem_fields held
      simp only [Node.declaration.sizeOf_spec, Declaration.mk.sizeOf_spec] at *
      omega
    · have inner := List.sizeOf_lt_of_mem held
      simp only [Node.declaration.sizeOf_spec, Declaration.mk.sizeOf_spec] at *
      omega
  | titled s =>
    obtain ⟨title, metadata, children⟩ := s
    rcases List.mem_append.mp held with held | held
    · have inner := sizeOf_lt_of_mem_fields held
      simp only [Node.titled.sizeOf_spec, Section.mk.sizeOf_spec] at *
      omega
    · have inner := List.sizeOf_lt_of_mem held
      simp only [Node.titled.sizeOf_spec, Section.mk.sizeOf_spec] at *
      omega
  | sample e =>
    obtain ⟨language, code, numbers, emphasis, caption⟩ := e
    cases emphasis with
    | none => exact absurd held List.not_mem_nil
    | some value =>
      obtain rfl := List.mem_singleton.mp held
      simp +arith
  | items ordered items =>
    have inner : sizeOf part < sizeOf items := List.sizeOf_lt_of_mem held
    simp only [Node.items.sizeOf_spec]
    omega
  | entry e => cases e <;> simp_all [Node.parts, Entry.parts] <;> grind
  | _ => simp_all [Node.parts] <;> grind

theorem sizeOf_lt_of_mem_parts {part whole : Value} (held : part ∈ whole.parts) :
    sizeOf part < sizeOf whole := by
  cases whole with
  | list items =>
    have inner : sizeOf part < sizeOf items := List.sizeOf_lt_of_mem held
    simp only [list.sizeOf_spec]
    omega
  | record fields =>
    have inner := sizeOf_lt_of_mem_fields held
    simp only [record.sizeOf_spec]
    omega
  | node n =>
    have inner := sizeOf_lt_of_mem_node held
    simp only [node.sizeOf_spec]
    omega
  | _ => exact absurd held List.not_mem_nil

end Value

/-! ### Declarations and sections -/

namespace Signature

/-- What the metadata of a declaration say about its signature. -/
def metadata (s : Signature) : Fields Value :=
  [("name", .string s.name), ("signature", .string s.text)] ++
    s.parents.toList.map fun parents => ("parents", .string parents)

end Signature

/-- The kinds of declarations that have a signature. -/
def signedKinds : List String :=
  ["function", "method", "classmethod", "class"]

namespace Declaration

/-- A declaration with a signature, as it is made. -/
structure SignedBy (d : Declaration Value) (s : Signature) : Prop where
  kind : d.kind ∈ signedKinds
  signature : d.signature = some s
  /-- The name is not blank. -/
  named : Text.allBlank s.name = false
  metadata : d.metadata = s.metadata
  parents : s.parents.isSome = true → d.kind = "class"

/-- A declaration as it is made: without a signature and metadata, or signed. -/
def Canonical (d : Declaration Value) : Prop :=
  (d.signature = none ∧ d.metadata = []) ∨ ∃ s, d.SignedBy s

theorem withSignature_metadata (kind : String) (children : List Value) (s : Signature) :
    (Declaration.withSignature { kind, children } s).metadata = s.metadata := by
  unfold withSignature Signature.metadata
  cases s.parents <;> rfl

/-- A signature that is put on a bare declaration signs it. -/
theorem signedBy_withSignature {kind : String} {s : Signature} (children : List Value)
    (signed : kind ∈ signedKinds) (named : Text.allBlank s.name = false)
    (parents : s.parents.isSome = true → kind = "class") :
    (Declaration.withSignature { kind, children } s).SignedBy s where
  kind := signed
  signature := rfl
  named := named
  metadata := withSignature_metadata kind children s
  parents := parents

end Declaration

namespace Value

/-- A value that is, if it is a declaration or a section, as these are made. -/
def Canonical : Value → Prop
  | node (.declaration d) => d.Canonical
  | node (.titled s) => s.metadata = []
  | _ => True

end Value

/-- The metadata of a signature hold strings, and these have no parts. -/
theorem Signature.metadata_throughout (s : Signature) :
    ∀ value ∈ s.metadata.map Prod.snd, value.Throughout Value.Canonical := by
  intro value member
  have text : ∃ content, value = .string content := by
    cases parents : s.parents <;> simp [metadata, parents] at member
    · rcases member with rfl | rfl <;> exact ⟨_, rfl⟩
    · rcases member with rfl | rfl | rfl <;> exact ⟨_, rfl⟩
  obtain ⟨content, rfl⟩ := text
  exact Value.throughout_leaf trivial rfl

/-! ### Names of signatures -/

namespace Signature

theorem parts?_name {text : String} {parts : Parts} (found : parts? text = some parts) :
    Text.allBlank (String.ofList parts.name) = false := by
  simp only [parts?, Option.bind_eq_bind, Option.bind_eq_some_iff] at found
  obtain ⟨whole, -, trimmed⟩ := found
  split at trimmed
  · contradiction
  next filled =>
    obtain rfl := Option.some.inj trimmed
    rw [List.isEmpty_iff, Text.trim_eq_nil_iff, Bool.not_eq_true] at filled
    rw [Text.allBlank, String.toList_ofList, Text.all_isBlank_trim, filled]

theorem ofFunction?_eq_some {text : String} {s : Signature} (read : ofFunction? text = some s) :
    Text.allBlank s.name = false ∧ s.parents = none := by
  unfold ofFunction? at read
  split at read
  · contradiction
  next filled =>
    split at read
    next parts found =>
      obtain rfl := Option.some.inj read
      exact ⟨parts?_name found, rfl⟩
    · obtain rfl := Option.some.inj read
      exact ⟨by simpa using filled, rfl⟩

theorem ofClass?_eq_some {text : String} {s : Signature} (read : ofClass? text = some s) :
    Text.allBlank s.name = false := by
  unfold ofClass? at read
  split at read
  · contradiction
  next filled =>
    split at read
    · obtain rfl := Option.some.inj read
      simpa using filled
    next parts found =>
      split at read <;> obtain rfl := Option.some.inj read <;> exact parts?_name found

end Signature

end Weave
