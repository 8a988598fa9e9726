import Mathlib.Data.List.Forall2
import Mathlib.Logic.Relation
import Weave.Proofs.Document.Serialised

/-!
# One step of comparison

Two values are equal when they have the same outline, which is what is left of a value without its
parts, and equal parts: the named ones under the same names, the others in the same order. A value
that is not a number has no equal.
-/

namespace Weave

@[simp] theorem alike_nil {α β : Type} (fits : α → β → Prop) : Alike fits [] [] := by
  simp [Alike]

/-! ### Outlines -/

namespace Entry

variable {α : Type}

/-- A piece of metadata without the values that it holds. -/
def outline : Entry α → Entry Unit
  | visibility v => visibility v
  | text key content => text key content
  | stability level => stability level
  | throws _ description => throws () description
  | custom _ _ => custom () ()

end Entry

namespace Node

variable {α : Type}

/-- A node without the values that it holds. -/
def outline : Node α → Node Unit
  | declaration d => declaration { kind := d.kind, signature := d.signature, children := [] }
  | titled s => titled { title := s.title, children := [] }
  | code language text => code language text
  | sample e => sample { e with emphasis := none }
  | items ordered _ => items ordered []
  | literal text => literal text
  | link _ _ => link () ()
  | ref id url => ref id url
  | note kind text => note kind text
  | version change since text => version change since text
  | styled style _ => styled style ()
  | entry e => entry e.outline
  | raw format content => raw format content
  | tagged label _ => tagged label ()

/-- The values that a node holds under names. -/
def named : Node α → List (String × α)
  | declaration d => d.metadata
  | titled s => s.metadata
  | _ => []

/-- The values that a node holds in an order. -/
def ordered : Node α → List α
  | declaration d => d.children
  | titled s => s.children
  | sample e => e.emphasis.toList
  | items _ held => held
  | link url text => [url, text]
  | styled _ value => [value]
  | entry e => e.parts
  | tagged _ value => [value]
  | _ => []

theorem parts_eq (n : Node α) : n.parts = n.named.map Prod.snd ++ n.ordered := by
  cases n <;> rfl

end Node

namespace Value

/-- What is left of a value without its parts. Of a number it is the place in the order. -/
inductive Outline where
  | bool (b : Bool)
  | number (rank : Int)
  | string (s : String)
  | list
  | symbol (label : String)
  | record
  | node (n : Node Unit)

def outline : Value → Outline
  | bool b => .bool b
  | number x => .number x.rank
  | string s => .string s
  | list _ => .list
  | symbol label => .symbol label
  | record _ => .record
  | node n => .node n.outline

def named : Value → List (String × Value)
  | record fields => fields
  | node n => n.named
  | _ => []

def ordered : Value → List Value
  | list items => items
  | node n => n.ordered
  | _ => []

/-- Whether a value is a number in name only. -/
def isNaN : Value → Bool
  | number x => x.isNaN
  | _ => false

theorem parts_eq (v : Value) : v.parts = v.named.map Prod.snd ++ v.ordered := by
  cases v with
  | record fields => exact (List.append_nil _).symm
  | node n => exact n.parts_eq
  | _ => rfl

/-- Two values compared, with a relation in the place of equality for their parts. -/
@[mk_iff]
structure Matches (same : Value → Value → Prop) (a b : Value) : Prop where
  outline : a.outline = b.outline
  defined : a.isNaN = false
  named : Alike same a.named b.named
  ordered : List.Forall₂ same a.ordered b.ordered

/-- Equality of values, as a relation. -/
def Equal (a b : Value) : Prop :=
  a.equal b = true

instance (a b : Value) : Decidable (a.Equal b) :=
  inferInstanceAs (Decidable (a.equal b = true))

theorem equalItems_iff (as bs : List Value) :
    equalItems as bs = true ↔ List.Forall₂ Equal as bs := by
  induction as generalizing bs with
  | nil => cases bs <;> simp [equalItems]
  | cons a as ih => cases bs <;> simp [equalItems, ih, Equal]

theorem equalOptions_iff (a b : Option Value) :
    equalOptions a b = true ↔ List.Forall₂ Equal a.toList b.toList := by
  cases a <;> cases b <;> simp [equalOptions, Equal]

theorem equalEntries_iff (a b : Entry Value) :
    equalEntries a b = true ↔ a.outline = b.outline ∧ List.Forall₂ Equal a.parts b.parts := by
  cases a <;> cases b
  case throws.throws => simp [equalEntries, Entry.outline, Entry.parts, Equal, and_comm]
  all_goals simp [equalEntries, Entry.outline, Entry.parts, Equal]

theorem equalFields_iff_alike (as bs : List (String × Value)) :
    equalFields as bs bs = true ↔ Alike Equal as bs :=
  equal_record_fields_iff as bs

/-- Nodes are equal when they have one outline and equal values in the same places. -/
theorem equalNodes_iff (a b : Node Value) :
    equalNodes a b = true ↔
      a.outline = b.outline ∧ Alike Equal a.named b.named ∧
        List.Forall₂ Equal a.ordered b.ordered := by
  cases a <;> cases b
  case declaration.declaration | titled.titled =>
    simp [equalNodes, Node.outline, Node.named, Node.ordered, equalItems_iff, equalFields_iff_alike,
      and_assoc]
  case sample.sample e e' =>
    simp only [equalNodes, Node.outline, Node.named, Node.ordered, alike_nil, equalOptions_iff,
      Bool.and_eq_true, beq_iff_eq, Node.sample.injEq, Example.mk.injEq, true_and]
    tauto
  case entry.entry =>
    simp [equalNodes, equalEntries_iff, Node.outline, Node.named, Node.ordered]
  case link.link | styled.styled | tagged.tagged =>
    simp [equalNodes, Node.outline, Node.named, Node.ordered, Equal]
  -- What is left are nodes of one kind with texts only, lists, and nodes of two kinds.
  all_goals
    simp [equalNodes, Node.outline, Node.named, Node.ordered, equalItems_iff, and_assoc]

end Value

namespace Number

theorem isNaN_eq_of_rank_eq {x y : Number} (same : x.rank = y.rank) : x.isNaN = y.isNaN := by
  -- What makes a number one in name only is the magnitude, which the place in the order tells.
  have magnitude (z : Number) : z.rank.natAbs = z.magnitude := by
    unfold rank
    split <;> simp
  rw [isNaN, isNaN, ← magnitude x, ← magnitude y, same]

/-- Two numbers are equal when they have one place in the order and the first is a number. -/
theorem equal_iff (x y : Number) : x.equal y = true ↔ x.rank = y.rank ∧ x.isNaN = false := by
  simp only [equal, Bool.and_eq_true, Bool.not_eq_true', beq_iff_eq]
  constructor
  · rintro ⟨⟨left, -⟩, same⟩
    exact ⟨same, left⟩
  · rintro ⟨same, left⟩
    exact ⟨⟨left, isNaN_eq_of_rank_eq same ▸ left⟩, same⟩

end Number

namespace Value

theorem equal_iff_matches (a b : Value) : a.Equal b ↔ a.Matches Equal b := by
  rw [Equal, matches_iff]
  cases a <;> cases b
  case number.number x y =>
    simp [equal, Number.equal_iff, outline, isNaN, named, ordered]
  case list.list items items' =>
    simp [equal, equalItems_iff, outline, isNaN, named, ordered]
  case record.record fields fields' =>
    simp [equal, equalFields_iff_alike, outline, isNaN, named, ordered]
  case node.node n n' =>
    simp [equal, equalNodes_iff, outline, isNaN, named, ordered]
  all_goals simp [equal, outline, isNaN, named, ordered]

end Value

/-! ### Comparisons with other relations for the parts -/

namespace Alike

variable {α β γ : Type} {fits : α → β → Prop} {as : List (String × α)} {bs : List (String × β)}

theorem flip (alike : Alike fits as bs) : Alike (fun b a => fits a b) bs as := by
  constructor
  · intro b held
    obtain ⟨a, partner, same, fit⟩ := alike.2 b held
    exact ⟨a, partner, same.symm, fit⟩
  · intro a held
    obtain ⟨b, partner, same, fit⟩ := alike.1 a held
    exact ⟨b, partner, same.symm, fit⟩

theorem mono {others : α → β → Prop} (alike : Alike fits as bs)
    (more : ∀ a ∈ as.map Prod.snd, ∀ b ∈ bs.map Prod.snd, fits a b → others a b) :
    Alike others as bs := by
  constructor
  · intro a held
    obtain ⟨b, partner, same, fit⟩ := alike.1 a held
    exact ⟨b, partner, same, more _ (List.mem_map_of_mem held) _ (List.mem_map_of_mem partner) fit⟩
  · intro b held
    obtain ⟨a, partner, same, fit⟩ := alike.2 b held
    exact ⟨a, partner, same, more _ (List.mem_map_of_mem partner) _ (List.mem_map_of_mem held) fit⟩

theorem comp {others : β → γ → Prop} {cs : List (String × γ)} (first : Alike fits as bs)
    (second : Alike others bs cs) : Alike (Relation.Comp fits others) as cs := by
  constructor
  · intro a held
    obtain ⟨b, between, same, fit⟩ := first.1 a held
    obtain ⟨c, partner, same', fit'⟩ := second.1 b between
    exact ⟨c, partner, same.trans same', b.2, fit, fit'⟩
  · intro c held
    obtain ⟨b, between, same', fit'⟩ := second.2 c held
    obtain ⟨a, partner, same, fit⟩ := first.2 b between
    exact ⟨a, partner, same.trans same', b.2, fit, fit'⟩

end Alike

theorem alike_self_iff {α : Type} {same : α → α → Prop} (symm : ∀ a b, same a b → same b a)
    (trans : ∀ a b c, same a b → same b c → same a c) (as : List (String × α)) :
    Alike same as as ↔ ∀ a ∈ as.map Prod.snd, same a a := by
  rw [List.forall_mem_map]
  constructor
  · intro alike a held
    -- A value that has a partner has itself for one as well.
    obtain ⟨b, -, -, fit⟩ := alike.1 a held
    exact trans _ _ _ fit (symm _ _ fit)
  · intro all
    exact ⟨fun a held => ⟨a, held, rfl, all a held⟩, fun a held => ⟨a, held, rfl, all a held⟩⟩

theorem forall₂_mono {α β : Type} {fits others : α → β → Prop} {as : List α} {bs : List β}
    (alike : List.Forall₂ fits as bs) (more : ∀ a ∈ as, ∀ b ∈ bs, fits a b → others a b) :
    List.Forall₂ others as bs := by
  refine List.forall₂_iff_zip.mpr ⟨alike.length_eq, fun {a b} pair => ?_⟩
  obtain ⟨left, right⟩ := List.of_mem_zip pair
  exact more a left b right (List.forall₂_zip alike pair)

theorem forall₂_comp {α β γ : Type} {fits : α → β → Prop} {others : β → γ → Prop} {as : List α}
    {bs : List β} {cs : List γ} (first : List.Forall₂ fits as bs)
    (second : List.Forall₂ others bs cs) : List.Forall₂ (Relation.Comp fits others) as cs := by
  induction first generalizing cs with
  | nil =>
    cases second
    exact .nil
  | cons fit _ ih =>
    cases second with
    | cons fit' rest => exact .cons ⟨_, fit, fit'⟩ (ih rest)

namespace Value

variable {same other : Value → Value → Prop} {a b c : Value}

theorem isNaN_eq_of_outline_eq (outline : a.outline = b.outline) : a.isNaN = b.isNaN := by
  cases a <;> cases b <;> simp_all [Value.outline, isNaN]
  exact Number.isNaN_eq_of_rank_eq outline

theorem mem_parts_of_named {part whole : Value} (held : part ∈ whole.named.map Prod.snd) :
    part ∈ whole.parts := by
  rw [parts_eq]
  exact List.mem_append_left _ held

theorem mem_parts_of_ordered {part whole : Value} (held : part ∈ whole.ordered) :
    part ∈ whole.parts := by
  rw [parts_eq]
  exact List.mem_append_right _ held

namespace Matches

theorem flip (alike : a.Matches same b) : b.Matches (fun q p => same p q) a where
  outline := alike.outline.symm
  defined := isNaN_eq_of_outline_eq alike.outline ▸ alike.defined
  named := alike.named.flip
  ordered := alike.ordered.flip

theorem mono (alike : a.Matches same b)
    (more : ∀ p ∈ a.parts, ∀ q ∈ b.parts, same p q → other p q) : a.Matches other b where
  outline := alike.outline
  defined := alike.defined
  named := alike.named.mono fun p heldP q heldQ =>
    more p (mem_parts_of_named heldP) q (mem_parts_of_named heldQ)
  ordered := forall₂_mono alike.ordered fun p heldP q heldQ =>
    more p (mem_parts_of_ordered heldP) q (mem_parts_of_ordered heldQ)

theorem comp (first : a.Matches same b) (second : b.Matches other c) :
    a.Matches (Relation.Comp same other) c where
  outline := first.outline.trans second.outline
  defined := first.defined
  named := first.named.comp second.named
  ordered := forall₂_comp first.ordered second.ordered

end Matches

theorem matches_self_iff (same : Value → Value → Prop) (symm : ∀ a b, same a b → same b a)
    (trans : ∀ a b c, same a b → same b c → same a c) (a : Value) :
    a.Matches same a ↔ a.isNaN = false ∧ ∀ p ∈ a.parts, same p p := by
  rw [matches_iff, alike_self_iff symm trans, List.forall₂_same, parts_eq, List.forall_mem_append]
  exact and_iff_right rfl

end Value

end Weave
