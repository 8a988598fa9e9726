import Weave.Document.Equality
import Weave.Proofs.Document.Canonical
import Weave.Proofs.Document.JsonEquality

/-!
# What a serialised value tells

Where no symbol, no record and no number that is not finite occurs, two values are equal exactly
when their serialised forms are: nothing is lost, since every part of a document is written under a
name of its own.
-/

namespace Weave

namespace Value

theorem equalFields_iff (as bs left : List (String × Value)) :
    equalFields as bs left = true ↔
      (∀ a ∈ as, ∃ b ∈ bs, a.1 = b.1 ∧ a.2.equal b.2 = true) ∧
        ∀ b ∈ left, ∃ a ∈ as, a.1 = b.1 ∧ a.2.equal b.2 = true := by
  induction as generalizing left with
  | nil => simp [equalFields, List.eq_nil_iff_forall_not_mem]
  | cons a as ih =>
    -- What is left of the second fields behind the first has its partner among the rest.
    have step : (∀ b ∈ left.filter fun b => !(a.1 == b.1 && a.2.equal b.2),
          ∃ other ∈ as, other.1 = b.1 ∧ other.2.equal b.2 = true) ↔
        ∀ b ∈ left, ∃ other ∈ a :: as, other.1 = b.1 ∧ other.2.equal b.2 = true := by
      refine forall_congr' fun b => ?_
      rw [List.mem_filter, List.exists_mem_cons_iff, and_imp]
      refine imp_congr_right fun _ => ?_
      cases here : a.1 == b.1 && a.2.equal b.2 <;> simp_all
    rw [equalFields, Bool.and_eq_true, ih, step, List.forall_mem_cons, and_assoc, List.any_eq_true]
    simp only [Bool.and_eq_true, beq_iff_eq]

theorem equal_record_fields_iff (as bs : List (String × Value)) :
    equalFields as bs bs = true ↔ Alike (fun a b => a.equal b = true) as bs :=
  equalFields_iff as bs bs

end Value

/-! ### Parts of equal values -/

namespace Value

/-- A value, its parts apart, whose serialised form tells what it is: no symbol, no record, and no
number that is not finite. -/
def Legible : Value → Prop
  | number x => x.isFinite = true
  | symbol _ => False
  | record _ => False
  | _ => True

/-- Whether the serialised forms of two values are equal exactly when the values are. -/
def Tells (a b : Value) : Prop :=
  a.json.equal b.json = a.equal b

theorem Tells.eq {a b : Value} (tell : Tells a b) : a.json.equal b.json = a.equal b :=
  tell

theorem jsonFields_eq_map (fields : List (String × Value)) :
    jsonFields fields = fields.map fun (key, value) => (key, value.json) := by
  induction fields with
  | nil => rfl
  | cons field fields ih => simp [jsonFields, ih]

theorem tells_items {as bs : List Value} (tell : ∀ a ∈ as, ∀ b ∈ bs, Tells a b) :
    Json.equalItems (jsonItems as) (jsonItems bs) = equalItems as bs := by
  induction as generalizing bs with
  | nil => cases bs <;> rfl
  | cons a as ih =>
    cases bs with
    | nil => rfl
    | cons b bs =>
      have first := tell a List.mem_cons_self b List.mem_cons_self
      have rest := ih fun a heldA b heldB =>
        tell a (List.mem_cons_of_mem _ heldA) b (List.mem_cons_of_mem _ heldB)
      rw [jsonItems, jsonItems, Json.equalItems, equalItems, rest, first]

theorem tells_fields {as bs : List (String × Value)}
    (tell : ∀ a ∈ as.map Prod.snd, ∀ b ∈ bs.map Prod.snd, Tells a b) :
    (Json.object (jsonFields as)).equal (.object (jsonFields bs)) = equalFields as bs bs := by
  rw [Bool.eq_iff_iff, Json.equal_object_iff, equal_record_fields_iff, jsonFields_eq_map,
    jsonFields_eq_map]
  refine alike_map_iff json fun a heldA b heldB => ?_
  rw [tell a.2 (List.mem_map_of_mem heldA) b.2 (List.mem_map_of_mem heldB)]

end Value

@[simp] theorem Signature.json_equal (s t : Signature) : s.json.equal t.json = (s == t) := by
  obtain ⟨name, text, parents⟩ := s
  obtain ⟨name', text', parents'⟩ := t
  rw [Bool.eq_iff_iff]
  cases parents <;> cases parents' <;>
    simp [json, Json.optional, Json.equal_object_cons, Json.equal_object_of_fresh,
      Json.equal_object_of_fresh_right]

/-! ### Labels -/

theorem Style.label_injective : Function.Injective Style.label := by
  intro s t same
  cases s <;> cases t <;> simp_all [Style.label]

theorem TextKey.label_injective : Function.Injective TextKey.label := by
  intro key other same
  cases key <;> cases other <;> simp_all [TextKey.label]

theorem Visibility.label_injective : Function.Injective Visibility.label := by
  intro v w same
  cases v <;> cases w <;> simp_all [Visibility.label]

theorem NoteKind.label_injective : Function.Injective NoteKind.label := by
  intro kind other same
  cases kind <;> cases other <;> simp_all [NoteKind.label]

theorem VersionChange.label_injective : Function.Injective VersionChange.label := by
  intro change other same
  cases change <;> cases other <;> simp_all [VersionChange.label]

theorem Stability.name_injective : Function.Injective Stability.name := by
  intro s t same
  simpa [Stability.ofName?_name] using congrArg Stability.ofName? same

/-- The name that a node is serialised under. It is the label, but for a node with a label of its
own. -/
def Node.member {α : Type} : Node α → String
  | .tagged _ _ => "tagged"
  | n => n.label

/-! ### Nodes -/

namespace Value

theorem jsonNode_eq_single (n : Node Value) : ∃ content, jsonNode n = .single n.member content := by
  cases n <;> exact ⟨_, rfl⟩

theorem equalNodes_of_member_ne {a b : Node Value} (apart : a.member ≠ b.member) :
    equalNodes a b = false := by
  fun_cases equalNodes a b <;> simp_all [Node.member, Node.label]
  -- What is left are lists and styled values, whose names depend on more than the kind of node.
  case case5 =>
    rintro rfl
    exact absurd rfl apart
  case case11 =>
    rintro rfl
    exact absurd rfl apart

theorem tells_of_member_ne {a b : Node Value} (apart : a.member ≠ b.member) :
    (jsonNode a).equal (jsonNode b) = equalNodes a b := by
  obtain ⟨x, written⟩ := jsonNode_eq_single a
  obtain ⟨y, written'⟩ := jsonNode_eq_single b
  simp [written, written', apart, equalNodes_of_member_ne apart]

/-- How a legible value is written, by its shape. -/
inductive HasForm : Value → Json → Prop
  | bool (b : Bool) : HasForm (.bool b) (.bool b)
  | number (x : Number) : HasForm (.number x) (.number x)
  | string (text : String) : HasForm (.string text) (.string text)
  | list (items : List Value) : HasForm (.list items) (.array (jsonItems items))
  | node {n : Node Value} {content : Json} (named : jsonNode n = .single n.member content) :
      HasForm (.node n) (.single n.member content)

theorem Legible.hasForm {value : Value} (legible : value.Legible) : HasForm value value.json := by
  cases value with
  | bool b => exact .bool b
  | number x =>
    have finite : x.isFinite = true := legible
    rw [json, if_pos finite]
    exact .number x
  | string text => exact .string text
  | list items => exact .list items
  | symbol label => exact legible.elim
  | record fields => exact legible.elim
  | node n =>
    obtain ⟨content, named⟩ := jsonNode_eq_single n
    rw [json, named]
    exact .node named

theorem HasForm.ne_null {value : Value} {form : Json} (written : HasForm value form) :
    form ≠ .null := by
  cases written <;> exact Json.noConfusion

/-- A value that is missing is written as null, which no legible value is. -/
theorem tells_option {a b : Option Value} (tell : ∀ p ∈ a.toList, ∀ q ∈ b.toList, Tells p q)
    (legibleA : ∀ p ∈ a.toList, p.Legible) (legibleB : ∀ q ∈ b.toList, q.Legible) :
    (jsonOption a).equal (jsonOption b) = equalOptions a b := by
  cases a with
  | none => cases b with
    | none => rfl
    | some q => exact Json.null_equal (legibleB q (by simp)).hasForm.ne_null
  | some p => cases b with
    | none => exact Json.equal_null (legibleA p (by simp)).hasForm.ne_null
    | some q => exact tell p (by simp) q (by simp)

theorem tells_declaration (d d' : Declaration Value)
    (metadata : (Json.object (jsonFields d.metadata)).equal (.object (jsonFields d'.metadata)) =
      equalFields d.metadata d'.metadata d'.metadata)
    (children : Json.equalItems (jsonItems d.children) (jsonItems d'.children) =
      equalItems d.children d'.children) :
    (jsonNode (.declaration d)).equal (jsonNode (.declaration d')) =
      equalNodes (.declaration d) (.declaration d') := by
  obtain ⟨kind, signature, held, inside⟩ := d
  obtain ⟨kind', signature', held', inside'⟩ := d'
  dsimp only at metadata children
  rw [jsonNode, jsonNode, equalNodes, Json.equal_single]
  -- A signature is a member of the object only if there is one.
  cases signature <;> cases signature' <;>
    simp [Json.optional, Json.equal_object_cons, Json.equal_object_of_fresh,
      Json.equal_object_of_fresh_right, metadata, children, Bool.and_assoc]

theorem tells_entry (a b : Entry Value) (tell : ∀ p ∈ a.parts, ∀ q ∈ b.parts, Tells p q) :
    (jsonEntry a).equal (jsonEntry b) = equalEntries a b := by
  -- Every kind is written under names of its own: texts have seven, which are told one by one.
  cases a with
  | visibility v => cases b with
    | visibility w => simp [jsonEntry, equalEntries, Visibility.label_injective.beq_eq]
    | _ => simp [jsonEntry, equalEntries]
  | text key content => cases b with
    | text other content' => simp [jsonEntry, equalEntries, TextKey.label_injective.beq_eq]
    | _ => cases key <;> simp [jsonEntry, equalEntries, TextKey.label]
  | stability level => cases b with
    | stability level' => simp [jsonEntry, equalEntries, Stability.name_injective.beq_eq]
    | text key content => cases key <;> simp [jsonEntry, equalEntries, TextKey.label]
    | _ => simp [jsonEntry, equalEntries]
  | throws name description => cases b with
    | throws name' description' =>
      have first : Tells name name' :=
        tell name (by simp [Entry.parts]) name' (by simp [Entry.parts])
      simp [jsonEntry, equalEntries, Json.equal_object_cons, first.eq]
    | text key content => cases key <;> simp [jsonEntry, equalEntries, TextKey.label]
    | _ => simp [jsonEntry, equalEntries]
  | custom key value => cases b with
    | custom key' value' =>
      have first : Tells key key' := tell key (by simp [Entry.parts]) key' (by simp [Entry.parts])
      have second : Tells value value' :=
        tell value (by simp [Entry.parts]) value' (by simp [Entry.parts])
      simp [jsonEntry, equalEntries, Json.equal_object_cons, first.eq, second.eq]
    | text key content => cases key <;> simp [jsonEntry, equalEntries, TextKey.label]
    | _ => simp [jsonEntry, equalEntries]

/-- Nodes of two kinds are written under two names. Nodes of one kind are compared member by
member. -/
theorem tells_node (a b : Node Value) (tell : ∀ p ∈ a.parts, ∀ q ∈ b.parts, Tells p q)
    (legibleA : ∀ p ∈ a.parts, p.Legible) (legibleB : ∀ q ∈ b.parts, q.Legible) :
    (jsonNode a).equal (jsonNode b) = equalNodes a b := by
  cases a <;> cases b
  case declaration.declaration d d' =>
    refine tells_declaration d d' (tells_fields fun p heldP q heldQ => ?_)
      (tells_items fun p heldP q heldQ => ?_)
    · exact tell p (List.mem_append_left _ heldP) q (List.mem_append_left _ heldQ)
    · exact tell p (List.mem_append_right _ heldP) q (List.mem_append_right _ heldQ)
  case titled.titled s s' =>
    have metadata := tells_fields fun p heldP q heldQ =>
      tell p (List.mem_append_left _ heldP) q (List.mem_append_left _ heldQ)
    have children := tells_items fun p heldP q heldQ =>
      tell p (List.mem_append_right _ heldP) q (List.mem_append_right _ heldQ)
    obtain ⟨title, held, inside⟩ := s
    obtain ⟨title', held', inside'⟩ := s'
    simp [jsonNode, equalNodes, Json.equal_object_cons, metadata, children, Bool.and_assoc]
  case code.code | literal.literal | ref.ref | raw.raw =>
    simp [jsonNode, equalNodes, Json.equal_object_cons]
  case sample.sample e e' =>
    have emphasis := tells_option tell legibleA legibleB
    obtain ⟨language, code, numbers, emphasis, caption⟩ := e
    obtain ⟨language', code', numbers', emphasis', caption'⟩ := e'
    dsimp only at emphasis
    simp [jsonNode, equalNodes, Json.equal_object_cons, emphasis, Bool.and_assoc]
  case items.items ordered items ordered' items' =>
    have inside : Json.equalItems (jsonItems items) (jsonItems items') = equalItems items items' :=
      tells_items tell
    cases ordered <;> cases ordered' <;>
      simp [jsonNode, equalNodes, Json.equal_object_cons, inside]
  case link.link url text url' text' =>
    have first : Tells url url' := tell url (by simp [Node.parts]) url' (by simp [Node.parts])
    have second : Tells text text' :=
      tell text (by simp [Node.parts]) text' (by simp [Node.parts])
    simp [jsonNode, equalNodes, Json.equal_object_cons, first.eq, second.eq]
  case note.note kind text kind' text' =>
    simp [jsonNode, equalNodes, Json.equal_object_cons, NoteKind.label_injective.beq_eq]
  case version.version change version text change' version' text' =>
    simp [jsonNode, equalNodes, Json.equal_object_cons, VersionChange.label_injective.beq_eq,
      Bool.and_assoc]
  case styled.styled style value style' value' =>
    have inside : Tells value value' :=
      tell value (by simp [Node.parts]) value' (by simp [Node.parts])
    simp [jsonNode, equalNodes, Json.equal_object_cons, Style.label_injective.beq_eq, inside.eq]
  case entry.entry e e' =>
    simp [jsonNode, equalNodes, tells_entry e e' tell]
  case tagged.tagged label value label' value' =>
    have inside : Tells value value' :=
      tell value (by simp [Node.parts]) value' (by simp [Node.parts])
    simp [jsonNode, equalNodes, Json.equal_object_cons, inside.eq]
  -- The nodes that are left are of two kinds.
  all_goals
    exact tells_of_member_ne (by grind [Node.member, Node.label, Style.label, cases Style])

/-! ### Values -/

/-- One step: values tell what they are when their parts do. -/
theorem tells_of_parts {a b : Value} (tell : ∀ p ∈ a.parts, ∀ q ∈ b.parts, Tells p q)
    (hereA : a.Legible) (hereB : b.Legible) (insideA : ∀ p ∈ a.parts, p.Legible)
    (insideB : ∀ q ∈ b.parts, q.Legible) : Tells a b := by
  -- The cases are split by the written forms, as numbers and nodes are not written by shape alone.
  suffices forms : ∀ form form', HasForm a form → HasForm b form' →
      form.equal form' = a.equal b from forms _ _ hereA.hasForm hereB.hasForm
  intro form form' formA formB
  cases formA with
  | bool x => cases formB <;> rfl
  | number x => cases formB <;> rfl
  | string text => cases formB <;> rfl
  | list items => cases formB with
    | list items' => exact tells_items tell
    | _ => rfl
  | node named => cases formB with
    | node named' =>
      rw [← named, ← named']
      exact tells_node _ _ tell insideA insideB
    | _ => rfl

/-- Values that are legible throughout are equal exactly when their serialised forms are: no two
shapes, kinds of nodes or pieces of metadata are written in one way, nor is a member that is missing
written like one that is there. -/
theorem json_equal_of_legible (a b : Value) (legibleA : a.Throughout Legible)
    (legibleB : b.Throughout Legible) : a.json.equal b.json = a.equal b := by
  obtain ⟨hereA, insideA⟩ := (throughout_iff _ _).mp legibleA
  obtain ⟨hereB, insideB⟩ := (throughout_iff _ _).mp legibleB
  have tell : ∀ p ∈ a.parts, ∀ q ∈ b.parts, Tells p q := fun p heldP q heldQ =>
    json_equal_of_legible p q (insideA p heldP) (insideB q heldQ)
  exact tells_of_parts tell hereA hereB (fun p heldP => insideA p heldP p (.self p))
    fun q heldQ => insideB q heldQ q (.self q)
termination_by sizeOf a
decreasing_by exact sizeOf_lt_of_mem_parts heldP

theorem json_equal_of_legible_reordered :
    (node (.declaration ⟨"module", none, [("a", .number ⟨0⟩), ("b", .list [])],
      [.bool true]⟩)).json.equal
      (node (.declaration ⟨"module", none, [("b", .list []), ("a", .number ⟨0x8000000000000000⟩)],
        [.bool true]⟩)).json = true := by
  have zero : (number ⟨0⟩).Throughout Legible :=
    throughout_leaf (show Number.isFinite ⟨0⟩ = true by decide) rfl
  have negativeZero : (number ⟨0x8000000000000000⟩).Throughout Legible :=
    throughout_leaf (show Number.isFinite ⟨0x8000000000000000⟩ = true by decide) rfl
  have empty : (list []).Throughout Legible := throughout_leaf trivial rfl
  have child : (bool true).Throughout Legible := throughout_leaf trivial rfl
  rw [json_equal_of_legible]
  · decide
  · exact throughout_of_parts trivial (by simp [parts, Node.parts, zero, empty, child])
  · exact throughout_of_parts trivial (by simp [parts, Node.parts, negativeZero, empty, child])

end Value

end Weave
