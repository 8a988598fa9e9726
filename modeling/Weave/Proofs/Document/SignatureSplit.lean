import Mathlib.Data.Nat.Find
import Weave.Proofs.Document.SignatureGroup
import Weave.Proofs.Text.Trimming

/-!
# Splitting signatures

A signature is split at its first opening parenthesis and where a counter started there is first
back at zero; it is not split when there is no such parenthesis or the counter does not come back.
-/

namespace Weave.Signature

/-! ### Groups at the start of a text -/

theorem group?_append {group : List Char} (isGroup : IsGroup group) (rest : List Char) :
    group? (group ++ rest) = some (group, rest) := by
  have sound := (reading_group? (group ++ rest)).sound
  have returns := isGroup.returns_append rest
  cases found : group? (group ++ rest) with
  | none =>
    rw [found] at sound
    -- Without a group to read the counter would stay above zero.
    have above := sound (isGroup.opens_append rest) group.length returns.pos
    exact absurd returns.zero above.ne'
  | some item =>
    obtain ⟨other, behind⟩ := item
    rw [found] at sound
    obtain ⟨same, contents, form, level⟩ := sound
    -- The counter comes back for the first time in one place only.
    have returned : ReturnsAt (group ++ rest) other.length := by
      rw [same, form]
      exact level.isGroup.returns_append behind
    obtain ⟨rfl, rfl⟩ := List.append_inj same (returns.unique returned)
    rfl

theorem group?_eq_some_iff {text group rest : List Char} :
    group? text = some (group, rest) ↔ text = group ++ rest ∧ IsGroup group := by
  constructor
  · intro found
    have sound := (reading_group? text).sound
    rw [found] at sound
    obtain ⟨same, contents, rfl, level⟩ := sound
    exact ⟨same, level.isGroup⟩
  · rintro ⟨rfl, isGroup⟩
    exact group?_append isGroup rest

/-! ### Names, groups and rests -/

theorem notMem_takeWhile_opening (text : List Char) : '(' ∉ text.takeWhile (· != '(') := by
  intro member
  have other := List.mem_takeWhile_imp member
  simp at other

theorem takeWhile_append_group {name group : List Char} (plain : '(' ∉ name)
    (opens : group.head? = some '(') :
    (name ++ group).takeWhile (· != '(') = name ∧ (name ++ group).dropWhile (· != '(') = group := by
  obtain ⟨rest, rfl⟩ := List.head?_eq_some_iff.mp opens
  have other : ∀ c ∈ name, (c != '(') = true := by
    intro c member
    rw [bne_iff_ne]
    rintro rfl
    exact plain member
  rw [List.takeWhile_append_of_pos other, List.dropWhile_append_of_pos other]
  simp

theorem split?_eq_some_iff {text : List Char} {parts : Parts} :
    split? text = some parts ↔
      text = parts.name ++ (parts.group ++ parts.rest) ∧ '(' ∉ parts.name ∧
        IsGroup parts.group := by
  obtain ⟨name, group, rest⟩ := parts
  simp only [split?, Option.bind_eq_bind, Option.bind_eq_some_iff, Prod.exists, Option.pure_def,
    Option.some.injEq, Parts.mk.injEq, group?_eq_some_iff]
  constructor
  · rintro ⟨_, _, ⟨behind, isGroup⟩, rfl, rfl, rfl⟩
    refine ⟨?_, notMem_takeWhile_opening text, isGroup⟩
    rw [← behind, List.takeWhile_append_dropWhile]
  · rintro ⟨rfl, plain, isGroup⟩
    obtain ⟨before, behind⟩ := takeWhile_append_group plain (isGroup.opens_append rest)
    exact ⟨group, rest, ⟨behind, isGroup⟩, before, rfl, rfl⟩

theorem parts?_eq_some_iff {text : String} {parts : Parts} :
    parts? text = some parts ↔
      ∃ whole, split? text.toList = some whole ∧ whole.name.all Text.isBlank = false ∧
        parts = { whole with name := Text.dropBlankEnd (Text.dropBlank whole.name) } := by
  simp only [parts?, Option.bind_eq_bind, Option.bind_eq_some_iff]
  refine exists_congr fun whole => and_congr_right fun _ => ?_
  -- The name left by trimming is empty exactly when the name before the group is blank.
  have blank := Text.trim_eq_nil_iff whole.name
  cases named : whole.name.all Text.isBlank with
  | true => simp [blank.mpr named]
  | false =>
    have filled : (Text.dropBlankEnd (Text.dropBlank whole.name)).isEmpty = false := by
      rw [List.isEmpty_eq_false_iff, ne_eq, blank, named]
      exact Bool.false_ne_true
    simp only [filled, Bool.false_eq_true, if_false, Option.some.injEq, true_and]
    exact eq_comm

/-! ### Places -/

/-- The first opening parenthesis of a text is at a place. -/
def OpensAt (text : List Char) (place : Nat) : Prop :=
  text[place]? = some '(' ∧ ∀ earlier < place, text[earlier]? ≠ some '('

theorem opensAt_append {name group : List Char} (plain : '(' ∉ name)
    (opens : group.head? = some '(') : OpensAt (name ++ group) name.length := by
  constructor
  · rw [List.getElem?_append_right le_rfl, Nat.sub_self, ← List.head?_eq_getElem?, opens]
  · intro earlier before opening
    rw [List.getElem?_append_left before] at opening
    exact plain (List.mem_of_getElem? opening)

theorem notMem_take_of_opensAt {text : List Char} {place : Nat} (opens : OpensAt text place) :
    '(' ∉ text.take place := by
  intro member
  obtain ⟨earlier, here⟩ := List.mem_iff_getElem?.mp member
  have before : earlier < place := by
    have bound := (List.getElem?_eq_some_iff.mp here).1
    exact Nat.lt_of_lt_of_le bound (List.length_take_le place text)
  rw [List.getElem?_take_of_lt before] at here
  exact opens.2 earlier before here

theorem isGroup_take {text : List Char} {count : Nat} (opens : text.head? = some '(')
    (returns : ReturnsAt text count) : IsGroup (text.take count) := by
  have length := List.length_take_of_le returns.le_length
  refine ⟨?_, ?_⟩
  · obtain ⟨fewer, rfl⟩ := Nat.exists_eq_succ_of_ne_zero returns.pos.ne'
    rw [List.head?_take, if_neg (Nat.succ_ne_zero fewer), opens]
  · -- The counter is back within what is taken, whatever stands behind it.
    have split : ReturnsAt (text.take count ++ text.drop count) count := by
      rwa [List.take_append_drop]
    rw [length]
    exact (returnsAt_append_iff _ length.ge).mp split

theorem exists_returnsAt {text : List Char} {count : Nat} (pos : 0 < count)
    (within : count ≤ text.length) (zero : depth (text.take count) = 0) :
    ∃ first, ReturnsAt text first := by
  have returns : ∃ first, 0 < first ∧ first ≤ text.length ∧ depth (text.take first) = 0 :=
    ⟨count, pos, within, zero⟩
  -- Of all the places where the counter is back there is a first one.
  obtain ⟨some, inside, back⟩ := Nat.find_spec returns
  refine ⟨Nat.find returns, some, inside, back, fun fewer more less again => ?_⟩
  exact Nat.find_min returns less ⟨more, by omega, again⟩

theorem split?_eq_some_iff_places {text : List Char} {parts : Parts} :
    split? text = some parts ↔
      ∃ place count, OpensAt text place ∧ ReturnsAt (text.drop place) count ∧
        parts = ⟨text.take place, (text.drop place).take count,
          (text.drop place).drop count⟩ := by
  rw [split?_eq_some_iff]
  constructor
  · obtain ⟨name, group, rest⟩ := parts
    rintro ⟨rfl, plain, isGroup⟩
    have opens := opensAt_append plain (isGroup.opens_append rest)
    refine ⟨name.length, group.length, opens, ?_, ?_⟩
    · rw [List.drop_left]
      exact isGroup.returns_append rest
    · simp
  · rintro ⟨place, count, opens, returns, rfl⟩
    have head : (text.drop place).head? = some '(' := by rw [List.head?_drop, opens.1]
    refine ⟨?_, notMem_take_of_opensAt opens, isGroup_take head returns⟩
    simp only [List.take_append_drop]

/-- The reader comes to an end on every text, in one way, balanced or not; and it splits a signature
at its first opening parenthesis and where the counter started there is first back at zero, if it
ever is. A signature has parts when the name before its group is not blank; the name is trimmed. -/
theorem split_at_counter (text : String) :
    (∀ rule part, ∃! outcome, Reading rule part outcome) ∧
    (∀ part, Reading .group part (group? part)) ∧
    (∀ parts, split? text.toList = some parts ↔
      ∃ place count, OpensAt text.toList place ∧ ReturnsAt (text.toList.drop place) count ∧
        parts = ⟨text.toList.take place, (text.toList.drop place).take count,
          (text.toList.drop place).drop count⟩) ∧
    ((split? text.toList).isSome = true ↔
      ∃ place, OpensAt text.toList place ∧ ∃ count, 0 < count ∧
        count ≤ (text.toList.drop place).length ∧
        depth ((text.toList.drop place).take count) = 0) ∧
    (∀ parts, parts? text = some parts ↔
      ∃ whole, split? text.toList = some whole ∧ whole.name.all Text.isBlank = false ∧
        parts = { whole with name := Text.dropBlankEnd (Text.dropBlank whole.name) }) := by
  refine ⟨?_, reading_group?, fun _ => split?_eq_some_iff_places, ?_, fun _ => parts?_eq_some_iff⟩
  · intro rule part
    -- The reader itself gives an outcome under each rule, and the rules allow no other.
    cases rule with
    | group => exact ⟨_, reading_group? part, fun _ other => other.unique (reading_group? part)⟩
    | contents =>
      have reading := reading_readContents part.length part le_rfl
      exact ⟨_, reading, fun _ other => other.unique reading⟩
  · rw [Option.isSome_iff_exists]
    simp only [split?_eq_some_iff_places]
    constructor
    · rintro ⟨_, place, count, opens, returns, -⟩
      exact ⟨place, opens, count, returns.pos, returns.le_length, returns.zero⟩
    · rintro ⟨place, opens, count, pos, within, zero⟩
      obtain ⟨first, returns⟩ := exists_returnsAt pos within zero
      exact ⟨_, place, first, opens, returns, rfl⟩

end Weave.Signature
