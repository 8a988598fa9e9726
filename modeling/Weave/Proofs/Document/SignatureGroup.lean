import Mathlib.Data.Int.Order.Basic
import Mathlib.Data.List.TakeWhile
import Weave.Document.Signature

/-!
# Groups of parameters

The reader of a group goes down into the groups inside it and backs out of those that do not close.
What it finds is what one counter finds, which goes up at each opening and down at each closing
parenthesis: a group ends where the counter is first back at zero.
-/

namespace Weave.Signature

/-! ### The counter -/

/-- The parentheses that a text opens, less those that it closes. -/
def depth (text : List Char) : Int :=
  text.count '(' - text.count ')'

@[simp] theorem depth_nil : depth [] = 0 := rfl

@[simp] theorem depth_append (text more : List Char) :
    depth (text ++ more) = depth text + depth more := by
  simp only [depth, List.count_append]
  omega

@[simp] theorem depth_opening (text : List Char) : depth ('(' :: text) = depth text + 1 := by
  simp only [depth, List.count_cons_self, List.count_cons_of_ne (by decide : '(' ≠ ')')]
  omega

theorem depth_of_plain {text : List Char} (plain : ∀ c ∈ text, isPlain c = true) :
    depth text = 0 := by
  have neither (c : Char) (paren : isPlain c = false) : text.count c = 0 := by
    rw [List.count_eq_zero]
    intro member
    rw [plain c member] at paren
    contradiction
  simp [depth, neither '(' rfl, neither ')' rfl]

/-- The counter is back at zero behind so many characters of a text, and not before. -/
structure ReturnsAt (text : List Char) (count : Nat) : Prop where
  pos : 0 < count
  le_length : count ≤ text.length
  zero : depth (text.take count) = 0
  first : ∀ fewer, 0 < fewer → fewer < count → depth (text.take fewer) ≠ 0

theorem ReturnsAt.unique {text : List Char} {count other : Nat} (first : ReturnsAt text count)
    (second : ReturnsAt text other) : count = other := by
  rcases Nat.lt_trichotomy count other with less | same | greater
  · exact absurd first.zero (second.first count first.pos less)
  · exact same
  · exact absurd second.zero (first.first other second.pos greater)

theorem returnsAt_append_iff {text : List Char} (more : List Char) {count : Nat}
    (within : count ≤ text.length) : ReturnsAt (text ++ more) count ↔ ReturnsAt text count := by
  have same (fewer : Nat) (le : fewer ≤ count) : (text ++ more).take fewer = text.take fewer :=
    List.take_append_of_le_length (Nat.le_trans le within)
  constructor
  · rintro ⟨pos, -, zero, first⟩
    refine ⟨pos, within, same count le_rfl ▸ zero, fun fewer some less => ?_⟩
    exact same fewer (Nat.le_of_lt less) ▸ first fewer some less
  · rintro ⟨pos, -, zero, first⟩
    refine ⟨pos, by rw [List.length_append]; omega, (same count le_rfl).symm ▸ zero,
      fun fewer some less => ?_⟩
    exact (same fewer (Nat.le_of_lt less)).symm ▸ first fewer some less

/-- A text in parentheses on which the counter is back at zero at its end only. -/
structure IsGroup (text : List Char) : Prop where
  opens : text.head? = some '('
  returns : ReturnsAt text text.length

theorem IsGroup.opens_append {group : List Char} (isGroup : IsGroup group) (rest : List Char) :
    (group ++ rest).head? = some '(' := by
  rw [List.head?_append, isGroup.opens, Option.some_or]

theorem IsGroup.returns_append {group : List Char} (isGroup : IsGroup group) (rest : List Char) :
    ReturnsAt (group ++ rest) group.length :=
  (returnsAt_append_iff rest le_rfl).mpr isGroup.returns

/-- Nothing is closed that is not opened before, nor left open. -/
structure Level (text : List Char) : Prop where
  total : depth text = 0
  nonneg : ∀ count, 0 ≤ depth (text.take count)

/-- Behind the first character and all others something is open. -/
def StaysOpen (text : List Char) : Prop :=
  ∀ count, 0 < count → 0 < depth (text.take count)

theorem level_of_plain {text : List Char} (plain : ∀ c ∈ text, isPlain c = true) : Level text where
  total := depth_of_plain plain
  nonneg count := by
    rw [depth_of_plain fun c member => plain c (List.mem_of_mem_take member)]

theorem Level.append {text more : List Char} (first : Level text) (second : Level more) :
    Level (text ++ more) where
  total := by rw [depth_append, first.total, second.total, Int.add_zero]
  nonneg count := by
    rw [List.take_append, depth_append]
    have before := first.nonneg count
    have behind := second.nonneg (count - text.length)
    omega

theorem length_group (contents : List Char) :
    ('(' :: contents ++ [')']).length = contents.length + 2 := by
  rw [List.length_append, List.length_cons, List.length_singleton]

/-- Between the parentheses of a group the counter stays above zero. -/
theorem Level.depth_take_group_pos {contents : List Char} (level : Level contents) {count : Nat}
    (pos : 0 < count) (less : count < contents.length + 2) :
    0 < depth (('(' :: contents ++ [')']).take count) := by
  -- What is taken is the first parenthesis and some of the contents, but not the last parenthesis.
  obtain ⟨inside, rfl⟩ := Nat.exists_eq_succ_of_ne_zero pos.ne'
  have closing : inside - contents.length = 0 := by omega
  have nonneg := level.nonneg inside
  rw [List.cons_append, List.take_succ_cons, depth_opening, List.take_append, closing,
    List.take_zero, List.append_nil]
  omega

theorem Level.depth_group {contents : List Char} (level : Level contents) :
    depth ('(' :: contents ++ [')']) = 0 := by
  rw [List.cons_append, depth_opening, depth_append, level.total]
  rfl

theorem Level.isGroup {contents : List Char} (level : Level contents) :
    IsGroup ('(' :: contents ++ [')']) where
  opens := rfl
  returns := {
    pos := by rw [length_group]; omega
    le_length := le_rfl
    zero := by rw [List.take_length, level.depth_group]
    first := fun fewer pos less =>
      (level.depth_take_group_pos pos (length_group contents ▸ less)).ne' }

theorem Level.group {contents : List Char} (level : Level contents) :
    Level ('(' :: contents ++ [')']) where
  total := level.depth_group
  nonneg count := by
    by_cases whole : contents.length + 2 ≤ count
    · rw [List.take_of_length_le (length_group contents ▸ whole), level.depth_group]
    · rcases Nat.eq_zero_or_pos count with rfl | pos
      · exact le_rfl
      · exact (level.depth_take_group_pos pos (by omega)).le

theorem Level.staysOpen {contents behind : List Char} (level : Level contents)
    (ends : behind = [] ∨ StaysOpen behind) : StaysOpen ('(' :: (contents ++ behind)) := by
  intro count pos
  obtain ⟨inside, rfl⟩ := Nat.exists_eq_succ_of_ne_zero pos.ne'
  -- Neither the contents nor what stands behind them close the parenthesis before them.
  have nonneg := level.nonneg inside
  have more : 0 ≤ depth (behind.take (inside - contents.length)) := by
    rcases ends with rfl | opened
    · simp
    · rcases Nat.eq_zero_or_pos (inside - contents.length) with none | some
      · rw [none, List.take_zero, depth_nil]
      · exact (opened _ some).le
  rw [List.take_succ_cons, depth_opening, List.take_append, depth_append]
  omega

/-! ### The rules of the reader -/

/-- What the reader reads. -/
inductive Rule where
  | group
  | contents
  deriving DecidableEq, Repr

/-- A run of the reader on a text that comes to an end, with its outcome: what is read and what
stands behind it, or nothing. Plain characters are tried before a group, and where neither is found
reading goes on with the text as it was before. -/
inductive Reading : Rule → List Char → Option (List Char × List Char) → Prop
  | unopened {text : List Char} (other : text.head? ≠ some '(') : Reading .group text none
  | unclosed {text contents behind : List Char}
      (inside : Reading .contents text (some (contents, behind)))
      (other : behind.head? ≠ some ')') :
      Reading .group ('(' :: text) none
  | closed {text contents behind : List Char}
      (inside : Reading .contents text (some (contents, ')' :: behind))) :
      Reading .group ('(' :: text) (some ('(' :: contents ++ [')'], behind))
  | plain {text plain rest more behind : List Char} (found : readPlain? text = some (plain, rest))
      (onward : Reading .contents rest (some (more, behind))) :
      Reading .contents text (some (plain ++ more, behind))
  | nested {text group rest more behind : List Char} (unfound : readPlain? text = none)
      (inside : Reading .group text (some (group, rest)))
      (onward : Reading .contents rest (some (more, behind))) :
      Reading .contents text (some (group ++ more, behind))
  | stop {text : List Char} (unfound : readPlain? text = none)
      (inside : Reading .group text none) : Reading .contents text (some ([], text))

theorem readPlain?_eq_some {text plain rest : List Char}
    (found : readPlain? text = some (plain, rest)) :
    text = plain ++ rest ∧ plain ≠ [] ∧ ∀ c ∈ plain, isPlain c = true := by
  unfold readPlain? at found
  dsimp only at found
  split at found
  · contradiction
  next some =>
    obtain ⟨rfl, rfl⟩ := Prod.mk.inj (Option.some.inj found)
    exact ⟨List.takeWhile_append_dropWhile.symm, by simpa using some,
      fun c member => List.mem_takeWhile_imp member⟩

theorem readPlain?_eq_none {text : List Char} (unfound : readPlain? text = none) :
    text = [] ∨ text.head? = some '(' ∨ text.head? = some ')' := by
  cases text with
  | nil => exact Or.inl rfl
  | cons c rest =>
    right
    by_contra other
    have plain : isPlain c = true := by simpa [isPlain, not_or] using other
    simp [readPlain?, plain] at unfound

/-- An outcome is right about the text, in terms of the counter. -/
def Sound : Rule → List Char → Option (List Char × List Char) → Prop
  | .group, text, none => text.head? = some '(' → StaysOpen text
  | .group, text, some (group, rest) =>
    text = group ++ rest ∧ ∃ contents, group = '(' :: contents ++ [')'] ∧ Level contents
  | .contents, _, none => False
  | .contents, text, some (contents, behind) =>
    text = contents ++ behind ∧ Level contents ∧
      (behind = [] ∨ behind.head? = some ')' ∨ StaysOpen behind)

theorem Reading.sound {rule : Rule} {text : List Char} {outcome : Option (List Char × List Char)}
    (reading : Reading rule text outcome) : Sound rule text outcome := by
  induction reading with
  | unopened other => exact fun opens => absurd opens other
  | unclosed _ other ih =>
    obtain ⟨rfl, level, ends⟩ := ih
    -- What stays open behind the contents stays open in the whole text as well.
    refine fun _ => level.staysOpen ?_
    rcases ends with ended | closing | opened
    · exact Or.inl ended
    · exact absurd closing other
    · exact Or.inr opened
  | closed _ ih =>
    obtain ⟨rfl, level, -⟩ := ih
    exact ⟨by simp, _, rfl, level⟩
  | plain found _ ih =>
    obtain ⟨rfl, -, plain⟩ := readPlain?_eq_some found
    obtain ⟨rfl, level, ends⟩ := ih
    exact ⟨(List.append_assoc _ _ _).symm, (level_of_plain plain).append level, ends⟩
  | nested _ _ _ inside onward =>
    obtain ⟨rfl, contents, rfl, level⟩ := inside
    obtain ⟨rfl, more, ends⟩ := onward
    exact ⟨(List.append_assoc _ _ _).symm, level.group.append more, ends⟩
  | @stop text unfound _ ih =>
    refine ⟨rfl, level_of_plain (by simp), ?_⟩
    -- A parenthesis that opens here is the start of a group that has just been tried.
    rcases readPlain?_eq_none unfound with ended | opening | closing
    · exact Or.inl ended
    · exact Or.inr (Or.inr (ih opening))
    · exact Or.inr (Or.inl closing)

theorem Reading.unique {rule : Rule} {text : List Char}
    {outcome other : Option (List Char × List Char)} (first : Reading rule text outcome)
    (second : Reading rule text other) : outcome = other := by
  -- Whatever rule the first run ends with, a premise of every other rule contradicts it.
  induction first generalizing other with
  | unopened none =>
    cases second with
    | unopened => rfl
    | unclosed => exact absurd rfl none
    | closed => exact absurd rfl none
  | unclosed _ unended ih =>
    cases second with
    | unopened none => exact absurd rfl none
    | unclosed => rfl
    | closed inside =>
      cases ih inside
      exact absurd rfl unended
  | closed _ ih =>
    cases second with
    | unopened none => exact absurd rfl none
    | unclosed inside other =>
      cases ih inside
      exact absurd rfl other
    | closed inside =>
      cases ih inside
      rfl
  | plain found _ ih =>
    cases second with
    | plain again onward =>
      cases found.symm.trans again
      cases ih onward
      rfl
    | nested unfound => simp [found] at unfound
    | stop unfound => simp [found] at unfound
  | nested unfound _ _ ih more =>
    cases second with
    | plain found => simp [found] at unfound
    | nested _ inside onward =>
      cases ih inside
      cases more onward
      rfl
    | stop _ inside => cases ih inside
  | stop unfound _ ih =>
    cases second with
    | plain found => simp [found] at unfound
    | nested _ inside => cases ih inside
    | stop => rfl

/-! ### The reader keeps its rules -/

theorem reading_readGroup? (readContents : List Char → List Char × List Char) (text : List Char)
    (inside : ∀ rest, rest.length < text.length →
      Reading .contents rest (some (readContents rest))) :
    Reading .group text (readGroup? readContents text) := by
  unfold readGroup?
  split
  next rest =>
    have contents := inside rest (Nat.lt_succ_self _)
    split
    next closed =>
      rw [closed] at contents
      exact .closed contents
    next other =>
      -- The contents are not followed by a closing parenthesis.
      refine .unclosed contents fun closing => ?_
      obtain ⟨behind, same⟩ := List.head?_eq_some_iff.mp closing
      exact other _ behind (Prod.ext rfl same)
  next other =>
    -- The text does not start with an opening parenthesis.
    refine .unopened fun opening => ?_
    obtain ⟨rest, same⟩ := List.head?_eq_some_iff.mp opening
    exact other rest same

/-- A bound of as many items as there are characters is never reached. -/
theorem reading_readContents (bound : Nat) (text : List Char) (enough : text.length ≤ bound) :
    Reading .contents text (some (readContents bound text)) := by
  induction bound generalizing text with
  | zero =>
    obtain rfl := List.length_eq_zero_iff.mp (Nat.le_zero.mp enough)
    exact .stop rfl (.unopened (by simp))
  | succ bound ih =>
    -- What stands behind an item is shorter than the text, so each item uses up one of the bound.
    have inside := reading_readGroup? (readContents bound) text fun rest shorter =>
      ih rest (by omega)
    unfold readContents
    cases found : readPlain? text with
    | some item =>
      obtain ⟨plain, rest⟩ := item
      obtain ⟨rfl, filled, -⟩ := readPlain?_eq_some found
      have shorter := List.length_pos_iff.mpr filled
      rw [List.length_append] at enough
      exact .plain found (ih rest (by omega))
    | none =>
      cases nested : readGroup? (readContents bound) text with
      | none =>
        rw [nested] at inside
        exact .stop found inside
      | some item =>
        obtain ⟨group, rest⟩ := item
        rw [nested] at inside
        obtain ⟨rfl, contents, rfl, -⟩ := inside.sound
        simp only [List.cons_append, List.length_cons, List.length_append] at enough
        exact .nested found inside (ih rest (by omega))

theorem reading_group? (text : List Char) : Reading .group text (group? text) :=
  reading_readGroup? _ text fun rest shorter =>
    reading_readContents text.length rest (Nat.le_of_lt shorter)

end Weave.Signature
