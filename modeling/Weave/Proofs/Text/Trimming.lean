import Mathlib.Data.List.DropRight
import Mathlib.Data.List.TakeWhile
import Weave.Text.Blank

/-!
# Trimming

What trimming leaves begins and ends with characters that are not blank, so trimming it again
changes nothing; and it leaves nothing of a blank text only.
-/

namespace Weave.Text

/-- A text that trimming leaves as it is. -/
structure Trimmed (cs : List Char) : Prop where
  start : dropBlank cs = cs
  finish : dropBlankEnd cs = cs

theorem dropBlankEnd_eq_rdropWhile (cs : List Char) : dropBlankEnd cs = cs.rdropWhile isBlank :=
  rfl

theorem trimmed_trim (cs : List Char) : Trimmed (dropBlankEnd (dropBlank cs)) where
  start := by
    refine List.dropWhile_eq_self_iff.mpr fun filled => ?_
    -- Dropping blanks at the end does not touch the first character.
    have front : dropBlankEnd (dropBlank cs) <+: dropBlank cs := List.rdropWhile_prefix isBlank _
    rw [front.getElem filled]
    exact List.dropWhile_get_zero_not isBlank cs _
  finish := List.rdropWhile_idempotent isBlank (dropBlank cs)

theorem Trimmed.trim_eq {cs : List Char} (trimmed : Trimmed cs) :
    dropBlankEnd (dropBlank cs) = cs := by
  rw [trimmed.start, trimmed.finish]

theorem mem_of_mem_trim {c : Char} {cs : List Char} (member : c ∈ dropBlankEnd (dropBlank cs)) :
    c ∈ cs := by
  have front : dropBlankEnd (dropBlank cs) <+: dropBlank cs := List.rdropWhile_prefix isBlank _
  exact (List.dropWhile_sublist isBlank).subset (front.subset member)

theorem dropBlank_append_of_blank {gap : List Char} (blank : gap.all isBlank = true)
    (cs : List Char) : dropBlank (gap ++ cs) = dropBlank cs :=
  List.dropWhile_append_of_pos fun c member => List.all_eq_true.mp blank c member

theorem dropBlank_cons_of_not {c : Char} (solid : isBlank c = false) (cs : List Char) :
    dropBlank (c :: cs) = c :: cs :=
  List.dropWhile_cons_of_neg (by simp [solid])

/-- A text is blanks and what is left of it without them. -/
theorem exists_gap (cs : List Char) : ∃ gap, gap.all isBlank = true ∧ cs = gap ++ dropBlank cs :=
  ⟨cs.takeWhile isBlank, List.all_takeWhile, List.takeWhile_append_dropWhile.symm⟩

theorem dropBlankEnd_eq_nil_iff (cs : List Char) :
    dropBlankEnd cs = [] ↔ cs.all isBlank = true := by
  rw [dropBlankEnd_eq_rdropWhile, List.rdropWhile_eq_nil_iff, List.all_eq_true]

theorem trim_eq_nil_iff (cs : List Char) :
    dropBlankEnd (dropBlank cs) = [] ↔ cs.all isBlank = true := by
  obtain ⟨gap, blank, split⟩ := exists_gap cs
  rw [dropBlankEnd_eq_nil_iff]
  conv_rhs => rw [split, List.all_append, blank, Bool.true_and]

/-- Trimming takes away blanks, and only a blank text has nothing else. -/
theorem all_isBlank_trim (cs : List Char) :
    (dropBlankEnd (dropBlank cs)).all isBlank = cs.all isBlank := by
  rw [Bool.eq_iff_iff, ← trim_eq_nil_iff, ← trim_eq_nil_iff, (trimmed_trim cs).trim_eq]

end Weave.Text
