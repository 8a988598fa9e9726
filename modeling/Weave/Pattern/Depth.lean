/-!
# Depth of nesting

How deeply the text of a pattern nests. A single character, an escape, an anchor and the empty text
have no depth; a group, a repetition, a bracketed class and a class operator are one level deeper
than what they hold, and so is a list of several parts. A pattern that nests too deeply is refused.
-/

namespace Weave.Pattern

/-- What has been read from a text, with the depth to which the text nests. -/
structure Nested (α : Type) where
  value : α
  depth : Nat := 0
  deriving DecidableEq, Repr

/-- The highest depth of a pattern. -/
def depthLimit : Nat := 250

/-- The depth of a list of parts. One part alone makes no list. -/
def depthOfList {α : Type} : List (Nested α) → Nat
  | [] => 0
  | [part] => part.depth
  | parts => parts.foldl (fun depth part => max depth part.depth) 0 + 1

example : depthOfList [(⟨'a', 0⟩ : Nested Char), ⟨'b', 2⟩] = 3 := rfl

end Weave.Pattern
