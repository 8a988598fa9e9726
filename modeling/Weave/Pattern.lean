import Weave.Pattern.Parser
import Weave.Pattern.Search
import Weave.Pattern.Weight

/-!
# Patterns

A pattern is an expression with the text it was read from, made ready to be run. It finds its
leftmost match in a text and, of those that start there, the one preferred by the order of its
alternatives and repetitions.
-/

namespace Weave

structure Pattern where
  /-- The text it was read from. -/
  source : String
  /-- The number of its groups whose text is remembered. -/
  groups : Nat
  program : Pattern.Program
  deriving DecidableEq, Repr

namespace Pattern

def ofExpr (source : String) (e : Expr) : Pattern :=
  ⟨source, e.groups, e.program⟩

/-- Read a pattern. Nothing is made of a malformed text, of one that takes too much room, or of one
with a flag or a class that the reader does not offer. -/
def ofString? (source : String) : Option Pattern := do
  let e ← Expr.ofChars? source.toList
  if e.fits then some (ofExpr source e) else none

def match? (p : Pattern) (text : List Char) : Option Slots :=
  search p.program p.groups text

/-- The text of the first group where the pattern matches, empty if the group has no part in the
match. -/
def firstGroup? (p : Pattern) (text : String) : Option String :=
  (p.match? text.toList).map fun slots =>
    String.ofList ((groupText? text.toList slots 1).getD [])

end Pattern

end Weave
