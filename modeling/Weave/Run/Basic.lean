import Weave.Pattern

/-!
# Runs of source lines

A single line is classified by its text alone: it is blank, or the comment pattern finds
documentation in it, or it is code.
-/

namespace Weave

/-- A run of source lines of one kind, with the number of its first line. -/
inductive Run where
  /-- Documentation, without the comment marks. -/
  | doc (line : Nat) (lines : List String)
  /-- Source code of a language, which may have blank lines in it. -/
  | code (line : Nat) (language : String) (lines : List String)
  /-- One blank line. -/
  | blank (line : Nat) (text : String)
  deriving DecidableEq, Repr

namespace Run

/-- The number of the first line, counted from one. -/
def line : Run → Nat
  | doc line _ => line
  | code line _ _ => line
  | blank line _ => line

def lines : Run → List String
  | doc _ lines => lines
  | code _ _ lines => lines
  | blank _ text => [text]

/-- The run that one line is by itself. Blank lines are blank whatever the pattern says. -/
def ofLine (pattern : Pattern) (language line : String) (number : Nat) : Run :=
  if Text.allBlank line then blank number line
  else match pattern.firstGroup? line with
    | some body => doc number [body]
    | none => code number language [line]

end Run

end Weave
