import Weave.Run.Basic

/-!
# Markup of runs

Runs written as documentation markup. Documentation and blank lines stand as they are; code stands
as a block whose source is a string literal, in which a backslash goes before each quote.
-/

namespace Weave.Run

/-- A text with a backslash before each quote. -/
def escapeQuotes (text : List Char) : List Char :=
  text.flatMap fun c => if c = '"' then ['\\', '"'] else [c]

def joinLines (lines : List String) : String :=
  String.intercalate "\n" lines

def markup : Run → String
  | doc _ lines => joinLines lines
  | blank _ text => text ++ "\n"
  | code _ language lines =>
    let source := String.ofList (escapeQuotes (joinLines lines).toList)
    "@code(language: \"" ++ language ++ "\" \"" ++ source ++ "\")\n"

/-- Whether the markup of a run ends in a line feed of its own. -/
def endsLine : Run → Bool
  | doc _ _ => false
  | code _ _ _ => true
  | blank _ _ => true

/-- The markup of a list of runs, with a line feed between each two. The line feed that ends the
last run is left out. -/
def markupOf (runs : List Run) : String :=
  let text := joinLines (runs.map markup)
  if runs.getLast?.any endsLine then String.ofList text.toList.dropLast else text

end Weave.Run
