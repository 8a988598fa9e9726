import Weave.Run.Basic

/-!
# Merging of runs

Documentation takes in documentation, code takes in code of its own language and blank lines; every
other pair stays apart. Runs are merged from left to right, and only the last run so far can still
grow.
-/

namespace Weave.Run

/-- The run made of a run and the one behind it, if they merge. The place of the first is kept. -/
def absorb? : Run → Run → Option Run
  | doc line lines, doc _ more => some (doc line (lines ++ more))
  | code line language lines, code _ other more =>
    if language = other then some (code line language (lines ++ more)) else none
  | code line language lines, blank _ text => some (code line language (lines ++ [text]))
  | _, _ => none

/-- Merge the runs behind one that can still grow. -/
def mergeFrom (last : Run) : List Run → List Run
  | [] => [last]
  | next :: rest =>
    match last.absorb? next with
    | some grown => mergeFrom grown rest
    | none => last :: mergeFrom next rest

def merge : List Run → List Run
  | [] => []
  | first :: rest => mergeFrom first rest

end Weave.Run
