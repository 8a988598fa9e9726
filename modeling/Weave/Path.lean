/-!
# Paths

A path is a text with `/` between its parts. Empty parts lead nowhere, and neither does a single
dot. Paths of bytes that are no text are left out, so every extension is a text, too.
-/

namespace Weave.Path

/-- The parts of a path, without the empty ones. -/
def parts (path : String) : List String :=
  ((path.toList.splitOn '/').map String.ofList).filter (· != "")

def isAbsolute (path : String) : Bool :=
  path.toList.head? == some '/'

def endsInSlash (path : String) : Bool :=
  path.toList.getLast? == some '/'

/-- The extension of a file name: what stands behind its last dot, if anything stands before. -/
def nameExtension? (name : String) : Option String :=
  let behind := name.toList.reverse.takeWhile (· != '.')
  match name.toList.reverse.dropWhile (· != '.') with
  | '.' :: _ :: _ => some (String.ofList behind.reverse)
  | _ => none

/-- The extension of the file that a path leads to. A path that ends by going up leads to none. -/
def extension? (path : String) : Option String :=
  match ((parts path).filter (· != ".")).getLast? with
  | none => none
  | some name => if name = ".." then none else nameExtension? name

example : extension? "src/a.b.js/." = some "js" := by decide
example : extension? "src/.js" = none := by decide
example : extension? "a." = some "" := by decide

end Weave.Path
