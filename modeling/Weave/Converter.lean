import Weave.Run.Markup
import Weave.Run.Merge
import Weave.Text.Lines

/-!
# Converters

Converters from commented source to documentation markup. A converter has a comment pattern with
exactly one group, the body of the comment, and the name that code blocks carry as their language.
-/

namespace Weave

/-- Why there is no converter for a comment pattern. -/
inductive ConverterError where
  | invalidPattern (pattern : String)
  | captureGroups (pattern : String) (found : Nat)
  deriving DecidableEq, Repr

def ConverterError.message : ConverterError → String
  | invalidPattern pattern => s!"invalid comment pattern `{pattern}`"
  | captureGroups pattern found =>
    s!"comment pattern `{pattern}` must have exactly one capture group, found {found}"

structure Converter where
  pattern : Pattern
  /-- The language of code blocks. -/
  language : String
  deriving DecidableEq, Repr

namespace Converter

/-- The converter for a comment pattern and a language. -/
def ofPattern (pattern language : String) : Except ConverterError Converter :=
  match Pattern.ofString? pattern with
  | none => .error (.invalidPattern pattern)
  | some compiled =>
    if compiled.groups = 1 then .ok ⟨compiled, language⟩
    else .error (.captureGroups pattern compiled.groups)

/-- Each line of a text as a run of its own, numbered from one. -/
def lineRuns (c : Converter) (text : String) : List Run :=
  (Text.cutLines text).mapIdx fun index line => Run.ofLine c.pattern c.language line (index + 1)

def runs (c : Converter) (text : String) : List Run :=
  Run.merge (c.lineRuns text)

def convert (c : Converter) (text : String) : String :=
  Run.markupOf (c.runs text)

end Converter

end Weave
