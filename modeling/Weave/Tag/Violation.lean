import Weave.Document.Value
import Weave.Number.Decimal

/-!
# Violations

A fault is the cause; a violation is what is reported of it, a code with a text, the tag concerned
and a hint.
-/

namespace Weave

inductive ErrorCode where
  | unknownTag
  | missingArgument
  | unexpectedArgument
  | duplicateArgument
  | typeMismatch
  | indexOutOfRange
  | valueNotAllowed
  | malformedSignature
  deriving DecidableEq, Repr

namespace ErrorCode

/-- Every code: first those of binding, then those of contracts. -/
def all : List ErrorCode :=
  [unknownTag, missingArgument, unexpectedArgument, duplicateArgument, typeMismatch,
    indexOutOfRange, valueNotAllowed, malformedSignature]

def name : ErrorCode → String
  | unknownTag => "E100"
  | missingArgument => "E101"
  | unexpectedArgument => "E102"
  | duplicateArgument => "E103"
  | typeMismatch => "E200"
  | indexOutOfRange => "E201"
  | valueNotAllowed => "E202"
  | malformedSignature => "E203"

def description : ErrorCode → String
  | unknownTag => "unknown tag"
  | missingArgument => "missing argument"
  | unexpectedArgument => "unexpected argument"
  | duplicateArgument => "duplicate argument"
  | typeMismatch => "type mismatch"
  | indexOutOfRange => "index out of range"
  | valueNotAllowed => "value not allowed"
  | malformedSignature => "malformed signature"

end ErrorCode

structure Violation where
  code : ErrorCode
  message : String
  tag : Option String := none
  help : Option String := none
  deriving DecidableEq, Repr

namespace Violation

/-- Name the tag concerned, unless one is named already. -/
def withTag (v : Violation) (tag : String) : Violation :=
  { v with tag := v.tag.or (some tag) }

/-- Give a hint, in place of an earlier one. -/
def withHelp (v : Violation) (help : String) : Violation :=
  { v with help := some help }

def display (v : Violation) : String :=
  s!"error[{v.code.name}]: {v.message}"

end Violation

inductive Fault where
  | unknownTag (name : String)
  | missing (parameter : String)
  | unexpectedKeyword (name : String) (parameters : List String)
  | tooManyPositionals (parameters : List String)
  | repeated (parameter : String)
  | mismatch (parameter : String) (wanted found : Shape)
  | notAnInteger (index : Number)
  | outOfRange (index : Number) (length : Nat)
  | unknownStability (text : String)
  | emptySignature
  deriving DecidableEq, Repr

namespace Fault

def parameterHelp (parameters : List String) : String :=
  if parameters.isEmpty then "this tag takes no arguments"
  else "expected parameters: " ++ String.intercalate ", " parameters

def code : Fault → ErrorCode
  | unknownTag _ => .unknownTag
  | missing _ => .missingArgument
  | unexpectedKeyword _ _ => .unexpectedArgument
  | tooManyPositionals _ => .unexpectedArgument
  | repeated _ => .duplicateArgument
  | mismatch _ _ _ => .typeMismatch
  | notAnInteger _ => .typeMismatch
  | outOfRange _ _ => .indexOutOfRange
  | unknownStability _ => .valueNotAllowed
  | emptySignature => .malformedSignature

def message : Fault → String
  | unknownTag name => s!"unknown tag `{name}`"
  | missing parameter => s!"missing argument `{parameter}`"
  | unexpectedKeyword name _ => s!"unexpected keyword argument `{name}`"
  | tooManyPositionals parameters =>
    s!"too many positional arguments, at most {parameters.length} expected"
  | repeated parameter => s!"argument `{parameter}` is given more than once"
  | mismatch parameter wanted found =>
    s!"argument `{parameter}` {wanted.wanted}, found {found.name}"
  | notAnInteger index => s!"index {index.text} is not an integer"
  | outOfRange index length =>
    s!"index {index.text} is out of range for a sequence of length {length}"
  | unknownStability text => Stability.refusal text
  | emptySignature => "declaration signature is empty"

def help? : Fault → Option String
  | unexpectedKeyword _ parameters => some (parameterHelp parameters)
  | tooManyPositionals parameters => some (parameterHelp parameters)
  | outOfRange _ _ => some "indices start at 0"
  | emptySignature => some "write the declared name, e.g. `name(arguments)`"
  | _ => none

def violation (f : Fault) : Violation :=
  ⟨f.code, f.message, none, f.help?⟩

end Fault

end Weave
