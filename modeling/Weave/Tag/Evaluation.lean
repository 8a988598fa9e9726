import Weave.Document.Declaration
import Weave.Document.Equality
import Weave.Document.Text
import Weave.Tag.Arguments
import Weave.Tag.Basic

/-!
# Evaluation of tags

Each tag takes its arguments, checks their shapes and makes a value of them. A fault ends the
evaluation and is reported with the name of the tag.
-/

namespace Weave

/-- The result of an operator. The sign `-` adds, as `+` does. -/
def Arithmetic.apply : Arithmetic → Number → Number → Number
  | add, x, y => x.add y
  | subtract, x, y => x.add y
  | multiply, x, y => x.mul y
  | divide, x, y => x.div y

def Comparison.holds : Comparison → Number → Number → Bool
  | less, x, y => x.less y
  | lessEqual, x, y => x.lessEqual y
  | greater, x, y => y.less x
  | greaterEqual, x, y => y.lessEqual x

/-- The item at an index. The index is compared with the number of items as numbers are, and is cut
to a position only then. -/
def itemAt (items : List Value) (index : Number) : Except Fault Value :=
  if !index.isFinite || index.hasFraction then .error (.notAnInteger index)
  else if index.less .zero || (Number.ofNat items.length).lessEqual index then
    .error (.outOfRange index items.length)
  else .ok (items[index.toPosition]?.getD .nothing)

namespace Tag

/-- What a step of its own gives, as a step among those that take arguments. -/
def orFault {α : Type} (result : Except Fault α) : Taking α :=
  ExceptT.mk (pure result)

/-- Take a signature that is not blank. -/
def takeSignature (read? : String → Option Signature) : Taking Signature := do
  let text ← Taking.string "signature"
  orFault (match read? text with
    | some signature => .ok signature
    | none => .error .emptySignature)

def takeStability : Taking Stability := do
  let text ← Taking.string "block"
  orFault (match Stability.ofName? text with
    | some level => .ok level
    | none => .error (.unknownStability text))

/-- The value of a tag, made of its arguments. -/
def value : Tag → Taking Value
  | tagged => do
    let label := (← Taking.any "tag").labelText
    return .node (.tagged label (← Taking.any "value"))
  | custom => do
    let key ← Taking.any "key"
    return .node (.entry (.custom key (← Taking.any "value")))
  | negation => return .bool (← Taking.any "value").isFalse
  | isBoolean => return .bool ((← Taking.any "value").shape == .boolean)
  | arithmetic op => do
    let left ← Taking.number "left"
    return .number (op.apply left (← Taking.number "right"))
  | comparison op => do
    let left ← Taking.number "left"
    return .bool (op.holds left (← Taking.number "right"))
  | equal => do
    let left ← Taking.any "left"
    return .bool (left.equal (← Taking.any "right"))
  | symbolName => return .string (← Taking.symbol "value")
  | first => return ((← Taking.list "value").head?.getD .nothing)
  | last => return ((← Taking.list "value").getLast?.getD .nothing)
  | nth => do
    let items ← Taking.list "value"
    orFault (itemAt items (← Taking.number "index"))
  | raw => do
    let format ← Taking.string "format"
    return .node (.raw format (← Taking.string "block"))
  | styled style => return .node (.styled style (← Taking.any "value"))
  | declaration => do
    let kind ← Taking.string "kind"
    let children ← Taking.list "children"
    return .node (.declaration { kind, children })
  | titled => do
    let title ← Taking.string "title"
    let children ← Taking.list "children"
    return .node (.titled { title, children })
  | callable kind => do
    let signature ← takeSignature Signature.ofFunction?
    let children ← Taking.list "children"
    let bare : Declaration Value := { kind := (callable kind).name, children }
    return .node (.declaration (bare.withSignature signature))
  | classDeclaration => do
    let signature ← takeSignature Signature.ofClass?
    let children ← Taking.list "children"
    let bare : Declaration Value := { kind := classDeclaration.name, children }
    return .node (.declaration (bare.withSignature signature))
  | code => do
    let language ← Taking.string "language"
    return .node (.code language (← Taking.string "block"))
  | sample => do
    let language ← Taking.string "language"
    let code ← Taking.string "block"
    let lineNumbers ← Taking.boolOr "line-numbers" true
    let caption ← Taking.stringOr "caption" defaultCaption
    let emphasis ← Taking.optional "emphasise-lines"
    return .node (.sample { language, code, lineNumbers, emphasis, caption })
  | items ordered => return .node (.items ordered (← Taking.list "items"))
  | visibility v => return .node (.entry (.visibility v))
  | text key => return .node (.entry (.text key (← Taking.string "block")))
  | stability => return .node (.entry (.stability (← takeStability)))
  | throws => do
    let name ← Taking.any "name"
    return .node (.entry (.throws name (← Taking.string "block")))
  | literal => return .node (.literal (← Taking.string "block"))
  | link => do
    let text ← Taking.any "text"
    return .node (.link (← Taking.any "url") text)
  | ref => do
    let id ← Taking.string "id"
    return .node (.ref id (← Taking.string "block"))
  | note kind => return .node (.note kind (← Taking.string "block"))
  | version change => do
    let version ← Taking.string "version"
    return .node (.version change version (← Taking.stringOr "block" ""))

/-- The value of a tag for one call, or the first fault. -/
def apply (tag : Tag) (call : Invocation) : Except Fault Value :=
  match Arguments.bind tag.parameters call with
  | .error fault => .error fault
  | .ok arguments => (tag.value.run.run arguments).1

end Tag

/-- The tag with a name, or the report that there is none. -/
def resolve (name : String) : Except Violation Tag :=
  match Tag.ofName? name with
  | some tag => .ok tag
  | none => .error ((Fault.unknownTag name).violation.withTag name)

def invoke (name : String) (call : Invocation) : Except Violation Value :=
  match resolve name with
  | .error violation => .error violation
  | .ok tag =>
    match tag.apply call with
    | .ok value => .ok value
    | .error fault => .error (fault.violation.withTag tag.name)

/-- Evaluate calls in order, up to the first violation. -/
def evaluate : List (String × Invocation) → Except Violation (List Value)
  | [] => .ok []
  | (name, call) :: rest =>
    match invoke name call with
    | .error violation => .error violation
    | .ok value => (evaluate rest).map (value :: ·)

end Weave
