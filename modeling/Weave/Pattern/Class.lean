import Weave.Pattern.Depth
import Weave.Pattern.Escape

/-!
# Bracketed classes

A class lists characters, ranges, escapes, named classes and further bracketed classes; operators of
the same rank, applied from left to right, combine what stands on their two sides. Where letter case
is ignored, each named class, each operand and the whole class are closed under changes of case, a
class before it is negated.
-/

namespace Weave.Pattern

inductive SetOp where
  | inter
  | diff
  | symmDiff
  deriving DecidableEq, Repr

/-- The set of what lies on the two sides of an operator. -/
def SetOp.apply : SetOp → CharSet → CharSet → CharSet
  | inter => .inter
  | diff => .diff
  | symmDiff => .symmDiff

/-- A set, closed under changes of letter case where that is asked for. -/
def CharSet.fold (ignoreCase : Bool) (s : CharSet) : CharSet :=
  if ignoreCase then s.folded else s

/-- An open bracket: the members listed since the last operator, the latest first, and the operator
with all to its left. -/
structure OpenClass where
  negated : Bool
  left : Option (SetOp × Nested CharSet) := none
  members : List (Nested CharSet) := []

namespace OpenClass

def add (o : OpenClass) (member : Nested CharSet) : OpenClass :=
  { o with members := member :: o.members }

def value (ignoreCase : Bool) (o : OpenClass) : Nested CharSet :=
  let right : Nested CharSet :=
    ⟨.unions (o.members.map Nested.value), depthOfList o.members⟩
  match o.left with
  | none => right
  | some (op, left) =>
    ⟨op.apply (left.value.fold ignoreCase) (right.value.fold ignoreCase),
      max left.depth right.depth + 1⟩

def operator (ignoreCase : Bool) (o : OpenClass) (op : SetOp) : OpenClass :=
  { o with left := some (op, o.value ignoreCase), members := [] }

def close (ignoreCase : Bool) (o : OpenClass) : Nested CharSet :=
  let all := o.value ignoreCase
  let set := all.value.fold ignoreCase
  ⟨if o.negated then set.compl else set, all.depth + 1⟩

end OpenClass

/-- What stands directly behind an opening bracket: a caret negates the class, hyphens stand for
themselves, and so does a closing bracket where nothing else has been listed. -/
def openClass (cs : List Char) : OpenClass × List Char :=
  let (negated, cs) := match cs with
    | '^' :: rest => (true, rest)
    | _ => (false, cs)
  let hyphens := cs.takeWhile (· == '-')
  let rest := cs.dropWhile (· == '-')
  if hyphens.isEmpty then
    match rest with
    | ']' :: rest => ({ negated, members := [{ value := .single ']' }] }, rest)
    | _ => ({ negated }, rest)
  else ({ negated, members := hyphens.map fun c => { value := .single c } }, rest)

/-- A named class, read behind its opening bracket. -/
def readNamedClass? (ignoreCase : Bool) : List Char → Option (CharSet × List Char)
  | ':' :: cs =>
    let (negated, cs) := match cs with
      | '^' :: rest => (true, rest)
      | _ => (false, cs)
    match cs.dropWhile (· != ':') with
    | ':' :: ']' :: rest => do
      let set := (← namedClass? (String.ofList (cs.takeWhile (· != ':')))).fold ignoreCase
      return (if negated then set.compl else set, rest)
    | _ => none
  | _ => none

/-- One character of a class, or an escape. -/
def readMember? : List Char → Option (Escape × List Char)
  | [] => none
  | '\\' :: rest => readEscape? rest
  | c :: rest => some (.char c, rest)

/-- The set that a member stands for by itself; an anchor is none. -/
def Escape.members? : Escape → Option CharSet
  | .char c => some (.single c)
  | .set s => some s
  | .anchor _ => none

/-- A member or a range between two characters. A hyphen makes a range unless the class ends or an
operator stands there. -/
def readRange? (cs : List Char) : Option (CharSet × List Char) := do
  let (low, rest) ← readMember? cs
  match rest with
  | '-' :: ']' :: _ => return (← low.members?, rest)
  | '-' :: '-' :: _ => return (← low.members?, rest)
  | '-' :: rest =>
    let (high, rest) ← readMember? rest
    match low, high with
    | .char low, .char high => if low ≤ high then some (.range low high, rest) else none
    | _, _ => none
  | _ => return (← low.members?, rest)

/-- The rest of a class behind its opening, up to and including the closing bracket. The first
argument bounds the members read; a class has no more of them than characters. -/
def readClassBody? (ignoreCase : Bool) :
    Nat → OpenClass → List Char → Option (Nested CharSet × List Char)
  | 0, _, _ => none
  | _, _, [] => none
  | _, o, ']' :: rest => some (o.close ignoreCase, rest)
  | bound + 1, o, '[' :: rest =>
    match readNamedClass? ignoreCase rest with
    | some (s, rest) => readClassBody? ignoreCase bound (o.add { value := s }) rest
    | none =>
      let (inner, rest) := openClass rest
      match readClassBody? ignoreCase bound inner rest with
      | some (member, rest) => readClassBody? ignoreCase bound (o.add member) rest
      | none => none
  | bound + 1, o, '&' :: '&' :: rest =>
    readClassBody? ignoreCase bound (o.operator ignoreCase .inter) rest
  | bound + 1, o, '-' :: '-' :: rest =>
    readClassBody? ignoreCase bound (o.operator ignoreCase .diff) rest
  | bound + 1, o, '~' :: '~' :: rest =>
    readClassBody? ignoreCase bound (o.operator ignoreCase .symmDiff) rest
  | bound + 1, o, cs =>
    match readRange? cs with
    | some (s, rest) => readClassBody? ignoreCase bound (o.add { value := s }) rest
    | none => none

/-- A class, read behind its opening bracket. -/
def readClass? (ignoreCase : Bool) (cs : List Char) : Option (Nested CharSet × List Char) :=
  let (o, rest) := openClass cs
  readClassBody? ignoreCase (rest.length + 1) o rest

end Weave.Pattern
