import Weave.Pattern.Class

/-!
# Reading patterns

Reading an expression from its text. The reader keeps the groups that are open, innermost first.
Each character either completes an operand, which a repetition behind it may still extend, or opens
or closes a group, or starts the next branch of an alternative. Flags hold from where they are set
to the end of the enclosing group.

The language is not read in full. The flags `x`, which leaves out blanks and comments, `R`, which
lets carriage returns end lines, and `u`, which turns Unicode off and on, count as unknown, and so
do the escapes `\p` and `\P` for characters with a property. Where letter case is ignored, the
Latin letters without marks alone have other forms.
-/

namespace Weave.Pattern

structure Flags where
  ignoreCase : Bool := false
  /-- Line ends, too, are met by the anchors of start and end. -/
  multiLine : Bool := false
  /-- The dot stands for a line feed, too. -/
  dotAll : Bool := false
  /-- Greedy and lazy repetitions change places. -/
  swapGreed : Bool := false
  deriving DecidableEq, Repr

/-- Set or clear a flag. The flags `x`, `R` and `u` are not offered. -/
def Flags.put? (flags : Flags) (on : Bool) : Char → Option Flags
  | 'i' => some { flags with ignoreCase := on }
  | 'm' => some { flags with multiLine := on }
  | 's' => some { flags with dotAll := on }
  | 'U' => some { flags with swapGreed := on }
  | _ => none

/-- Flags up to the colon or parenthesis behind them. No letter and no hyphen is repeated, and a
hyphen, which clears the flags behind it, is not the last. The letters and hyphens read so far are
in `seen`. The answer tells whether a group follows. -/
def readFlags? (flags : Flags) (on : Bool) (seen : List Char) :
    List Char → Option (Flags × Bool × List Char)
  | [] => none
  | ':' :: rest => if seen.head? = some '-' then none else some (flags, true, rest)
  | ')' :: rest =>
    if seen.isEmpty || seen.head? = some '-' then none else some (flags, false, rest)
  | c :: rest =>
    if c ∈ seen then none
    else if c = '-' then readFlags? flags false (c :: seen) rest
    else do readFlags? (← flags.put? on c) on (c :: seen) rest

/-- Whether a character may stand in the name of a group, `first` saying whether it is the first. -/
def isNameChar (first : Bool) (c : Char) : Bool :=
  if first then CharSet.word.contains c && !CharSet.digit.contains c
  else CharSet.word.contains c || c == '.' || c == '[' || c == ']'

/-- The name of a group up to the angle bracket behind it. -/
def readName? (cs : List Char) : Option (String × List Char) :=
  let name := cs.takeWhile (· != '>')
  match cs.dropWhile (· != '>'), name with
  | _ :: rest, first :: others =>
    if isNameChar true first && others.all (isNameChar false) then
      some (String.ofList name, rest)
    else none
  | _, _ => none

inductive Opening where
  | capture (name : Option String)
  | plain (flags : Flags)
  /-- No group is opened; the flags change for the rest of the enclosing group. -/
  | setFlags (flags : Flags)
  deriving DecidableEq, Repr

/-- What stands behind an opening parenthesis. Looking ahead or behind is not offered. -/
def readOpening? (flags : Flags) : List Char → Option (Opening × List Char)
  | '?' :: '=' :: _ => none
  | '?' :: '!' :: _ => none
  | '?' :: '<' :: '=' :: _ => none
  | '?' :: '<' :: '!' :: _ => none
  | '?' :: 'P' :: '<' :: rest => (readName? rest).map fun (n, rest) => (.capture (some n), rest)
  | '?' :: '<' :: rest => (readName? rest).map fun (n, rest) => (.capture (some n), rest)
  | '?' :: rest =>
    (readFlags? flags true [] rest).map fun (flags, opens, rest) =>
      (if opens then .plain flags else .setFlags flags, rest)
  | rest => some (.capture none, rest)

structure OpenGroup where
  /-- Its number, if its text is remembered. -/
  number : Option Nat := none
  /-- The flags to return to behind it. -/
  outerFlags : Flags := {}
  /-- The finished branches, the latest first. -/
  branches : List (Nested Expr) := []
  /-- The operands of the branch being read, the latest first. A setting of flags stands among them
  as `none`: it matches the empty text, and a repetition cannot extend it. -/
  operands : List (Option (Nested Expr)) := []

namespace OpenGroup

def branch (g : OpenGroup) : Nested Expr :=
  let parts := g.operands.reverse.map (·.getD { value := .empty })
  ⟨.concat (parts.map Nested.value), depthOfList parts⟩

/-- The alternative of all branches, the first one preferred. -/
def body (g : OpenGroup) : Nested Expr :=
  let branches := (g.branch :: g.branches).reverse
  ⟨.oneOf (branches.map Nested.value), depthOfList branches⟩

/-- The group as an operand of the enclosing one. -/
def close (g : OpenGroup) : Nested Expr :=
  let body := g.body
  ⟨match g.number with
    | none => body.value
    | some number => .group number body.value, body.depth + 1⟩

def push (g : OpenGroup) (operand : Nested Expr) : OpenGroup :=
  { g with operands := some operand :: g.operands }

def settle (g : OpenGroup) : OpenGroup :=
  { g with operands := none :: g.operands }

def repeatLast? (g : OpenGroup) (least : Nat) (most : Option Nat) (greedy : Bool) :
    Option OpenGroup :=
  match g.operands with
  | some operand :: operands =>
    let e := operand.value.repeated least most greedy
    some { g with operands := some ⟨e, operand.depth + 1⟩ :: operands }
  | _ => none

def split (g : OpenGroup) : OpenGroup :=
  { g with branches := g.branch :: g.branches, operands := [] }

end OpenGroup

structure Reader where
  flags : Flags := {}
  /-- The number of groups opened so far whose text is remembered. -/
  captures : Nat := 0
  names : List String := []
  group : OpenGroup := {}
  outer : List OpenGroup := []

namespace Reader

def push (r : Reader) (operand : Nested Expr) : Reader :=
  { r with group := r.group.push operand }

/-- Add an operand that does not nest. -/
def pushLeaf (r : Reader) (e : Expr) : Reader :=
  r.push { value := e }

/-- Repeat the last operand. A question mark behind the repetition makes it lazy. -/
def repeatLast? (r : Reader) (least : Nat) (most : Option Nat) (rest : List Char) :
    Option (Reader × List Char) := do
  let (lazy, rest) := match rest with
    | '?' :: rest => (true, rest)
    | _ => (false, rest)
  return ({ r with group := ← r.group.repeatLast? least most (lazy == r.flags.swapGreed) }, rest)

/-- Open a group, or set flags. -/
def openGroup? (r : Reader) : Opening → Option Reader
  | .capture name =>
    let repeated := name.any r.names.contains
    if repeated then none
    else some { r with
      captures := r.captures + 1
      names := name.toList ++ r.names
      group := { number := some (r.captures + 1), outerFlags := r.flags }
      outer := r.group :: r.outer }
  | .plain flags => some { r with
      flags
      group := { outerFlags := r.flags }
      outer := r.group :: r.outer }
  | .setFlags flags => some { r with flags, group := r.group.settle }

/-- Close the innermost group, which is not the whole expression. -/
def closeGroup? (r : Reader) : Option Reader :=
  match r.outer with
  | [] => none
  | enclosing :: outer => some { r with
      flags := r.group.outerFlags
      group := enclosing.push r.group.close
      outer }

def pushChar (r : Reader) (c : Char) : Reader :=
  r.pushLeaf (.ofSet ((CharSet.single c).fold r.flags.ignoreCase))

def pushEscape (r : Reader) : Escape → Reader
  | .char c => r.pushChar c
  | .set s => r.pushLeaf (.ofSet s)
  | .anchor a => r.pushLeaf (.anchor a)

end Reader

/-- The highest count that a repetition may name. -/
def countLimit : Nat := 4294967295

/-- A count, with blanks around it. -/
def readCount? (cs : List Char) : Option (Nat × List Char) := do
  let cs := cs.dropWhile Text.isBlank
  let count ← Text.numberOf? 10 (cs.takeWhile Char.isDigit)
  if count ≤ countLimit then some (count, (cs.dropWhile Char.isDigit).dropWhile Text.isBlank)
  else none

/-- The counts of a repetition, read behind the opening brace. -/
def readCounts? (cs : List Char) : Option (Nat × Option Nat × List Char) := do
  let (least, rest) ← readCount? cs
  match rest with
  | '}' :: rest => some (least, some least, rest)
  | ',' :: '}' :: rest => some (least, none, rest)
  | ',' :: rest =>
    let (most, rest) ← readCount? rest
    match rest with
    | '}' :: rest => if least ≤ most then some (least, some most, rest) else none
    | _ => none
  | _ => none

/-- Read the next part of an expression, of which `c` is the first character. -/
def Reader.step? (r : Reader) (c : Char) (rest : List Char) : Option (Reader × List Char) :=
  match c with
  | '(' => do
    let (opening, rest) ← readOpening? r.flags rest
    return (← r.openGroup? opening, rest)
  | ')' => do return (← r.closeGroup?, rest)
  | '|' => some ({ r with group := r.group.split }, rest)
  | '[' => do
    let (s, rest) ← readClass? r.flags.ignoreCase rest
    return (r.push ⟨.ofSet s.value, s.depth⟩, rest)
  | '?' => r.repeatLast? 0 (some 1) rest
  | '*' => r.repeatLast? 0 none rest
  | '+' => r.repeatLast? 1 none rest
  | '{' => do
    let (least, most, rest) ← readCounts? rest
    r.repeatLast? least most rest
  | '\\' => do
    let (escape, rest) ← readEscape? rest
    return (r.pushEscape escape, rest)
  | '.' =>
    let set := if r.flags.dotAll then .full else (CharSet.single '\n').compl
    some (r.pushLeaf (.ofSet set), rest)
  | '^' => some (r.pushLeaf (.anchor (if r.flags.multiLine then .lineStart else .textStart)), rest)
  | '$' => some (r.pushLeaf (.anchor (if r.flags.multiLine then .lineEnd else .textEnd)), rest)
  | c => some (r.pushChar c, rest)

/-- Read the rest of an expression. The first argument bounds the steps; each of them takes at
least one character. -/
def Reader.finish? : Nat → Reader → List Char → Option (Nested Expr)
  | _, r, [] => if r.outer.isEmpty then some r.group.body else none
  | 0, _, _ :: _ => none
  | bound + 1, r, c :: rest =>
    match r.step? c rest with
    | some (r, rest) => finish? bound r rest
    | none => none

/-- The expression that a text writes, if it writes one and does not nest too deeply. -/
def Expr.ofChars? (cs : List Char) : Option Expr :=
  match Reader.finish? cs.length {} cs with
  | some e => if e.depth ≤ depthLimit then some e.value else none
  | none => none

end Weave.Pattern
