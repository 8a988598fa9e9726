import Weave.Pattern.CharSet

/-!
# Pattern expressions

Alternatives and repetitions are ordered: the first branch of an alternative is preferred, a greedy
repetition prefers another round and a lazy one prefers to stop.

Expressions are kept in a normal form. A sequence nests to the right, without empty factors, and
neighbouring characters are one literal. So do alternatives, of which those between single
characters or between sets are one set, and those that begin alike have their common factors in
front. A repetition that matches nothing but the empty text takes one round at most. `ofSet`,
`concat`, `oneOf` and `repeated` build expressions of that form from their parts.
-/

namespace Weave.Pattern

/-- A condition on the place between two characters. -/
inductive Anchor where
  | textStart
  | textEnd
  | lineStart
  | lineEnd
  | wordBoundary
  | noWordBoundary
  | wordStart
  | wordEnd
  | wordStartHalf
  | wordEndHalf
  deriving DecidableEq, Repr

/-- Whether a neighbour is a character of a word; the ends of the text are none. -/
def isWordAt (c : Option Char) : Bool :=
  c.any CharSet.word.contains

/-- Whether an anchor holds between the character before a place and the one after it. -/
def Anchor.holds (before after : Option Char) : Anchor → Bool
  | textStart => before.isNone
  | textEnd => after.isNone
  | lineStart => before.all (· == '\n')
  | lineEnd => after.all (· == '\n')
  | wordBoundary => isWordAt before != isWordAt after
  | noWordBoundary => isWordAt before == isWordAt after
  | wordStart => !isWordAt before && isWordAt after
  | wordEnd => isWordAt before && !isWordAt after
  | wordStartHalf => !isWordAt before
  | wordEndHalf => !isWordAt after

inductive Expr where
  /-- Matches the empty text. -/
  | empty
  /-- Matches one text, which is not empty. -/
  | literal (text : List Char)
  /-- Matches the characters of a set, of which there is not exactly one. -/
  | char (set : CharSet)
  | anchor (a : Anchor)
  /-- A group whose text is remembered under its number, counted from one. -/
  | group (number : Nat) (body : Expr)
  | seq (first second : Expr)
  | alt (first second : Expr)
  /-- At least `least` rounds of the body and at most `most`, where there is a limit. -/
  | rounds (least : Nat) (most : Option Nat) (greedy : Bool) (body : Expr)
  deriving DecidableEq, Repr

namespace Expr

/-- The length of the shortest text that an expression can match, as far as lengths tell. A set
without members has none. -/
def minLength? : Expr → Option Nat
  | empty => some 0
  | literal text => some text.length
  | char set => if set = .empty then none else some 1
  | anchor _ => some 0
  | group _ body => body.minLength?
  | seq a b => do return (← a.minLength?) + (← b.minLength?)
  | alt a b => do return min (← a.minLength?) (← b.minLength?)
  | rounds least _ _ body => body.minLength?.map (least * ·)

/-- The length of the longest text that an expression can match, if there is a limit. -/
def maxLength? : Expr → Option Nat
  | empty => some 0
  | literal text => some text.length
  | char set => if set = .empty then none else some 1
  | anchor _ => some 0
  | group _ body => body.maxLength?
  | seq a b => do return (← a.maxLength?) + (← b.maxLength?)
  | alt a b => do return max (← a.maxLength?) (← b.maxLength?)
  | rounds _ most _ body => do return (← most) * (← body.maxLength?)

/-- Whether every match of an expression takes a character. -/
def isConsuming (e : Expr) : Bool :=
  e.minLength?.any (0 < ·)

def ofSet (set : CharSet) : Expr :=
  match set.only? with
  | some c => literal [c]
  | none => char set

/-- The factors of a sequence, in order. -/
def factors : Expr → List Expr
  | empty => []
  | seq a b => a.factors ++ b.factors
  | e => [e]

def cons : Expr → Expr → Expr
  | literal s, literal t => literal (s ++ t)
  | literal s, seq (literal t) e => seq (literal (s ++ t)) e
  | a, empty => a
  | a, e => seq a e

def concat (es : List Expr) : Expr :=
  (es.flatMap factors).foldr cons empty

/-- The branches of an alternative, the preferred one first. -/
def branches : Expr → List Expr
  | alt a b => a.branches ++ b.branches
  | e => [e]

/-- The character that an expression stands for, if it is a literal of one. -/
def onlyChar? : Expr → Option Char
  | literal [c] => some c
  | _ => none

def set? : Expr → Option CharSet
  | char set => some set
  | _ => none

/-- Branches nested to the right. -/
def nest : Expr → List Expr → Expr
  | e, [] => e
  | e, next :: es => alt e (nest next es)

/-- The alternative of branches that are no alternatives themselves. Characters are gathered in a
set, and so are sets. -/
def alternatives : List Expr → Expr
  | [] => char .empty
  | [e] => e
  | e :: es =>
    match (e :: es).mapM onlyChar? with
    | some chars => ofSet (.unions (chars.map .single))
    | none =>
      match (e :: es).mapM set? with
      | some sets => ofSet (.unions sets)
      | none => nest e es

/-- The factors that two lists have in common in front. -/
def sharedFront : List Expr → List Expr → List Expr
  | a :: as, b :: bs => if a = b then a :: sharedFront as bs else []
  | _, _ => []

/-- The factors that all branches begin with, where there are several branches and each of them is
a sequence. -/
def commonFront : List Expr → List Expr
  | seq a b :: e :: es =>
    (e :: es).foldl
      (fun front e => match e with
        | seq c d => sharedFront front (seq c d).factors
        | _ => [])
      (seq a b).factors
  | _ => []

/-- The alternative of a list of expressions, the first one preferred. -/
def oneOf (es : List Expr) : Expr :=
  let es := es.flatMap branches
  let front := commonFront es
  if front.isEmpty then alternatives es
  else
    let rests := es.map fun e => concat (e.factors.drop front.length)
    concat (front ++ [alternatives (rests.flatMap branches)])

/-- A number of rounds of a body. If the body matches nothing but the empty text, one round is as
good as many. -/
def repeated (least : Nat) (most : Option Nat) (greedy : Bool) (body : Expr) : Expr :=
  let idle := body.maxLength? = some 0
  let least := if idle then min least 1 else least
  let most := if idle then some (min (most.getD 1) 1) else most
  if most = some 0 then empty
  else if least = 1 ∧ most = some 1 then body
  else rounds least most greedy body

example : concat [literal ['a'], empty, literal ['b']] = literal ['a', 'b'] := by decide
example : oneOf [literal ['a'], literal ['b']] = char (.range 'a' 'b') := by decide
example : repeated 0 none true (anchor .textEnd) = rounds 0 (some 1) true (anchor .textEnd) := by
  decide

/-- The highest number of a group. -/
def groups : Expr → Nat
  | empty => 0
  | literal _ => 0
  | char _ => 0
  | anchor _ => 0
  | group number body => max number body.groups
  | seq a b => max a.groups b.groups
  | alt a b => max a.groups b.groups
  | rounds _ _ _ body => body.groups

end Expr

end Weave.Pattern
