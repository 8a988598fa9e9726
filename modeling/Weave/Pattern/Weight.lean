import Weave.Pattern.Expr
import Weave.Pattern.Register

/-!
# The weight of patterns

A pattern is refused when it would take too much room. Two automata are weighed that read the bytes
of a text in UTF-8: one from the start, which also remembers the groups, and one from the end.
Laying out a repetition comes to an end as soon as the limit is passed, so that many rounds cost
little to refuse.
-/

namespace Weave.Pattern

/-- The highest weight of a pattern. -/
def weightLimit : Nat := 10485760

/-- Where an expression stands: alone, or as a branch of an alternative behind the first one. -/
inductive Position where
  | alone
  | second
  | later
  deriving DecidableEq, Repr

namespace Layout

/-- Lay out a part a number of times, or until the limit is passed. -/
def addCopies (part : Layout → Layout) : Nat → Layout → Layout
  | 0, l => l
  | n + 1, l => if weightLimit < l.weight then l else addCopies part n (part l)

/-- Join a branch that has been laid out to its alternative. The choice between the branches and the
state behind them are laid out with the second. -/
def join (l : Layout) : Position → Layout
  | .alone => l
  | .second => (l.addChoice 2).addPlain 1
  | .later => l.addExits 1

end Layout

namespace Expr

/-- The texts of an alternative that has literals for branches. -/
def literals? : Expr → Option (List (List Char))
  | literal text => some [text]
  | alt a b => do return (← a.literals?) ++ (← b.literals?)
  | _ => none

def layout (direction : Direction) : Position → Expr → Layout → Layout
  | position, empty, l => (l.addPlain 1).join position
  | position, literal text, l => (l.addPlain (bytesOf direction text).length).join position
  | position, char set, l => (l.addSet direction set).join position
  | position, anchor _, l => (l.addPlain 1).join position
  | position, group _ body, l =>
    let l := match direction with
      | .forward => (body.layout .forward .alone (l.addPlain 1)).addPlain 1
      | .backward => body.layout .backward .alone l
    l.join position
  | position, seq a b, l =>
    let l := match direction with
      | .forward => b.layout .forward .alone (a.layout .forward .alone l)
      | .backward => a.layout .backward .alone (b.layout .backward .alone l)
    l.join position
  | .alone, alt a b, l =>
    match (alt a b).literals? with
    | some texts => l.addTexts direction texts
    | none => b.layout direction .second (a.layout direction .alone l)
  | position, alt a b, l => b.layout direction .later (a.layout direction position l)
  | position, rounds 0 (some 1) _ body, l =>
    ((body.layout direction .alone (l.addChoice 2)).addPlain 1).join position
  | position, rounds 0 none _ body, l =>
    let l :=
      if body.isConsuming then body.layout direction .alone (l.addChoice 2)
      else (((body.layout direction .alone l).addChoice 2).addChoice 2).addPlain 1
    l.join position
  | position, rounds least none _ body, l =>
    ((Layout.addCopies (body.layout direction .alone) least l).addChoice 2).join position
  | position, rounds least (some most) _ body, l =>
    let l := if least = 0 then l.addPlain 1
      else Layout.addCopies (body.layout direction .alone) least l
    let l := if least = most then l
      else Layout.addCopies (fun l => body.layout direction .alone (l.addChoice 2)) (most - least)
        (l.addPlain 1)
    l.join position

/-- Whether every match begins where an anchor holds, as far as leading anchors tell. -/
def opensAt (a : Anchor) : Expr → Bool
  | anchor b => a = b
  | group _ body => body.opensAt a
  | seq x y => x.opensAt a || (y.opensAt a && x.maxLength? = some 0)
  | alt x y => x.opensAt a && y.opensAt a
  | rounds least _ _ body => 0 < least && body.opensAt a
  | _ => false

/-- Whether every match ends where an anchor holds, as far as trailing anchors tell. -/
def closesAt (a : Anchor) : Expr → Bool
  | anchor b => a = b
  | group _ body => body.closesAt a
  | seq x y => y.closesAt a || (x.closesAt a && y.maxLength? = some 0)
  | alt x y => x.closesAt a && y.closesAt a
  | rounds least _ _ body => 0 < least && body.closesAt a
  | _ => false

/-- The automaton of an expression that reads in a direction. Before a match it passes over any
bytes, unless every match begins where the automaton does. -/
def automaton (direction : Direction) (e : Expr) : Layout :=
  let tied := match direction with
    | .forward => e.opensAt .textStart
    | .backward => e.closesAt .textEnd
  let start : Layout := {}
  let l := if tied then start.addPlain 1 else ((start.addChoice 2).addPlain 1).addBranching 1
  match direction with
  | .forward => (e.layout .forward .alone (l.addPlain 1)).addPlain 2
  | .backward => (e.layout .backward .alone l).addPlain 1

/-- Whether an expression is an alternative of a great many texts. Such texts are looked up as words
of a dictionary, which takes no automaton. -/
def isDictionary : Expr → Bool
  | alt a b => (alt a b).literals?.any fun texts => 3000 ≤ texts.length
  | _ => false

/-- Whether an expression takes no more room than a pattern may. -/
def fits (e : Expr) : Bool :=
  e.isDictionary ||
    (e.automaton .backward).weight ≤ weightLimit && (e.automaton .forward).weight ≤ weightLimit

end Expr

end Weave.Pattern
