/-!
# Layouts of automata

How much room an automaton takes that reads texts byte by byte. Its states are laid out one after
another and numbered from zero. Each of them weighs thirty-two bytes, and more where it leads to
several places.
-/

namespace Weave.Pattern

/-- The end of a text from which an automaton reads it. -/
inductive Direction where
  | forward
  | backward
  deriving DecidableEq, Repr

structure Layout where
  /-- Their number, which is also the number of the next one. -/
  states : Nat := 0
  /-- The weight of what leads out of them. -/
  exits : Nat := 0
  deriving DecidableEq, Repr

namespace Layout

def weight (l : Layout) : Nat :=
  32 * l.states + l.exits

def addPlain (l : Layout) (count : Nat) : Layout :=
  { l with states := l.states + count }

/-- Add places to those that a state leads to without reading. -/
def addExits (l : Layout) (count : Nat) : Layout :=
  { l with exits := l.exits + 4 * count }

/-- Lay out the choice between a number of places. -/
def addChoice (l : Layout) (count : Nat) : Layout :=
  (l.addPlain 1).addExits count

/-- Lay out a state that reads a byte of one of several ranges, each with a place of its own to go
to. -/
def addBranching (l : Layout) (count : Nat) : Layout :=
  { states := l.states + 1, exits := l.exits + 8 * count }

end Layout

/-- The bytes of a text in the order in which they are read. -/
def bytesOf (direction : Direction) (text : List Char) : List UInt8 :=
  let bytes := text.flatMap String.utf8EncodeChar
  match direction with
  | .forward => bytes
  | .backward => bytes.reverse

/-- The lists of texts that stand between empty ones. -/
def chunks : List (List UInt8) → List (List (List UInt8))
  | [] => [[]]
  | [] :: rest => [] :: chunks rest
  | text :: rest =>
    match chunks rest with
    | chunk :: others => (text :: chunk) :: others
    | [] => [[text]]

def firstBytes (texts : List (List UInt8)) : List UInt8 :=
  (texts.filterMap List.head?).eraseDups

/-- What stands behind a first byte, in the order of the texts. -/
def behindByte (b : UInt8) (texts : List (List UInt8)) : List (List UInt8) :=
  texts.filterMap fun
    | [] => none
    | c :: rest => if c = b then some rest else none

namespace Layout

/-- Lay out the states that tell texts apart, the preferred one first. Texts are read together as
far as they begin alike; but behind the end of a text those that follow it are read anew, so that a
choice stands before each byte. The first argument bounds the length of the texts. -/
def addBeginnings : Nat → List (List UInt8) → Layout → Layout
  | 0, _, l => l
  | bound + 1, texts, l =>
    if texts.all List.isEmpty then l
    else
      let texts := match texts with
        | [] :: rest => [] :: rest.dropWhile List.isEmpty
        | texts => texts
      let chunks := chunks texts
      let filled := chunks.filter fun chunk => !chunk.isEmpty
      let l := filled.foldl
        (fun l chunk =>
          let bytes := firstBytes chunk
          let l := bytes.foldl (fun l b => addBeginnings bound (behindByte b chunk) l) l
          if bytes.length = 1 then l.addPlain 1 else l.addBranching bytes.length)
        l
      l.addChoice (filled.length + (chunks.length - 1))

def addTexts (direction : Direction) (texts : List (List Char)) (l : Layout) : Layout :=
  let texts := texts.map (bytesOf direction)
  let longest := (texts.map List.length).foldl max 0
  addBeginnings (longest + 1) texts (l.addPlain 1)

example : (addTexts .forward [['a', 'b'], ['c', 'd']] {}).weight = 252 := by decide +kernel

end Layout

end Weave.Pattern
