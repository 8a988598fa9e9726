import Weave.Pattern.Encoding
import Weave.Pattern.Layout

/-!
# Layouts of sets

The states that read a character of a set. Characters of one byte are read by one state. Others are
read byte by byte, by states that the encodings share: forwards, those that go on alike, and
backwards, those that began alike.

The states that may be shared are registered in a table. It has a fixed number of places, and a
state takes its place from the one that stood there before; so now and then a state is laid out anew
although there is one like it.
-/

namespace Weave.Pattern

/-- The place of a state in a table with a number of places: a hash of the numbers that tell the
state from others, each of which is mixed in by an exclusive or and a multiplication. -/
def placeOf (places : UInt64) (numbers : List Nat) : UInt64 :=
  numbers.foldl (fun hash n => (hash ^^^ n.toUInt64) * 1099511628211) 14695981039346656037 % places

/-- Ascending sequences by their first range, with what stands behind it. -/
def groupFirst : List (List ByteRange) → List (ByteRange × List (List ByteRange))
  | [] => []
  | [] :: rest => groupFirst rest
  | (range :: tail) :: rest =>
    match groupFirst rest with
    | (next, tails) :: groups =>
      if range = next then (range, tail :: tails) :: groups
      else (range, [tail]) :: (next, tails) :: groups
    | [] => [(range, [tail])]

/-- The ranges that a state reads, each with the number of the state it leads to. -/
abbrev Branches := List (ByteRange × Nat)

structure Registered where
  place : UInt64
  branches : Branches
  state : Nat
  deriving DecidableEq, Repr

/-- A layout with the states that may be shared, the latest first. -/
structure Register where
  layout : Layout
  entries : List Registered := []
  deriving DecidableEq, Repr

namespace Register

/-- The state that reads the given ranges, if it stands in its place. -/
def find? (r : Register) (place : UInt64) (branches : Branches) : Option Nat :=
  (r.entries.find? fun e => e.place == place).bind fun e =>
    if e.branches = branches then some e.state else none

/-- The state that reads the given ranges, laid out if it is not found. -/
def share (r : Register) (branches : Branches) : Nat × Register :=
  let place := placeOf 10000 (branches.flatMap fun ((low, high), next) => [low, high, next])
  match r.find? place branches with
  | some state => (state, r)
  | none =>
    let state := r.layout.states
    (state, ⟨r.layout.addBranching branches.length, ⟨place, branches, state⟩ :: r.entries⟩)

/-- The state that reads one of several sequences and leads to a given state, which is also the
answer where nothing is left to read. The first argument bounds the length of the sequences. -/
def addSequences (target : Nat) : Nat → List (List ByteRange) → Register → Nat × Register
  | 0, _, r => (target, r)
  | bound + 1, sequences, r =>
    if sequences.all List.isEmpty then (target, r)
    else
      let (branches, r) := (groupFirst sequences).foldl
        (fun (branches, r) (range, tails) =>
          let (next, r) := addSequences target bound tails r
          ((range, next) :: branches, r))
        ([], r)
      r.share branches.reverse

end Register

/-- A state of the sequence read last, which the next sequence may begin with. -/
structure Begun where
  range : ByteRange
  place : UInt64
  state : Nat
  deriving DecidableEq, Repr

/-- The states that stand in their places, up to the first that has lost it to a later one. -/
def standing : List Begun → List Begun
  | [] => []
  | b :: rest => if rest.any fun c => c.place == b.place then [] else b :: standing rest

namespace Layout

/-- Lay out the states that read a sequence behind a given state. -/
def addRanges (before : Nat) : List ByteRange → Layout → List Begun × Layout
  | [], l => ([], l)
  | (low, high) :: ranges, l =>
    let state := l.states
    let (rest, l) := addRanges state ranges (l.addPlain 1)
    (⟨(low, high), placeOf 1000 [before, low, high], state⟩ :: rest, l)

/-- The states that read a sequence behind a given state. Those that it may begin with are not laid
out anew. -/
def addSequence (before : Nat) : List Begun → List ByteRange → Layout → List Begun × Layout
  | b :: begun, range :: ranges, l =>
    if b.range = range then
      let (rest, l) := addSequence b.state begun ranges l
      (b :: rest, l)
    else addRanges before (range :: ranges) l
  | _, ranges, l => addRanges before ranges l

def addSet (direction : Direction) (set : CharSet) (l : Layout) : Layout :=
  if set.ranges.all fun (_, high) => high < 0x80 then
    (l.addPlain 1).addBranching set.ranges.length
  else
    let sequences := set.encodings
    match direction with
    | .forward => (Register.addSequences l.states 4 sequences ⟨l.addPlain 1, []⟩).2.layout
    | .backward =>
      let accepting := l.states + 1
      let l := (l.addChoice sequences.length).addPlain 1
      (sequences.foldl
        (fun (begun, l) sequence => addSequence accepting (standing begun) sequence l)
        (([] : List Begun), l)).2

example : (addSet .forward .blank {}).weight = 424 := by decide +kernel
example : (addSet .backward .blank {}).weight = 680 := by decide +kernel

end Layout

end Weave.Pattern
