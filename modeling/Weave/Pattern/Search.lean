import Weave.Pattern.Program

/-!
# Searching a text

Running a program over a text. All ways to match are followed side by side, as an ordered list of
threads: those from a place further left come first, and of those from one place the preferred one.
At each place of the text an instruction is entered once only, by the thread that comes to it first,
so a list never outgrows the program and an empty round of a repetition ends there. A thread that
accepts hides those behind it; the match reported is the last one accepted.
-/

namespace Weave.Pattern

/-- The place remembered in each slot, where one has been. -/
abbrev Slots := List (Option Nat)

/-- A way to match that has come to an instruction. -/
structure Thread where
  pc : Nat
  slots : Slots
  deriving DecidableEq, Repr

/-- A place of the text, with the characters beside it. -/
structure Place where
  index : Nat
  before : Option Char
  after : Option Char
  deriving DecidableEq, Repr

/-- Follow the waiting threads through the instructions that read nothing. What remains, in order,
are the threads at an instruction that reads a character, and at most one that accepts, in the last
position; those found so far are in `settled`, the latest first. The first argument bounds the
instructions entered or found entered before. -/
def follow (program : Program) (place : Place) :
    Nat → Array Bool → List Thread → List Thread → List Thread
  | 0, _, settled, _ => settled.reverse
  | _, _, settled, [] => settled.reverse
  | bound + 1, entered, settled, thread :: waiting =>
    if entered.getD thread.pc true then follow program place bound entered settled waiting
    else
      let entered := entered.setIfInBounds thread.pc true
      match program[thread.pc]? with
      | none => follow program place bound entered settled waiting
      | some (.char _) => follow program place bound entered (thread :: settled) waiting
      | some (.anchor a) =>
        if a.holds place.before place.after then
          let moved := { thread with pc := thread.pc + 1 }
          follow program place bound entered settled (moved :: waiting)
        else follow program place bound entered settled waiting
      | some (.mark slot) =>
        let slots := thread.slots.set slot (some place.index)
        follow program place bound entered settled (⟨thread.pc + 1, slots⟩ :: waiting)
      | some (.fork first second) =>
        follow program place bound entered settled
          ({ thread with pc := first } :: { thread with pc := second } :: waiting)
      | some (.jump target) =>
        follow program place bound entered settled ({ thread with pc := target } :: waiting)
      | some .accept => (thread :: settled).reverse

/-- The threads that live at a place. Each instruction entered adds at most two waiting threads, so
the bound is not met. -/
def live (program : Program) (place : Place) (waiting : List Thread) : List Thread :=
  follow program place (waiting.length + 2 * program.size) (Array.replicate program.size false) []
    waiting

/-- The thread that has accepted, if one has. -/
def accepted? (program : Program) (threads : List Thread) : Option Thread :=
  threads.find? fun thread => program[thread.pc]? == some .accept

/-- The threads whose instruction reads a character, each moved behind it. -/
def advance (program : Program) (c : Char) (threads : List Thread) : List Thread :=
  threads.filterMap fun (thread : Thread) =>
    match program[thread.pc]? with
    | some (.char set) => if set.contains c then some ⟨thread.pc + 1, thread.slots⟩ else none
    | _ => none

/-- Run threads over the rest of a text, keeping the slots of the last thread that accepted. While
none has, a match may also begin at each place, behind all the threads under way. -/
def run (program : Program) (fresh : Slots) (waiting : List Thread) (best : Option Slots)
    (index : Nat) (before : Option Char) (rest : List Char) : Option Slots :=
  let waiting := if best.isNone then waiting ++ [⟨0, fresh⟩] else waiting
  let threads := live program ⟨index, before, rest.head?⟩ waiting
  let best := ((accepted? program threads).map Thread.slots).or best
  match rest with
  | [] => best
  | c :: rest =>
    let moved := advance program c threads
    if moved.isEmpty && best.isSome then best
    else run program fresh moved best (index + 1) (some c) rest

/-- The slots of the leftmost match in a text, for a program with the given number of groups. -/
def search (program : Program) (groups : Nat) (text : List Char) : Option Slots :=
  run program (List.replicate (2 * groups) none) [] none 0 none text

/-- The text of a group, if it took part in the match. -/
def groupText? (text : List Char) (slots : Slots) (number : Nat) : Option (List Char) :=
  match slots[groupSlot number]?, slots[groupSlot number + 1]? with
  | some (some first), some (some behind) => some ((text.take behind).drop first)
  | _, _ => none

end Weave.Pattern
