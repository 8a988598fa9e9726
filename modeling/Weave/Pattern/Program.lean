import Weave.Pattern.Expr

/-!
# Matcher programs

Programs of the pattern matcher. An instruction that reads a character, tests an anchor or marks a
place is followed by the next one, and a fork names two, of which the first is preferred. The
instructions of an expression are put behind those of a program; how many they are is known
beforehand, so that forks and jumps can name places further on.
-/

namespace Weave.Pattern

inductive Instr where
  | char (set : CharSet)
  | anchor (a : Anchor)
  /-- Remember the current place in a slot. -/
  | mark (slot : Nat)
  | fork (first second : Nat)
  | jump (target : Nat)
  | accept
  deriving DecidableEq, Repr

/-- A program, addressed from zero. -/
abbrev Program := Array Instr

/-- A fork between going on and going elsewhere, which a greedy choice prefers in this order. -/
def Instr.choice (greedy : Bool) (on elsewhere : Nat) : Instr :=
  if greedy then fork on elsewhere else fork elsewhere on

/-- The slot of the start of a group; its end has the next slot. -/
def groupSlot (number : Nat) : Nat :=
  2 * (number - 1)

namespace Program

/-- Put a number of copies of a body behind a program. -/
def copies (body : Program → Program) : Nat → Program → Program
  | 0, p => p
  | n + 1, p => copies body n (body p)

/-- Put a number of copies of a body of `width` instructions behind a program, each of which may be
left out together with those after it. -/
def optionals (body : Program → Program) (width : Nat) (greedy : Bool) : Nat → Program → Program
  | 0, p => p
  | n + 1, p =>
    let behind := p.size + (n + 1) * (width + 1)
    optionals body width greedy n (body (p.push (.choice greedy (p.size + 1) behind)))

/-- Put the instructions that read a text behind a program. -/
def literal (text : List Char) (p : Program) : Program :=
  text.foldl (fun p c => p.push (.char (.single c))) p

end Program

namespace Expr

def width : Expr → Nat
  | empty => 0
  | literal text => text.length
  | char _ => 1
  | anchor _ => 1
  | group _ body => body.width + 2
  | seq a b => a.width + b.width
  | alt a b => a.width + b.width + 2
  | rounds 0 none _ body => body.width + 2
  | rounds (least + 1) none _ body => (least + 1) * body.width + 1
  | rounds least (some most) _ body =>
    least * body.width + (most - least) * (body.width + 1)

/-- Put the instructions of an expression behind a program. An unlimited repetition ends in a fork
back to its last copy. Where it may take no round at all, the body stands once between a fork that
may leave it out and a jump back to that fork; but behind a body that may take no character stands a
second fork instead, so that a round without progress does not return to the first. The first branch
of an alternative jumps over the second. -/
def emit : Expr → Program → Program
  | empty, p => p
  | literal text, p => p.literal text
  | char set, p => p.push (.char set)
  | anchor a, p => p.push (.anchor a)
  | group number body, p =>
    (body.emit (p.push (.mark (groupSlot number)))).push (.mark (groupSlot number + 1))
  | seq a b, p => b.emit (a.emit p)
  | alt a b, p =>
    let second := p.size + a.width + 2
    b.emit ((a.emit (p.push (.fork (p.size + 1) second))).push (.jump (second + b.width)))
  | rounds 0 none greedy body, p =>
    let start := p.size
    let choice := Instr.choice greedy (start + 1) (start + body.width + 2)
    (body.emit (p.push choice)).push (if body.isConsuming then .jump start else choice)
  | rounds (least + 1) none greedy body, p =>
    let last := p.size + least * body.width
    (Program.copies body.emit (least + 1) p).push (.choice greedy last (last + body.width + 1))
  | rounds least (some most) greedy body, p =>
    Program.optionals body.emit body.width greedy (most - least)
      (Program.copies body.emit least p)

/-- The program that runs an expression and accepts. -/
def program (e : Expr) : Program :=
  (e.emit #[]).push .accept

end Expr

namespace Program

theorem size_copies (body : Program → Program) (width : Nat)
    (fits : ∀ p, (body p).size = p.size + width) (n : Nat) (p : Program) :
    (copies body n p).size = p.size + n * width := by
  induction n generalizing p with
  | zero => simp [copies]
  | succ n ih =>
    rw [copies, ih, fits, Nat.succ_mul]
    omega

theorem size_optionals (body : Program → Program) (width : Nat) (greedy : Bool)
    (fits : ∀ p, (body p).size = p.size + width) (n : Nat) (p : Program) :
    (optionals body width greedy n p).size = p.size + n * (width + 1) := by
  induction n generalizing p with
  | zero => simp [optionals]
  | succ n ih =>
    rw [optionals, ih, fits, Array.size_push, Nat.succ_mul]
    omega

theorem size_literal (text : List Char) (p : Program) :
    (p.literal text).size = p.size + text.length := by
  unfold literal
  induction text generalizing p with
  | nil => simp
  | cons c text ih =>
    rw [List.foldl_cons, ih, Array.size_push, List.length_cons]
    omega

end Program

/-- An expression takes the announced number of instructions. -/
theorem Expr.size_emit (e : Expr) (p : Program) : (e.emit p).size = p.size + e.width := by
  induction e generalizing p with
  | empty => rfl
  | literal text => exact p.size_literal text
  | char set => simp [emit, width]
  | anchor a => simp [emit, width]
  | group number body ih =>
    simp only [emit, width, Array.size_push, ih]
    omega
  | seq a b iha ihb =>
    simp only [emit, width, iha, ihb]
    omega
  | alt a b iha ihb =>
    simp only [emit, width, Array.size_push, iha, ihb]
    omega
  | rounds least most greedy body ih =>
    cases most with
    | some most =>
      simp only [emit, width, Program.size_optionals _ _ _ ih, Program.size_copies _ _ ih]
      omega
    | none =>
      cases least with
      | zero =>
        simp only [emit, width, Array.size_push, ih]
        omega
      | succ least =>
        simp only [emit, width, Array.size_push, Program.size_copies _ _ ih]
        omega

end Weave.Pattern
