import Mathlib.Data.List.Chain
import Weave.Proofs.Text.Scan

/-!
# Counting lines

Line feeds alone make at most as many lines of a text as there are. The others end in a carriage
return that stands alone, without a line feed behind it. Only one at the very end of the text makes
no difference: there a line ends in any case.
-/

namespace Weave.Text

/-- The number of carriage returns with another character than a line feed behind them. -/
def loneReturns : List Char → Nat
  | [] => 0
  | c :: rest => loneReturns rest + if c = '\r' ∧ rest.head?.any (· != '\n') then 1 else 0

/-- Whether a carriage return stands before a line feed, or at the end. -/
def Paired (text : String) : Prop :=
  text.toList.IsChain fun c next => c = '\r' → next = '\n'

theorem loneReturns_eq_zero_iff (cs : List Char) :
    loneReturns cs = 0 ↔ cs.IsChain fun c next => c = '\r' → next = '\n' := by
  induction cs with
  | nil => simp [loneReturns]
  | cons c rest ih =>
    cases rest with
    | nil => simp [loneReturns]
    | cons d rest =>
      rw [loneReturns, List.isChain_cons_cons, ← ih]
      by_cases carriage : c = '\r' <;> by_cases feed : d = '\n' <;> simp [carriage, feed]

/-- The number of lines that end in a line feed or at the end of the text. -/
private def feedLines (cs : List Char) : Nat :=
  cs.count '\n' + if cs.getLast?.all (· == '\n') then 0 else 1

private theorem feedLines_cons_cons (c d : Char) (rest : List Char) :
    feedLines (c :: d :: rest) = feedLines (d :: rest) + if c = '\n' then 1 else 0 := by
  simp only [feedLines, List.count_cons (a := '\n') (b := c), List.getLast?_cons_cons, beq_iff_eq]
  omega

/-- The number of lines, as the sum that is to be proved. -/
private def ends (cs : List Char) : Nat :=
  feedLines cs + loneReturns cs

private theorem ends_lineFeed (rest : List Char) : ends ('\n' :: rest) = ends rest + 1 := by
  cases rest with
  | nil => rfl
  | cons d rest => simp [ends, feedLines_cons_cons, loneReturns, Nat.add_right_comm]

private theorem ends_pair (rest : List Char) : ends ('\r' :: '\n' :: rest) = ends rest + 1 := by
  rw [← ends_lineFeed]
  simp [ends, feedLines_cons_cons, loneReturns]

private theorem ends_carriageReturn (rest : List Char) (alone : '\n' ∉ rest.head?) :
    ends ('\r' :: rest) = ends rest + 1 := by
  cases rest with
  | nil => rfl
  | cons d rest =>
    have other : d ≠ '\n' := fun feed => alone (by simp [feed])
    simp [ends, feedLines_cons_cons, loneReturns, other, Nat.add_assoc]

private theorem ends_cons (c d : Char) (rest : List Char) (notFeed : c ≠ '\n')
    (notReturn : c ≠ '\r') : ends (c :: d :: rest) = ends (d :: rest) := by
  simp [ends, feedLines_cons_cons, loneReturns, notFeed, notReturn]

private theorem length_linesFrom (line cs : List Char) (opened : cs = [] → line = []) :
    (linesFrom line cs).length = ends cs := by
  fun_induction linesFrom line cs with
  | case1 line empty => rfl
  | case2 line filled => exact absurd (by simp [opened rfl]) filled
  | case3 line rest ih => rw [List.length_cons, ih fun _ => rfl, ends_lineFeed]
  | case4 line rest ih => rw [List.length_cons, ih fun _ => rfl, ends_pair]
  | case5 line rest alone ih =>
    have lone : '\n' ∉ rest.head? := by
      intro feed
      obtain ⟨tail, rfl⟩ := List.head?_eq_some_iff.mp feed
      exact alone tail rfl
    rw [List.length_cons, ih fun _ => rfl, ends_carriageReturn rest lone]
  | case6 line c rest notFeed _ notReturn ih =>
    -- The character ends no line itself, but the text may end behind it.
    cases rest with
    | nil =>
      have other : c ≠ '\n' := notFeed
      simp [linesFrom, ends, feedLines, loneReturns, other]
    | cons d rest => rw [ih (by simp), ends_cons c d rest notFeed notReturn]

theorem length_cutLines (text : String) :
    (cutLines text).length = lineFeedCount text + loneReturns text.toList := by
  rw [cutLines_eq_lines, lines, List.length_map, length_linesFrom [] text.toList fun _ => rfl]
  rfl

end Weave.Text
