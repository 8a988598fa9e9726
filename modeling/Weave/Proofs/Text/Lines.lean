import Mathlib.Data.List.Basic
import Weave.Text.Lines

/-!
# Lines by characters

The lines of a text told from its characters, with no bytes to look at. A text can be cut behind
each of its line ends, unless the cut would divide a carriage return from the line feed that belongs
to it: the lines of the pieces are then the lines of the whole.
-/

namespace Weave.Text

/-- The lines of the characters still to be read, where `line` holds the characters of the current
line in reverse. -/
def linesFrom (line : List Char) : List Char → List (List Char)
  | [] => if line.isEmpty then [] else [line.reverse]
  | '\n' :: rest => line.reverse :: linesFrom [] rest
  | '\r' :: '\n' :: rest => line.reverse :: linesFrom [] rest
  | '\r' :: rest => line.reverse :: linesFrom [] rest
  | c :: rest => linesFrom (c :: line) rest

/-- The lines of a text, without their terminators. -/
def lines (text : String) : List String :=
  (linesFrom [] text.toList).map String.ofList

example : lines "a\nb\r\nc\rd" = ["a", "b", "c", "d"] := by decide
example : lines "a\n\nb\r\n" = ["a", "", "b"] := by decide
example : lines "" = [] := by decide

/-- Whether a text is empty or ends in a terminator. -/
def EndsLine (text : String) : Prop :=
  ∀ c ∈ text.toList.getLast?, c = '\r' ∨ c = '\n'

/-- Whether a text ends in a carriage return and the next one starts with the line feed that belongs
to it. -/
def SharesPair (text next : String) : Prop :=
  '\r' ∈ text.toList.getLast? ∧ '\n' ∈ next.toList.head?

private theorem linesFrom_lineFeed (line rest : List Char) :
    linesFrom line ('\n' :: rest) = line.reverse :: linesFrom [] rest := by
  rw [linesFrom]

private theorem linesFrom_pair (line rest : List Char) :
    linesFrom line ('\r' :: '\n' :: rest) = line.reverse :: linesFrom [] rest := by
  rw [linesFrom]

private theorem linesFrom_carriageReturn (line rest : List Char) (alone : '\n' ∉ rest.head?) :
    linesFrom line ('\r' :: rest) = line.reverse :: linesFrom [] rest := by
  rw [linesFrom]
  rintro tail rfl
  exact alone rfl

private theorem linesFrom_cons (line rest : List Char) (c : Char) (notFeed : c ≠ '\n')
    (notReturn : c ≠ '\r') : linesFrom line (c :: rest) = linesFrom (c :: line) rest := by
  rw [linesFrom]
  · exact notFeed
  · rintro tail rfl
    exact absurd rfl notReturn
  · exact notReturn

/-- Whether a text is empty or ends in a terminator of which nothing stands at the start of the
next text. -/
private def Cut (text next : List Char) : Prop :=
  ∀ c ∈ text.getLast?, c = '\n' ∨ c = '\r' ∧ '\n' ∉ next.head?

private theorem Cut.tail {c : Char} {rest next : List Char} (cut : Cut (c :: rest) next) :
    Cut rest next :=
  fun d last => cut d (List.mem_getLast?_cons last)

private theorem linesFrom_append (line text next : List Char) (opened : text = [] → line = [])
    (cut : Cut text next) :
    linesFrom line (text ++ next) = linesFrom line text ++ linesFrom [] next := by
  fun_induction linesFrom line text with
  | case1 line empty =>
    obtain rfl := opened rfl
    rfl
  | case2 line filled =>
    obtain rfl := opened rfl
    exact absurd rfl filled
  | case3 line rest ih =>
    have behind := ih (fun _ => rfl) cut.tail
    rw [List.cons_append, linesFrom_lineFeed, behind, List.cons_append]
  | case4 line rest ih =>
    have behind := ih (fun _ => rfl) cut.tail.tail
    rw [List.cons_append, List.cons_append, linesFrom_pair, behind, List.cons_append]
  | case5 line rest alone ih =>
    have behind := ih (fun _ => rfl) cut.tail
    -- No line feed follows the carriage return in the whole either: behind an empty rest it would
    -- stand at the start of the next text.
    have single : '\n' ∉ (rest ++ next).head? := by
      cases rest with
      | nil =>
        rcases cut '\r' rfl with other | ⟨-, whole⟩
        · exact absurd other (by decide)
        · exact whole
      | cons d rest =>
        intro feed
        obtain rfl : d = '\n' := by simpa using feed
        exact alone rest rfl
    rw [List.cons_append, linesFrom_carriageReturn line _ single, behind, List.cons_append]
  | case6 line c rest notFeed _ notReturn ih =>
    -- This character ends no line, so it is not the last one.
    have filled : rest ≠ [] := by
      rintro rfl
      rcases cut c rfl with feed | ⟨carriage, -⟩
      · exact notFeed feed
      · exact notReturn carriage
    rw [List.cons_append, linesFrom_cons line _ c notFeed notReturn]
    exact ih (fun empty => absurd empty filled) cut.tail

/-- A text cut behind a line end has the lines of its pieces. -/
theorem lines_append (text next : String) (ended : EndsLine text)
    (whole : ¬SharesPair text next) : lines (text ++ next) = lines text ++ lines next := by
  have cut : Cut text.toList next.toList := by
    intro c last
    rcases ended c last with rfl | rfl
    · exact Or.inr ⟨rfl, fun first => whole ⟨last, first⟩⟩
    · exact Or.inl rfl
  unfold lines
  rw [String.toList_append, linesFrom_append [] _ _ (fun _ => rfl) cut, List.map_append]

/-! ### Written lines -/

/-- How a line may end. -/
inductive LineEnd where
  | lineFeed
  | carriageReturn
  | pair
  deriving DecidableEq, Repr

def LineEnd.text : LineEnd → String
  | lineFeed => "\n"
  | carriageReturn => "\r"
  | pair => "\r\n"

/-- Whether a text has no terminator in it. -/
def Unbroken (text : String) : Prop :=
  '\r' ∉ text.toList ∧ '\n' ∉ text.toList

instance (text : String) : Decidable (Unbroken text) :=
  inferInstanceAs (Decidable ('\r' ∉ text.toList ∧ '\n' ∉ text.toList))

theorem Unbroken.append {text more : String} (first : Unbroken text) (second : Unbroken more) :
    Unbroken (text ++ more) := by
  simp only [Unbroken, String.toList_append, List.mem_append, not_or]
  exact ⟨⟨first.1, second.1⟩, first.2, second.2⟩

/-- A text that begins with an unbroken line does not begin with a line feed. -/
theorem Unbroken.not_sharesPair {text : String} (unbroken : Unbroken text) (filled : text ≠ "")
    (before more : String) : ¬SharesPair before (text ++ more) := by
  rintro ⟨-, feed⟩
  apply unbroken.2
  have begins : text.toList ≠ [] := by simpa using filled
  rw [String.toList_append, List.head?_append_of_ne_nil _ begins] at feed
  exact List.mem_of_head? feed

theorem endsLine_ended (text : String) (ending : LineEnd) : EndsLine (text ++ ending.text) := by
  cases ending <;> simp [EndsLine, LineEnd.text]

private theorem linesFrom_unbroken (line text rest : List Char) (notReturn : '\r' ∉ text)
    (notFeed : '\n' ∉ text) :
    linesFrom line (text ++ rest) = linesFrom (text.reverse ++ line) rest := by
  induction text generalizing line with
  | nil => rfl
  | cons c text ih =>
    rw [List.mem_cons, not_or] at notReturn notFeed
    rw [List.cons_append, linesFrom_cons line _ c (Ne.symm notFeed.1) (Ne.symm notReturn.1),
      ih (c :: line) notReturn.2 notFeed.2]
    simp

theorem lines_unbroken (text : String) (unbroken : Unbroken text) (filled : text ≠ "") :
    lines text = [text] := by
  have read := linesFrom_unbroken [] text.toList [] unbroken.1 unbroken.2
  simp only [List.append_nil] at read
  simp [lines, read, linesFrom, filled]

theorem lines_ended (text : String) (ending : LineEnd) (unbroken : Unbroken text) :
    lines (text ++ ending.text) = [text] := by
  have read := linesFrom_unbroken [] text.toList ending.text.toList unbroken.1 unbroken.2
  rw [lines, String.toList_append, read]
  cases ending <;> simp [LineEnd.text, linesFrom]

theorem not_sharesPair_ended (text : String) {ending : LineEnd} {rest : String}
    (apart : ¬SharesPair ending.text rest) : ¬SharesPair (text ++ ending.text) rest := by
  have filled : ending.text.toList ≠ [] := by
    cases ending <;> simp [LineEnd.text]
  rintro ⟨carriage, feed⟩
  rw [String.toList_append, List.getLast?_append_of_ne_nil _ filled] at carriage
  exact apart ⟨carriage, feed⟩

/-- A line behind a line end, with its own end. -/
theorem lines_append_ended {before line rest : String} (ending : LineEnd) (ended : EndsLine before)
    (whole : ¬SharesPair before (line ++ (ending.text ++ rest))) (unbroken : Unbroken line) :
    lines (before ++ line ++ ending.text) = lines before ++ [line] := by
  have filled : (line ++ ending.text).toList ≠ [] := by
    cases ending <;> simp [LineEnd.text]
  have wholeLine : ¬SharesPair before (line ++ ending.text) := by
    rintro ⟨carriage, feed⟩
    refine whole ⟨carriage, ?_⟩
    rwa [← String.append_assoc, String.toList_append, List.head?_append_of_ne_nil _ filled]
  rw [String.append_assoc, lines_append _ _ ended wholeLine, lines_ended line ending unbroken]

end Weave.Text
