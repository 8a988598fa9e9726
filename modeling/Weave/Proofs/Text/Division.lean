import Weave.Proofs.Text.Scan

/-!
# Texts divided into lines

A text is its lines with their ends, one behind the other, and in one way only: a line is unbroken,
only the last can lack its end, and an end takes in the line feed behind a carriage return. Which of
the three ends a line has makes no difference to the lines.
-/

namespace Weave.Text

/-- A text is divided into lines. Only a line at the end of the text can lack its end, and then it
is not empty; and no carriage return ends a line when the rest starts with a line feed. -/
inductive Divided : String → List String → Prop
  | empty : Divided "" []
  | unended {line : String} (unbroken : Unbroken line) (filled : line ≠ "") : Divided line [line]
  | ended {line rest : String} {others : List String} (ending : LineEnd) (unbroken : Unbroken line)
      (apart : ¬SharesPair ending.text rest) (behind : Divided rest others) :
      Divided (line ++ ending.text ++ rest) (line :: others)

/-! ### One division -/

theorem Divided.lines_eq {text : String} {parts : List String} (divided : Divided text parts) :
    lines text = parts := by
  induction divided with
  | empty => rfl
  | unended unbroken filled => exact lines_unbroken _ unbroken filled
  | @ended line rest others ending unbroken apart _ ih =>
    have whole := not_sharesPair_ended line apart
    rw [lines_append _ _ (endsLine_ended line ending) whole, lines_ended line ending unbroken, ih]
    rfl

private theorem divided_cons {line : List Char} {rest : List Char} {others : List (List Char)}
    (ending : LineEnd) (unbroken : Unbroken (.ofList line.reverse))
    (apart : ¬SharesPair ending.text (.ofList rest))
    (behind : Divided (.ofList rest) (others.map String.ofList)) :
    Divided (.ofList (line.reverse ++ (ending.text.toList ++ rest)))
      ((line.reverse :: others).map String.ofList) := by
  have divided := Divided.ended ending unbroken apart behind
  rw [String.append_assoc] at divided
  simpa [String.ofList_append] using divided

/-- The characters read so far stand before those still to be read. -/
private theorem divided_linesFrom (line cs : List Char)
    (unbroken : Unbroken (.ofList line.reverse)) :
    Divided (.ofList (line.reverse ++ cs)) ((linesFrom line cs).map String.ofList) := by
  have start : Unbroken (.ofList [].reverse) := by simp [Unbroken]
  -- The line read so far is unbroken, and stays so as long as no terminator is read.
  fun_induction linesFrom line cs with
  | case1 line empty =>
    obtain rfl := List.isEmpty_iff.mp empty
    exact .empty
  | case2 line filled =>
    rw [List.append_nil]
    exact .unended unbroken (by simpa using filled)
  | case3 line rest ih =>
    exact divided_cons .lineFeed unbroken (by simp [SharesPair, LineEnd.text]) (ih start)
  | case4 line rest ih =>
    exact divided_cons .pair unbroken (by simp [SharesPair, LineEnd.text]) (ih start)
  | case5 line rest alone ih =>
    refine divided_cons .carriageReturn unbroken ?_ (ih start)
    rintro ⟨-, feed⟩
    rw [String.toList_ofList] at feed
    obtain ⟨tail, rfl⟩ := List.head?_eq_some_iff.mp feed
    exact alone tail rfl
  | case6 line c rest notFeed _ notReturn ih =>
    have longer : Unbroken (.ofList (c :: line).reverse) := by
      simp_all [Unbroken, Ne.symm]
    simpa using ih longer

theorem divided_lines (text : String) : Divided text (lines text) := by
  have divided := divided_linesFrom [] text.toList (by simp [Unbroken])
  simpa [lines] using divided

theorem Divided.unbroken {text : String} {parts : List String} (divided : Divided text parts) :
    ∀ line ∈ parts, Unbroken line := by
  induction divided with
  | empty => exact fun _ member => absurd member List.not_mem_nil
  | unended unbroken _ => exact List.forall_mem_singleton.mpr unbroken
  | ended _ unbroken _ _ ih => exact List.forall_mem_cons.mpr ⟨unbroken, ih⟩

/-! ### The end of a text -/

theorem Divided.eq_nil_iff {text : String} {parts : List String} (divided : Divided text parts) :
    parts = [] ↔ text = "" := by
  cases divided with
  | empty => simp
  | unended unbroken filled => simp [filled]
  | ended ending _ _ _ => cases ending <;> simp [LineEnd.text]

theorem endsLine_append {text next : String} (ended : EndsLine text) (more : EndsLine next) :
    EndsLine (text ++ next) := by
  intro c last
  rw [String.toList_append, List.getLast?_append] at last
  cases final : next.toList.getLast? with
  | none => exact ended c (by simpa [final] using last)
  | some d => exact more c (by simpa [final] using last)

/-- A line that lacks its end stays the last one when it gets its end. -/
theorem Divided.close {text : String} {parts : List String} (divided : Divided text parts)
    (ending : LineEnd) (opened : ¬EndsLine text) : Divided (text ++ ending.text) parts := by
  induction divided with
  | empty => exact absurd (by simp [EndsLine]) opened
  | unended unbroken filled =>
    have apart : ¬SharesPair ending.text "" := by simp [SharesPair]
    simpa using Divided.ended ending unbroken apart .empty
  | @ended line rest others before unbroken apart behind ih =>
    have openedRest : ¬EndsLine rest := fun closed =>
      opened (endsLine_append (endsLine_ended line before) closed)
    -- The rest is not empty, so what is added does not come next to the end of this line.
    have begins : rest.toList ≠ [] := fun empty => openedRest (by simp [EndsLine, empty])
    have stillApart : ¬SharesPair before.text (rest ++ ending.text) := by
      rintro ⟨carriage, feed⟩
      rw [String.toList_append, List.head?_append_of_ne_nil _ begins] at feed
      exact apart ⟨carriage, feed⟩
    rw [String.append_assoc]
    exact .ended before unbroken stillApart (ih openedRest)

/-! ### Line feeds for all ends -/

/-- A text with a line feed in the place of each end of a line. -/
def feedEnds : List Char → List Char
  | [] => []
  | '\r' :: '\n' :: rest => '\n' :: feedEnds rest
  | '\r' :: rest => '\n' :: feedEnds rest
  | c :: rest => c :: feedEnds rest

def withLineFeeds (text : String) : String :=
  String.ofList (feedEnds text.toList)

theorem feedEnds_unbroken {line : List Char} (notReturn : '\r' ∉ line) (rest : List Char) :
    feedEnds (line ++ rest) = line ++ feedEnds rest := by
  induction line with
  | nil => rfl
  | cons c line ih =>
    rw [List.mem_cons, not_or] at notReturn
    rw [List.cons_append, feedEnds, ih notReturn.2, List.cons_append]
    · rintro _ rfl
      exact absurd rfl notReturn.1
    · exact Ne.symm notReturn.1

theorem feedEnds_end (ending : LineEnd) (rest : String) (apart : ¬SharesPair ending.text rest) :
    feedEnds (ending.text.toList ++ rest.toList) = '\n' :: feedEnds rest.toList := by
  cases ending with
  | lineFeed => simp [LineEnd.text, feedEnds]
  | pair => simp [LineEnd.text, feedEnds]
  | carriageReturn =>
    have alone : '\n' ∉ rest.toList.head? := fun feed => apart ⟨rfl, feed⟩
    cases feeds : rest.toList with
    | nil => rfl
    | cons d tail => simp_all [LineEnd.text, feedEnds]

theorem Divided.lineFeeds {text : String} {parts : List String} (divided : Divided text parts) :
    Divided (withLineFeeds text) parts := by
  induction divided with
  | empty => exact .empty
  | @unended line unbroken filled =>
    have same := feedEnds_unbroken unbroken.1 []
    simp only [List.append_nil, feedEnds] at same
    have kept : withLineFeeds line = line := by
      rw [withLineFeeds, same, String.ofList_toList]
    rw [kept]
    exact .unended unbroken filled
  | @ended line rest others ending unbroken apart behind ih =>
    -- Nothing changes in the line; its end becomes a line feed, whichever it was.
    have fed : withLineFeeds (line ++ ending.text ++ rest) =
        line ++ LineEnd.lineFeed.text ++ withLineFeeds rest := by
      have feed : LineEnd.lineFeed.text = "\n" := rfl
      rw [← String.toList_inj]
      simp [withLineFeeds, feedEnds_unbroken unbroken.1, feedEnds_end ending rest apart, feed]
    rw [fed]
    exact .ended .lineFeed unbroken (by simp [SharesPair, LineEnd.text]) ih

/-- A text is divided into its lines and into no others. Only the empty text has none; an end at the
very end of a text ends its last line, or an empty one behind another end, and opens no further
line; and the lines stay when line feeds stand for all ends. -/
theorem lines_division (text : String) :
    (∀ parts, Divided text parts ↔ parts = cutLines text) ∧
      (cutLines text = [] ↔ text = "") ∧
      (∀ ending : LineEnd, ¬EndsLine text → cutLines (text ++ ending.text) = cutLines text) ∧
      (∀ ending : LineEnd, EndsLine text → ¬SharesPair text ending.text →
        cutLines (text ++ ending.text) = cutLines text ++ [""]) ∧
      cutLines (withLineFeeds text) = cutLines text := by
  -- The scan over bytes finds the lines that the characters give, of which the division is known.
  simp only [cutLines_eq_lines]
  have divided := divided_lines text
  refine ⟨?_, divided.eq_nil_iff, ?_, ?_, divided.lineFeeds.lines_eq⟩
  · intro parts
    exact ⟨fun other => other.lines_eq.symm, fun same => same ▸ divided⟩
  · intro ending opened
    exact (divided.close ending opened).lines_eq
  · intro ending ended apart
    have single : lines ending.text = [""] := by
      simpa using lines_ended "" ending (by simp [Unbroken])
    rw [lines_append _ _ ended apart, single]

theorem lines_division_mixed_ends :
    Divided "\n\r\r\na" ["", "", "", "a"] ∧
      cutLines ("\n\r\r\na" ++ LineEnd.carriageReturn.text) = cutLines "\n\r\r\na" ∧
      cutLines ("\n\r" ++ LineEnd.pair.text) = cutLines "\n\r" ++ [""] ∧
      cutLines (withLineFeeds "\n\r\r\na") = cutLines "\n\r\r\na" := by
  obtain ⟨parts, -, opened, -, fed⟩ := lines_division "\n\r\r\na"
  obtain ⟨-, -, -, ended, -⟩ := lines_division "\n\r"
  refine ⟨(parts _).mpr (by decide +kernel), opened _ ?_, ended _ ?_ ?_, fed⟩
  · simp [EndsLine]
  · simp [EndsLine]
  · simp [SharesPair, LineEnd.text]

end Weave.Text
