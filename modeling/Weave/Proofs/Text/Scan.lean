import Weave.Proofs.Text.Bytes
import Weave.Proofs.Text.Lines

/-!
# Lines found by their bytes

A scan has found the lines of the text up to the current line, and no terminator within this line.
Whatever byte comes next, that stays so; at the end of the text it has found the lines of the whole.
-/

namespace Weave.Text

namespace Scan

/-- The states of a scan from its start. -/
inductive Reached (text : String) : Scan → Prop
  | initial : Reached text initial
  | read {scan next : Scan} {byte : UInt8} (before : Reached text scan)
      (found : byteAt? text scan.index = some byte) (read : scan.read? text byte = some next) :
      Reached text next

/-- What a scan has found: the text up to the current line, with its lines, and no terminator in
the bytes read since. -/
structure Found (before rest : String) (scan : Scan) : Prop where
  start : scan.start = before.utf8ByteSize
  ended : EndsLine before
  whole : ¬SharesPair before rest
  lines : scan.lines.toList = Text.lines before
  ordered : scan.start ≤ scan.index
  bounded : scan.index ≤ (before ++ rest).utf8ByteSize
  unbroken : ∀ index byte, scan.start ≤ index → index < scan.index →
    byteAt? (before ++ rest) index = some byte → byte ≠ lineFeedByte ∧ byte ≠ carriageReturnByte

theorem Found.initial (text : String) : Found "" text initial where
  start := by decide
  ended := by simp [EndsLine]
  whole := by simp [SharesPair]
  lines := by decide
  ordered := Nat.le_refl _
  bounded := Nat.zero_le _
  unbroken _ _ _ onward _ := absurd onward (Nat.not_lt_zero _)

theorem Found.unbroken_line {before line rest : String} {scan : Scan}
    (found : Found before (line ++ rest) scan)
    (read : scan.index = before.utf8ByteSize + line.utf8ByteSize) : Unbroken line := by
  -- A terminator in the line would be one of the bytes read since the line began.
  have other {c : Char} {byte : UInt8} (encodes : String.utf8EncodeChar c = [byte])
      (member : c ∈ line.toList) : byte ≠ lineFeedByte ∧ byte ≠ carriageReturnByte := by
    obtain ⟨offset, inside, here⟩ := exists_byteAt?_of_mem encodes member
    rw [← byteAt?_append_left rest inside, ← byteAt?_append_right before] at here
    refine found.unbroken _ byte ?_ ?_ here
    · exact found.start ▸ Nat.le_add_right _ _
    · omega
  exact ⟨fun carriage => (other encoding_carriageReturn carriage).2 rfl,
    fun feed => (other encoding_lineFeed feed).1 rfl⟩

/-- A state of a scan that has found the lines of a front of the text. -/
def Sound (text : String) (scan : Scan) : Prop :=
  ∃ before rest, text = before ++ rest ∧ Found before rest scan

theorem Found.endLine {before line rest : String} {scan : Scan} {width : Nat} (ending : LineEnd)
    (found : Found before (line ++ (ending.text ++ rest)) scan)
    (read : scan.index = before.utf8ByteSize + line.utf8ByteSize)
    (apart : ¬SharesPair ending.text rest) (wide : width = ending.text.utf8ByteSize) :
    ∃ next, scan.endLine? (before ++ (line ++ (ending.text ++ rest))) width = some next ∧
      Sound (before ++ (line ++ (ending.text ++ rest))) next := by
  have cut := slice?_append before line (ending.text ++ rest)
  rw [← read, ← found.start] at cut
  refine ⟨_, endLine?_eq_some_iff.mpr ⟨line, cut, rfl⟩, before ++ line ++ ending.text, rest,
    by simp only [String.append_assoc], ?_⟩
  have lines := lines_append_ended ending found.ended found.whole (found.unbroken_line read)
  have size : scan.index + width = (before ++ line ++ ending.text).utf8ByteSize := by
    rw [read, wide, String.utf8ByteSize_append, String.utf8ByteSize_append]
  exact {
    start := size
    ended := endsLine_ended _ ending
    whole := not_sharesPair_ended _ apart
    lines := by rw [lines, Array.toList_push, found.lines]
    ordered := Nat.le_refl _
    bounded := by
      rw [String.utf8ByteSize_append, ← size]
      exact Nat.le_add_right _ _
    unbroken := fun _ _ behind onward => absurd behind (Nat.not_le_of_lt onward) }

/-- A terminator at the index ends a line that begins behind the text before. -/
theorem Found.exists_line {before rest : String} {scan : Scan} {byte : UInt8} {c : Char}
    (found : Found before rest scan) (encodes : String.utf8EncodeChar c = [byte])
    (here : byteAt? (before ++ rest) scan.index = some byte) :
    ∃ line behind, rest = line ++ (String.singleton c ++ behind) ∧
      scan.index = before.utf8ByteSize + line.utf8ByteSize := by
  obtain ⟨front, behind, split, size⟩ := exists_append_of_byteAt? encodes here
  have shorter : before.utf8ByteSize ≤ front.utf8ByteSize := by
    rw [size, ← found.start]
    exact found.ordered
  obtain ⟨line, rfl, rfl⟩ := exists_append_of_le split shorter
  exact ⟨line, behind, rfl, by rw [← size, String.utf8ByteSize_append]⟩

theorem Found.read_lineFeed {before rest : String} {scan : Scan} (found : Found before rest scan)
    (here : byteAt? (before ++ rest) scan.index = some lineFeedByte) :
    ∃ next, scan.read? (before ++ rest) lineFeedByte = some next ∧ Sound (before ++ rest) next := by
  obtain ⟨line, behind, rfl, read⟩ := found.exists_line encoding_lineFeed here
  have apart : ¬SharesPair LineEnd.lineFeed.text behind := by simp [SharesPair, LineEnd.text]
  exact found.endLine .lineFeed read apart (by decide)

theorem Found.read_carriageReturn {before rest : String} {scan : Scan}
    (found : Found before rest scan)
    (here : byteAt? (before ++ rest) scan.index = some carriageReturnByte) :
    ∃ next, scan.read? (before ++ rest) carriageReturnByte = some next ∧
      Sound (before ++ rest) next := by
  obtain ⟨line, behind, rfl, read⟩ := found.exists_line encoding_carriageReturn here
  -- The byte that decides how wide the terminator is comes first in what stands behind it.
  have next : byteAt? (before ++ (line ++ (String.singleton '\r' ++ behind))) (scan.index + 1) =
      byteAt? behind 0 := by
    rw [read, Nat.add_assoc, byteAt?_append_right, byteAt?_append_right]
    exact byteAt?_append_right (String.singleton '\r') behind 0
  rw [read?, if_neg (by decide), if_pos rfl, next]
  by_cases pair : byteAt? behind 0 = some lineFeedByte
  · obtain ⟨behind, rfl⟩ := exists_singleton_append encoding_lineFeed pair
    have joined : String.singleton '\r' ++ (String.singleton '\n' ++ behind) =
        LineEnd.pair.text ++ behind := by
      rw [← String.append_assoc]
      rfl
    have apart : ¬SharesPair LineEnd.pair.text behind := by simp [SharesPair, LineEnd.text]
    rw [if_pos pair, joined]
    exact Found.endLine .pair (joined ▸ found) read apart (by decide)
  · have apart : ¬SharesPair LineEnd.carriageReturn.text behind :=
      fun shared => pair (byteAt?_zero_of_head? encoding_lineFeed shared.2)
    rw [if_neg pair]
    exact found.endLine .carriageReturn read apart (by decide)

/-- A byte that is no terminator belongs to the current line, whether or not it ends a character. -/
theorem Found.read_other {before rest : String} {scan : Scan} {byte : UInt8}
    (found : Found before rest scan) (here : byteAt? (before ++ rest) scan.index = some byte)
    (feed : byte ≠ lineFeedByte) (carriage : byte ≠ carriageReturnByte) :
    ∃ next, scan.read? (before ++ rest) byte = some next ∧ Sound (before ++ rest) next := by
  rw [read?, if_neg feed, if_neg carriage]
  refine ⟨_, rfl, before, rest, rfl, ?_⟩
  exact { found with
    ordered := Nat.le_succ_of_le found.ordered
    bounded := index_lt_of_byteAt? here
    unbroken := by
      intro index other behind onward there
      rcases Nat.lt_succ_iff_lt_or_eq.mp onward with earlier | rfl
      · exact found.unbroken index other behind earlier there
      · obtain rfl := Option.some_inj.mp (here.symm.trans there)
        exact ⟨feed, carriage⟩ }

/-- A sound scan reads whatever byte comes next, and stays sound. -/
theorem Sound.read {text : String} {scan : Scan} {byte : UInt8} (sound : Sound text scan)
    (here : byteAt? text scan.index = some byte) :
    ∃ next, scan.read? text byte = some next ∧ Sound text next := by
  obtain ⟨before, rest, rfl, found⟩ := sound
  by_cases feed : byte = lineFeedByte
  · subst feed
    exact found.read_lineFeed here
  by_cases carriage : byte = carriageReturnByte
  · subst carriage
    exact found.read_carriageReturn here
  exact found.read_other here feed carriage

/-! ### Whole scans -/

theorem Reached.sound {text : String} {scan : Scan} (reached : Reached text scan) :
    Sound text scan := by
  induction reached with
  | initial => exact ⟨"", text, String.empty_append.symm, .initial text⟩
  | read _ here read ih =>
    obtain ⟨next, same, sound⟩ := ih.read here
    obtain rfl := Option.some_inj.mp (same.symm.trans read)
    exact sound

theorem Sound.start_le {text : String} {scan : Scan} (sound : Sound text scan) :
    scan.start ≤ scan.index := by
  obtain ⟨before, rest, rfl, found⟩ := sound
  exact found.ordered

theorem Sound.isBoundary_start {text : String} {scan : Scan} (sound : Sound text scan) :
    IsBoundary text scan.start := by
  obtain ⟨before, rest, rfl, found⟩ := sound
  exact found.start ▸ isBoundary_append before rest

theorem Sound.index_le {text : String} {scan : Scan} (sound : Sound text scan) :
    scan.index ≤ text.utf8ByteSize := by
  obtain ⟨before, rest, rfl, found⟩ := sound
  exact found.bounded

/-- A scan that goes on from a state it has reached comes to the end of the text. -/
theorem Reached.run {text : String} {scan : Scan} (reached : Reached text scan) :
    ∃ last, scan.run? text = some last ∧ Reached text last ∧ last.index = text.utf8ByteSize := by
  fun_induction run? scan text with
  | case1 scan outside =>
    have stop := byteAt?_eq_none_iff.mp outside
    exact ⟨scan, rfl, reached, Nat.le_antisymm reached.sound.index_le stop⟩
  | case2 scan byte here failed =>
    -- A state that is reached is sound, so no byte can stop the scan.
    obtain ⟨next, read, -⟩ := reached.sound.read here
    rw [failed] at read
    cases read
  | case3 scan byte here next read ih => exact ih (reached.read here read)

/-- At the end of the text only the current line is missing. -/
theorem Found.finish {before rest : String} {scan : Scan} (found : Found before rest scan)
    (finished : scan.index = (before ++ rest).utf8ByteSize) :
    scan.finish? (before ++ rest) = some (Text.lines (before ++ rest)) := by
  have read : scan.index = before.utf8ByteSize + rest.utf8ByteSize := by
    rw [finished, String.utf8ByteSize_append]
  rw [lines_append _ _ found.ended found.whole, finish?]
  -- What is left is one line without an end, or nothing when the text ends in a terminator.
  by_cases more : scan.start < (before ++ rest).utf8ByteSize
  · have unbroken : Unbroken rest := by
      have behind : Found before (rest ++ "") scan := by rwa [String.append_empty]
      exact behind.unbroken_line read
    have filled : rest ≠ "" := by
      rintro rfl
      rw [found.start, String.append_empty] at more
      exact absurd more (Nat.lt_irrefl _)
    have cut := slice?_append before rest ""
    rw [String.append_empty, ← read, finished, ← found.start] at cut
    rw [if_pos more, cut, lines_unbroken rest unbroken filled]
    simp [found.lines]
  · obtain rfl : rest = "" := by
      rw [String.utf8ByteSize_append, found.start] at more
      rw [← String.utf8ByteSize_eq_zero_iff]
      omega
    rw [if_neg more, found.lines]
    simp [Text.lines, linesFrom]

end Scan

theorem cutLines?_eq_some (text : String) : cutLines? text = some (lines text) := by
  have start : Scan.Reached text Scan.initial := .initial
  obtain ⟨last, run, reached, finished⟩ := start.run
  obtain ⟨before, rest, rfl, found⟩ := reached.sound
  rw [cutLines?, run]
  exact found.finish finished

theorem cutLines_eq_lines (text : String) : cutLines text = lines text := by
  rw [cutLines, cutLines?_eq_some, Option.getD_some]

/-- A scan stays within the text and moves on with each byte, and a line begins and ends where
characters do, so no cut fails. The lines it finds are those that the characters give. -/
theorem cuts_at_boundaries (text : String) :
    (∀ scan, Scan.Reached text scan →
        scan.start ≤ scan.index ∧ scan.index ≤ text.utf8ByteSize ∧ IsBoundary text scan.start ∧
          ∀ byte, byteAt? text scan.index = some byte →
            (byte = lineFeedByte ∨ byte = carriageReturnByte → IsBoundary text scan.index) ∧
              ∃ next, scan.read? text byte = some next ∧ scan.index < next.index) ∧
      (∃ last, Scan.initial.run? text = some last ∧ Scan.Reached text last ∧
        last.index = text.utf8ByteSize) ∧
      ∃ parts, cutLines? text = some parts ∧ parts = lines text ∧
        parts.map String.toByteArray = (linesFrom [] text.toList).map List.utf8Encode := by
  refine ⟨fun scan reached => ?_, Scan.Reached.initial.run, _, cutLines?_eq_some text, rfl, ?_⟩
  · have sound := reached.sound
    refine ⟨sound.start_le, sound.index_le, sound.isBoundary_start, fun byte here => ⟨?_, ?_⟩⟩
    · rintro (rfl | rfl)
      · exact isBoundary_of_byteAt? encoding_lineFeed here
      · exact isBoundary_of_byteAt? encoding_carriageReturn here
    · obtain ⟨next, read, -⟩ := sound.read here
      exact ⟨next, read, Scan.index_lt_of_read? read⟩
  · simp [lines]

/-- The first character has two bytes, and within them there is no boundary. -/
theorem cuts_at_boundaries_two_bytes :
    Scan.Reached "é\r\nß" ⟨0, 2, #[]⟩ ∧ ¬IsBoundary "é\r\nß" 1 ∧ IsBoundary "é\r\nß" 2 ∧
      cutLines? "é\r\nß" = some ["é", "ß"] := by
  have first : byteAt? "é\r\nß" 0 = some 0xC3 := by decide +kernel
  have second : byteAt? "é\r\nß" 1 = some 0xA9 := by decide +kernel
  have carriage : byteAt? "é\r\nß" 2 = some carriageReturnByte := by decide +kernel
  have started : Scan.Reached "é\r\nß" ⟨0, 1, #[]⟩ := .read .initial first rfl
  have reached : Scan.Reached "é\r\nß" ⟨0, 2, #[]⟩ := .read started second rfl
  obtain ⟨states, -, parts, found, same, -⟩ := cuts_at_boundaries "é\r\nß"
  obtain ⟨-, -, -, reads⟩ := states _ reached
  have given : lines "é\r\nß" = ["é", "ß"] := by decide
  refine ⟨reached, by decide +kernel, (reads _ carriage).1 (Or.inr rfl), ?_⟩
  rw [found, same, given]

end Weave.Text
