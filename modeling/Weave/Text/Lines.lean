/-!
# Lines of a text

A line ends at a line feed, at a carriage return, or at a carriage return and the line feed directly
after it. A terminator at the very end opens no further line, so the empty text has no lines.

The lines are found in the encoding of the text in UTF-8: a scan reads one byte after the other and
cuts a line off where a terminator stands. Cutting fails within a character.
-/

namespace Weave.Text

/-- Whether an index is the first byte of a character of a text, or its end. -/
def IsBoundary (text : String) (index : Nat) : Prop :=
  String.Pos.Raw.IsValid text ⟨index⟩

instance (text : String) (index : Nat) : Decidable (IsBoundary text index) :=
  inferInstanceAs (Decidable (String.Pos.Raw.IsValid text ⟨index⟩))

/-- The part of a text from one byte up to another, unless a character would be divided. -/
def slice? (text : String) (start stop : Nat) : Option String :=
  if whole : start ≤ stop ∧ IsBoundary text start ∧ IsBoundary text stop then
    some (text.extract ⟨⟨start⟩, whole.2.1⟩ ⟨⟨stop⟩, whole.2.2⟩)
  else none

def byteAt? (text : String) (index : Nat) : Option UInt8 :=
  if inside : index < text.utf8ByteSize then some (text.getUTF8Byte ⟨index⟩ inside) else none

theorem index_lt_of_byteAt? {text : String} {index : Nat} {byte : UInt8}
    (found : byteAt? text index = some byte) : index < text.utf8ByteSize := by
  rw [byteAt?] at found
  split at found
  · assumption
  · cases found

def lineFeedByte : UInt8 := 0x0A

def carriageReturnByte : UInt8 := 0x0D

/-- How far the bytes of a text are read. -/
structure Scan where
  /-- The first byte of the current line. -/
  start : Nat
  /-- The byte to be read next. -/
  index : Nat
  /-- The lines that have ended. -/
  lines : Array String
  deriving DecidableEq, Repr

namespace Scan

def initial : Scan := ⟨0, 0, #[]⟩

/-- End the current line before a terminator of some bytes. -/
def endLine? (scan : Scan) (text : String) (width : Nat) : Option Scan := do
  let line ← slice? text scan.start scan.index
  return ⟨scan.index + width, scan.index + width, scan.lines.push line⟩

/-- Read the byte at the index. -/
def read? (scan : Scan) (text : String) (byte : UInt8) : Option Scan :=
  if byte = lineFeedByte then scan.endLine? text 1
  else if byte = carriageReturnByte then
    if byteAt? text (scan.index + 1) = some lineFeedByte then scan.endLine? text 2
    else scan.endLine? text 1
  else some { scan with index := scan.index + 1 }

theorem endLine?_eq_some_iff {scan next : Scan} {text : String} {width : Nat} :
    scan.endLine? text width = some next ↔
      ∃ line, slice? text scan.start scan.index = some line ∧
        next = ⟨scan.index + width, scan.index + width, scan.lines.push line⟩ := by
  simp only [endLine?, Option.bind_eq_bind, Option.bind_eq_some_iff, Option.pure_def,
    Option.some_inj, eq_comm (a := next)]

theorem index_lt_of_read? {scan next : Scan} {text : String} {byte : UInt8}
    (read : scan.read? text byte = some next) : scan.index < next.index := by
  have ended (width : Nat) (positive : 0 < width) (cut : scan.endLine? text width = some next) :
      scan.index < next.index := by
    obtain ⟨line, -, rfl⟩ := endLine?_eq_some_iff.mp cut
    exact Nat.lt_add_of_pos_right positive
  rw [read?] at read
  split at read
  · exact ended 1 (by decide) read
  · split at read
    · split at read
      · exact ended 2 (by decide) read
      · exact ended 1 (by decide) read
    · obtain rfl := Option.some_inj.mp read
      exact Nat.lt_succ_self _

/-- Read bytes as long as there are any. -/
def run? (scan : Scan) (text : String) : Option Scan :=
  match _ : byteAt? text scan.index with
  | none => some scan
  | some byte =>
    match _ : scan.read? text byte with
    | none => none
    | some next => next.run? text
termination_by text.utf8ByteSize - scan.index
decreasing_by
  have inside := index_lt_of_byteAt? ‹byteAt? text scan.index = _›
  have onward := index_lt_of_read? ‹scan.read? text byte = _›
  omega

/-- The lines when all bytes are read. What stands behind the last terminator is a line too. -/
def finish? (scan : Scan) (text : String) : Option (List String) :=
  if scan.start < text.utf8ByteSize then do
    let line ← slice? text scan.start text.utf8ByteSize
    return (scan.lines.push line).toList
  else some scan.lines.toList

end Scan

/-- The lines of a text, unless a line would begin or end within a character. -/
def cutLines? (text : String) : Option (List String) := do
  let last ← Scan.initial.run? text
  last.finish? text

/-- The lines of a text. No line begins or ends within a character, so they are always found. -/
def cutLines (text : String) : List String :=
  (cutLines? text).getD []

/-- The number of lines when a line feed is the only terminator: one for each line feed, and one
more when characters follow the last. -/
def lineFeedCount (text : String) : Nat :=
  let cs := text.toList
  cs.count '\n' + if cs.getLast?.all (· == '\n') then 0 else 1

example : cutLines? "a\nb\r\nc\rd" = some ["a", "b", "c", "d"] := by decide +kernel
example : cutLines? "é\r\nü\n" = some ["é", "ü"] := by decide +kernel
example : slice? "é" 0 1 = none := by decide +kernel
example : lineFeedCount "a\rb\nc" = 2 := by decide

end Weave.Text
