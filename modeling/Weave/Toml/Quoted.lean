import Weave.Text.Digits

/-!
# Quoted TOML texts

Between quotes a backslash starts an escape; between apostrophes all stands for itself. Three marks
in a row open a text that may go over several lines.
-/

namespace Weave.Toml

/-- Whether a character may stand as itself in a text or a comment: no control character but the
tab. -/
def isPlainText (c : Char) : Bool :=
  c == '\t' || (0x20 ≤ c.toNat && c.toNat != 0x7F)

/-- A character written as a fixed number of hexadecimal digits. -/
def readCodePoint? (count : Nat) (cs : List Char) : Option (Char × List Char) := do
  if cs.length < count then none
  else
    let code ← Text.numberOf? 16 (cs.take count)
    return (← Text.charOf? code, cs.drop count)

/-- The character that an escape stands for, read behind the backslash. -/
def readEscaped? : List Char → Option (Char × List Char)
  | 'b' :: rest => some ('\x08', rest)
  | 't' :: rest => some ('\t', rest)
  | 'n' :: rest => some ('\n', rest)
  | 'f' :: rest => some ('\x0c', rest)
  | 'r' :: rest => some ('\r', rest)
  | 'e' :: rest => some ('\x1b', rest)
  | '"' :: rest => some ('"', rest)
  | '\\' :: rest => some ('\\', rest)
  | 'x' :: rest => readCodePoint? 2 rest
  | 'u' :: rest => readCodePoint? 4 rest
  | 'U' :: rest => readCodePoint? 8 rest
  | _ => none

/-- What stands behind a line end, if there is one here. -/
def afterLineEnd? : List Char → Option (List Char)
  | '\n' :: rest => some rest
  | '\r' :: '\n' :: rest => some rest
  | _ => none

/-- The characters without the spaces and tabs in front. -/
def dropSpaces (cs : List Char) : List Char :=
  cs.dropWhile fun c => c == ' ' || c == '\t'

/-- What stands behind a backslash at the end of a line, the blanks and line ends behind it left
out. -/
def afterContinuation? (cs : List Char) : Option (List Char) :=
  (afterLineEnd? (dropSpaces cs)).map fun rest =>
    rest.dropWhile fun c => c == ' ' || c == '\t' || c == '\n' || c == '\r'

/-- The rest of a text of one line up to the mark that ends it, what is read so far in reverse.
Escapes are read where `escapes` says so. The first argument bounds the characters read. -/
def readLine? (mark : Char) (escapes : Bool) :
    Nat → List Char → List Char → Option (List Char × List Char)
  | 0, _, _ => none
  | _, _, [] => none
  | bound + 1, text, c :: rest =>
    if c = mark then some (text.reverse, rest)
    else if c = '\\' && escapes then
      match readEscaped? rest with
      | some (e, rest) => readLine? mark escapes bound (e :: text) rest
      | none => none
    else if isPlainText c then readLine? mark escapes bound (c :: text) rest
    else none

/-- The rest of a text of several lines up to the three marks that end it. Up to two marks in a row
stand for themselves, also directly before the end. Line ends are kept as they are written. -/
def readLines? (mark : Char) (escapes : Bool) :
    Nat → List Char → List Char → Option (List Char × List Char)
  | 0, _, _ => none
  | _, _, [] => none
  | bound + 1, text, c :: rest =>
    if c = mark then
      let marks := (c :: rest).takeWhile (· == mark)
      let behind := (c :: rest).dropWhile (· == mark)
      if marks.length < 3 then readLines? mark escapes bound (marks ++ text) behind
      else if marks.length ≤ 5 then some ((marks.drop 3 ++ text).reverse, behind)
      else none
    else if c = '\\' && escapes then
      match afterContinuation? rest with
      | some rest => readLines? mark escapes bound text rest
      | none =>
        match readEscaped? rest with
        | some (e, rest) => readLines? mark escapes bound (e :: text) rest
        | none => none
    else if c = '\n' then readLines? mark escapes bound (c :: text) rest
    else if c = '\r' && rest.head? = some '\n' then readLines? mark escapes bound (c :: text) rest
    else if isPlainText c then readLines? mark escapes bound (c :: text) rest
    else none

/-- Whether a character opens a text, and with escapes or without. -/
def escapesIn? (mark : Char) : Option Bool :=
  if mark = '"' then some true else if mark = '\'' then some false else none

def readQuoted? : List Char → Option (String × List Char)
  | [] => none
  | mark :: rest => do
    let escapes ← escapesIn? mark
    let (text, rest) ← readLine? mark escapes (rest.length + 1) [] rest
    return (String.ofList text, rest)

/-- Read a text of one or several lines. A line end directly behind the three marks is left out. -/
def readText? (cs : List Char) : Option (String × List Char) :=
  match cs with
  | a :: b :: c :: rest =>
    if a = b && b = c then do
      let escapes ← escapesIn? a
      let rest := (afterLineEnd? rest).getD rest
      let (text, rest) ← readLines? a escapes (rest.length + 1) [] rest
      return (String.ofList text, rest)
    else readQuoted? cs
  | _ => readQuoted? cs

end Weave.Toml
