import Weave.Pattern.Expr
import Weave.Text.Digits

/-!
# Escapes in patterns

What a backslash and the characters behind it stand for. A letter or digit is an escape only where
the language gives it a meaning; every other ASCII character may be escaped to stand for itself.
-/

namespace Weave.Pattern

inductive Escape where
  | char (c : Char)
  | set (s : CharSet)
  | anchor (a : Anchor)
  deriving DecidableEq, Repr

/-- Whether a character stands for itself behind a backslash. -/
def isEscapable (c : Char) : Bool :=
  c.toNat < 128 && !c.isAlphanum && c != '<' && c != '>'

/-- A code point in hexadecimal: any number of digits between braces, or exactly `count` digits. -/
def readCode? (count : Nat) : List Char → Option (Char × List Char)
  | '{' :: rest =>
    match rest.dropWhile (· != '}') with
    | [] => none
    | _ :: behind => do
      let code ← Text.numberOf? 16 (rest.takeWhile (· != '}'))
      return (← Text.charOf? code, behind)
  | rest =>
    if rest.length < count then none
    else do
      let code ← Text.numberOf? 16 (rest.take count)
      return (← Text.charOf? code, rest.drop count)

/-- Whether a character may stand in the name of a word boundary. -/
def isBoundaryChar (c : Char) : Bool :=
  c.isAlpha || c == '-'

/-- The word boundary behind `\b`. Braces around a name choose a side of the word; braces around
anything else are left for a repetition. -/
def readBoundary? : List Char → Option (Anchor × List Char)
  | '{' :: c :: rest =>
    if isBoundaryChar c then
      match (c :: rest).dropWhile isBoundaryChar with
      | '}' :: behind =>
        match String.ofList ((c :: rest).takeWhile isBoundaryChar) with
        | "start" => some (.wordStart, behind)
        | "end" => some (.wordEnd, behind)
        | "start-half" => some (.wordStartHalf, behind)
        | "end-half" => some (.wordEndHalf, behind)
        | _ => none
      | _ => none
    else some (.wordBoundary, '{' :: c :: rest)
  | rest => some (.wordBoundary, rest)

/-- The escape behind a backslash, and the characters left. Classes of characters with a property,
`\p` and `\P`, are not offered. -/
def readEscape? : List Char → Option (Escape × List Char)
  | [] => none
  | c :: rest =>
    match c with
    | 'd' => some (.set .digit, rest)
    | 'D' => some (.set (CharSet.compl .digit), rest)
    | 's' => some (.set .blank, rest)
    | 'S' => some (.set (CharSet.compl .blank), rest)
    | 'w' => some (.set .word, rest)
    | 'W' => some (.set (CharSet.compl .word), rest)
    | 'a' => some (.char '\x07', rest)
    | 'f' => some (.char '\x0c', rest)
    | 'n' => some (.char '\n', rest)
    | 'r' => some (.char '\r', rest)
    | 't' => some (.char '\t', rest)
    | 'v' => some (.char '\x0b', rest)
    | 'x' => (readCode? 2 rest).map fun (c, rest) => (.char c, rest)
    | 'u' => (readCode? 4 rest).map fun (c, rest) => (.char c, rest)
    | 'U' => (readCode? 8 rest).map fun (c, rest) => (.char c, rest)
    | 'A' => some (.anchor .textStart, rest)
    | 'z' => some (.anchor .textEnd, rest)
    | 'b' => (readBoundary? rest).map fun (a, rest) => (.anchor a, rest)
    | 'B' => some (.anchor .noWordBoundary, rest)
    | '<' => some (.anchor .wordStart, rest)
    | '>' => some (.anchor .wordEnd, rest)
    | c => if isEscapable c then some (.char c, rest) else none

end Weave.Pattern
