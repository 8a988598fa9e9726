import Weave.Toml.Plain
import Weave.Toml.Quoted

/-!
# Reading TOML documents

A document is a list of headers and entries, one a line; a header names the table that takes the
entries behind it. Neither values nor keys go deeper than a limit.
-/

namespace Weave.Toml

/-- What stands behind blanks, line ends and comments. A comment goes on to the end of its line. -/
def skipFiller? (inComment : Bool) : List Char → Option (List Char)
  | [] => some []
  | '\n' :: rest => skipFiller? false rest
  | '\r' :: '\n' :: rest => skipFiller? false rest
  | c :: rest =>
    if inComment then if isPlainText c then skipFiller? true rest else none
    else if c = ' ' || c = '\t' then skipFiller? false rest
    else if c = '#' then skipFiller? true rest
    else some (c :: rest)

/-- What stands behind a comment, with the line end or the end of the document that ends it. -/
def afterComment? : List Char → Option (List Char)
  | [] => some []
  | '\n' :: rest => some rest
  | '\r' :: '\n' :: rest => some rest
  | c :: rest => if isPlainText c then afterComment? rest else none

/-- What stands on the lines behind this one, on which nothing but a comment may be left. -/
def afterLine? (cs : List Char) : Option (List Char) :=
  match dropSpaces cs with
  | [] => some []
  | '#' :: rest => afterComment? rest
  | rest => afterLineEnd? rest

/-- Whether a character may stand in a key without quotes. -/
def isKeyChar (c : Char) : Bool :=
  c.isAlphanum || c == '_' || c == '-'

def readStep? (cs : List Char) : Option (String × List Char) :=
  let bare := cs.takeWhile isKeyChar
  if bare.isEmpty then readQuoted? cs
  else some (String.ofList bare, cs.dropWhile isKeyChar)

/-- A key, with dots between its steps and blanks around them. The first argument bounds the
steps. -/
def readSteps? : Nat → List Char → Option (Key × List Char)
  | 0, _ => none
  | bound + 1, cs => do
    let (step, rest) ← readStep? (dropSpaces cs)
    match dropSpaces rest with
    | '.' :: rest =>
      let (key, rest) ← readSteps? bound rest
      return ({ key with path := step :: key.path }, rest)
    | rest => return (⟨[], step⟩, rest)

/-- The greatest number of arrays and tables in each other that a value is written with, and of the
steps of a key. -/
def depthLimit : Nat := 80

def readKey? (cs : List Char) : Option (Key × List Char) :=
  match readSteps? (cs.length + 1) cs with
  | some (key, rest) => if key.path.length < depthLimit then some (key, rest) else none
  | none => none

mutual

/-- A value. The first argument bounds the values and separators read, the second the brackets and
braces that may be open at once. -/
def readValue? : Nat → Nat → List Char → Option (Item × List Char)
  | 0, _, _ => none
  | _ + 1, 0, '[' :: _ => none
  | bound + 1, depth + 1, '[' :: rest =>
    match readItems? bound depth rest with
    | some (items, rest) => some (.array items, rest)
    | none => none
  | _ + 1, 0, '{' :: _ => none
  | bound + 1, depth + 1, '{' :: rest =>
    match readMembers? bound depth [] rest with
    | some (entries, rest) => some (.table .inline entries, rest)
    | none => none
  | _ + 1, _, cs =>
    match readText? cs with
    | some (text, rest) => some (.string text, rest)
    | none => readPlain? cs

/-- The items of an array up to the bracket behind them. A comma may stand behind the last. -/
def readItems? : Nat → Nat → List Char → Option (List Item × List Char)
  | 0, _, _ => none
  | bound + 1, depth, cs =>
    match skipFiller? false cs with
    | none => none
    | some (']' :: rest) => some ([], rest)
    | some cs =>
      match readValue? bound depth cs with
      | none => none
      | some (item, rest) =>
        match skipFiller? false rest with
        | some (',' :: rest) =>
          match readItems? bound depth rest with
          | some (items, rest) => some (item :: items, rest)
          | none => none
        | some (']' :: rest) => some ([item], rest)
        | _ => none

/-- The members of an inline table up to the brace behind them, added to those before. -/
def readMembers? : Nat → Nat → Entries → List Char → Option (Entries × List Char)
  | 0, _, _, _ => none
  | bound + 1, depth, entries, cs =>
    match skipFiller? false cs with
    | none => none
    | some ('}' :: rest) => some (entries, rest)
    | some cs =>
      match readKey? cs with
      | some (key, '=' :: rest) =>
        match readValue? bound depth (dropSpaces rest) with
        | none => none
        | some (item, rest) =>
          match entries.putDotted? key.last item key.path with
          | none => none
          | some entries =>
            match skipFiller? false rest with
            | some (',' :: rest) => readMembers? bound depth entries rest
            | some ('}' :: rest) => some (entries, rest)
            | _ => none
      | _ => none

end

/-- A document that is being read: what it holds so far, and the table that takes entries. -/
structure Reader where
  root : Entries := []
  current : List String := []

def Reader.step? (r : Reader) (cs : List Char) : Option (Reader × List Char) :=
  match cs with
  | '[' :: '[' :: rest => do
    let (key, rest) ← readKey? rest
    match rest with
    | ']' :: ']' :: rest =>
      let root ← r.root.atHeader? (Entries.startElement? key.last) key.path
      return (⟨root, key.steps⟩, rest)
    | _ => none
  | '[' :: rest => do
    let (key, rest) ← readKey? rest
    match rest with
    | ']' :: rest =>
      let root ← r.root.atHeader? (Entries.startTable? key.last) key.path
      return (⟨root, key.steps⟩, rest)
    | _ => none
  | cs => do
    let (key, rest) ← readKey? cs
    match rest with
    | '=' :: rest =>
      let value := dropSpaces rest
      let (item, rest) ← readValue? (value.length + 1) depthLimit value
      let root ← r.root.atHeader? (·.putDotted? key.last item key.path) r.current
      return ({ r with root }, rest)
    | _ => none

/-- Read the rest of a document. The first argument bounds the lines read. -/
def Reader.finish? : Nat → Reader → List Char → Option Entries
  | 0, _, _ => none
  | bound + 1, r, cs =>
    match skipFiller? false cs with
    | none => none
    | some [] => some r.root
    | some cs =>
      match r.step? cs with
      | none => none
      | some (r, rest) =>
        match afterLine? rest with
        | some rest => finish? bound r rest
        | none => none

/-- The document that a text writes, if it is well formed. A byte order mark may stand in front. -/
def ofString? (text : String) : Option Entries :=
  let cs := match text.toList with
    | '\uFEFF' :: rest => rest
    | cs => cs
  Reader.finish? (cs.length + 1) {} cs

end Weave.Toml
