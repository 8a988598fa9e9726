import Weave.Text.Blank

/-!
# Signatures

A signature is a name and a group of parameters in parentheses, which nest; a class may name its
parents behind a `<`. A text without a name or without a balanced group is its own name.
-/

namespace Weave

structure Signature where
  name : String
  /-- What readers are shown. -/
  text : String
  parents : Option String := none
  deriving DecidableEq, Repr

namespace Signature

/-- Whether a character is neither of the two parentheses. -/
def isPlain (c : Char) : Bool :=
  c != '(' && c != ')'

/-- The characters up to the next parenthesis, if there are any, and what stands behind them. -/
def readPlain? (text : List Char) : Option (List Char × List Char) :=
  let plain := text.takeWhile isPlain
  if plain.isEmpty then none else some (plain, text.dropWhile isPlain)

/-- A group with the parentheses around it, and what stands behind it. -/
def readGroup? (readContents : List Char → List Char × List Char) :
    List Char → Option (List Char × List Char)
  | '(' :: text =>
    match readContents text with
    | (contents, ')' :: behind) => some ('(' :: contents ++ [')'], behind)
    | _ => none
  | _ => none

/-- The contents of a group, which are plain characters and groups, and what stands behind them. A
parenthesis that opens no group ends them. The first argument bounds how many plain texts and groups
are read behind and inside each other. -/
def readContents : Nat → List Char → List Char × List Char
  | 0, text => ([], text)
  | bound + 1, text =>
    match readPlain? text <|> readGroup? (readContents bound) text with
    | none => ([], text)
    | some (item, rest) =>
      let (more, behind) := readContents bound rest
      (item ++ more, behind)

/-- The group at the start of a text, and what stands behind it. -/
def group? (text : List Char) : Option (List Char × List Char) :=
  readGroup? (readContents text.length) text

structure Parts where
  name : List Char
  /-- The parameters with the parentheses around them. -/
  group : List Char
  rest : List Char
  deriving DecidableEq, Repr

/-- What stands before the first opening parenthesis, the group there, and what stands behind it. -/
def split? (text : List Char) : Option Parts := do
  let (group, rest) ← group? (text.dropWhile (· != '('))
  return ⟨text.takeWhile (· != '('), group, rest⟩

/-- The parts of a signature whose name is not blank, the name trimmed. -/
def parts? (text : String) : Option Parts := do
  let parts ← split? text.toList
  let name := Text.dropBlankEnd (Text.dropBlank parts.name)
  if name.isEmpty then none else some { parts with name }

/-- The parents in what stands behind the group of a class. -/
def parents? (rest : List Char) : Option String :=
  match Text.dropBlank rest with
  | '<' :: names =>
    let names := Text.dropBlankEnd (Text.dropBlank names)
    if names.isEmpty then none else some (String.ofList names)
  | _ => none

/-- The signature of a function, unless the text is blank. -/
def ofFunction? (text : String) : Option Signature :=
  if Text.allBlank text then none
  else match parts? text with
    | some parts => some ⟨String.ofList parts.name, text, none⟩
    | none => some ⟨text, text, none⟩

/-- The signature of a class, unless the text is blank. With parents, its text ends at the group. -/
def ofClass? (text : String) : Option Signature :=
  if Text.allBlank text then none
  else match parts? text with
    | none => some ⟨text, text, none⟩
    | some parts =>
      match parents? parts.rest with
      | some parents =>
        some ⟨String.ofList parts.name, String.ofList (parts.name ++ parts.group), some parents⟩
      | none => some ⟨String.ofList parts.name, text, none⟩

example : ofFunction? "foo(a)" = some ⟨"foo", "foo(a)", none⟩ := by decide
example : ofFunction? "f(a, (b)" = some ⟨"f(a, (b)", "f(a, (b)", none⟩ := by decide
example : ofClass? "Foo (a) < Bar " = some ⟨"Foo", "Foo(a)", some "Bar"⟩ := by decide

end Signature

end Weave
