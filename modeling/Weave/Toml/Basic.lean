import Weave.Document.Fields

/-!
# TOML documents

Documents of the TOML format and the rules by which tables come to be. A table is made by a header,
by being on the way to one, by a dotted key, or in one piece; how it came to be decides what may be
added to it later. A change that the rules forbid gives nothing.
-/

namespace Weave.Toml

/-- The kinds of plain values that are not text. -/
inductive Kind where
  | boolean
  | integer
  | float
  | dateTime
  deriving DecidableEq, Repr

inductive Origin where
  /-- It is on the way to the table of a header. -/
  | implied
  | header
  | dotted
  /-- It was written in one piece and is closed. -/
  | inline
  deriving DecidableEq, Repr

inductive Item where
  | string (s : String)
  /-- A plain value with its text. -/
  | plain (kind : Kind) (text : String)
  /-- An array written in one piece. -/
  | array (items : List Item)
  | table (origin : Origin) (entries : List (String × Item))
  /-- An array to which each header of its name adds a table. -/
  | tables (elements : List (List (String × Item)))

abbrev Entries := Fields Item

namespace Entries

def add? (key : String) (item : Item) (entries : Entries) : Option Entries :=
  if (entries.get? key).isSome then none else some (entries.insert key item)

/-- Change the table that a header names. Tables on the way are made where they are missing; of an
array of tables the last one is meant. -/
def atHeader? (change : Entries → Option Entries) : List String → Entries → Option Entries
  | [], entries => change entries
  | key :: path, entries =>
    match entries.get? key with
    | none => do
      let inner ← atHeader? change path []
      return entries.insert key (.table .implied inner)
    | some (.table .inline _) => none
    | some (.table origin inner) => do
      let inner ← atHeader? change path inner
      return entries.insert key (.table origin inner)
    | some (.tables elements) => do
      let last ← atHeader? change path (elements.getLast?.getD [])
      return entries.insert key (.tables (elements.dropLast ++ [last]))
    | some _ => none

/-- Add an entry under a dotted key. The table that takes the entry must itself come from dotted
keys, and no table with a header of its own may stand on the way. -/
def putDotted? (key : String) (item : Item) : List String → Entries → Option Entries
  | [], entries => entries.add? key item
  | step :: path, entries =>
    match entries.get? step with
    | none => do
      let inner ← putDotted? key item path []
      return entries.insert step (.table .dotted inner)
    | some (.table .dotted inner) => do
      let inner ← putDotted? key item path inner
      return entries.insert step (.table .dotted inner)
    | some (.table .implied inner) =>
      if path.isEmpty then none
      else do
        let inner ← putDotted? key item path inner
        return entries.insert step (.table .implied inner)
    | some (.tables elements) =>
      if path.isEmpty then none
      else do
        let last ← putDotted? key item path (elements.getLast?.getD [])
        return entries.insert step (.tables (elements.dropLast ++ [last]))
    | some _ => none

/-- Start the table of a header: a new one, or one that other headers have implied. -/
def startTable? (key : String) (entries : Entries) : Option Entries :=
  match entries.get? key with
  | none => some (entries.insert key (.table .header []))
  | some (.table .implied inner) => some (entries.insert key (.table .header inner))
  | some _ => none

def startElement? (key : String) (entries : Entries) : Option Entries :=
  match entries.get? key with
  | none => some (entries.insert key (.tables [[]]))
  | some (.tables elements) => some (entries.insert key (.tables (elements ++ [[]])))
  | some _ => none

end Entries

/-- A key: the steps to a table, and the key in it. -/
structure Key where
  path : List String
  last : String
  deriving DecidableEq, Repr

def Key.steps (k : Key) : List String :=
  k.path ++ [k.last]

end Weave.Toml
