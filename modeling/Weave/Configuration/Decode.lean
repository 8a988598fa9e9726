import Weave.Configuration.Basic
import Weave.Toml.Parser

/-!
# Configurations in TOML

The entry `languages` is an array with a table for each language; other entries are ignored, but
for numbers out of range. A language may also list its four fields in order. Only the extensions may
be left out.
-/

namespace Weave.Configuration

open Toml (Item Entries)

def text? : Item → Option String
  | .string s => some s
  | _ => none

def texts? : Item → Option (List String)
  | .array items => items.mapM text?
  | _ => none

/-- The extensions that an entry lists, none where there is no entry. -/
def extensions? : Option Item → Option (List String)
  | none => some []
  | some item => texts? item

def ofEntries? (entries : Entries) : Option Language := do
  guard (Toml.entriesInRange entries)
  return {
    name := ← text? (← entries.get? "name")
    commentPattern := ← text? (← entries.get? "comment_pattern")
    blockLanguage := ← text? (← entries.get? "language")
    extensions := ← extensions? (entries.get? "extensions") }

/-- The language that an element of the array describes. -/
def ofItem? : Item → Option Language
  | .table _ entries => ofEntries? entries
  | .array (name :: commentPattern :: blockLanguage :: rest) => do
    return {
      name := ← text? name
      commentPattern := ← text? commentPattern
      blockLanguage := ← text? blockLanguage
      extensions := ← extensions? rest.head? }
  | _ => none

def languages? : Option Item → Option (List Language)
  | none => some []
  | some (.array items) => items.mapM ofItem?
  | some (.tables elements) => elements.mapM ofEntries?
  | some _ => none

def ofDocument? (document : Entries) : Option Configuration := do
  guard (Toml.entriesInRange (document.erase "languages"))
  return ⟨← languages? (document.get? "languages")⟩

def ofString? (text : String) : Option Configuration := do
  ofDocument? (← Toml.ofString? text)

end Weave.Configuration
