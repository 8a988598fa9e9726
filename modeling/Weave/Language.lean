import Weave.Converter

/-!
# Source languages

How the documentation comments of a language look, and which files hold it.
-/

namespace Weave

structure Language where
  name : String
  /-- The pattern of documentation comments; its one group is their text. -/
  commentPattern : String
  /-- The language of code blocks. -/
  blockLanguage : String
  /-- The file extensions, without the dot. -/
  extensions : List String := []
  deriving DecidableEq, Repr

namespace Language

def javascript : Language :=
  ⟨"javascript", "^\\s*//\\s?(.*)$", "js", ["js", "mjs", "cjs"]⟩

def livescript : Language :=
  ⟨"livescript", "^\\s*#\\s?(.*)$", "livescript", ["ls"]⟩

/-- The languages known without configuration. -/
def presets : List Language :=
  [javascript, livescript]

/-- Whether files with an extension are taken to hold a language. -/
def handles (l : Language) (extension : String) : Bool :=
  l.extensions.contains extension

def named? (languages : List Language) (name : String) : Option Language :=
  languages.find? fun l => l.name == name

/-- The first language that handles an extension. -/
def handling? (languages : List Language) (extension : String) : Option Language :=
  languages.find? fun l => l.handles extension

def converter (l : Language) : Except ConverterError Converter :=
  Converter.ofPattern l.commentPattern l.blockLanguage

end Language

end Weave
