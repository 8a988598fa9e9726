import Weave.Converter
import Weave.Tag.Violation

/-!
# Failures

Failures of the toolchain and the reports that are made of them.
-/

namespace Weave

/-- Why a file could not be read or written. -/
inductive FileError where
  | notFound
  | notADirectory
  | isADirectory
  | notText
  /-- Anything else that the system refuses, in its own words. -/
  | other (text : String)
  deriving DecidableEq, Repr

def FileError.message : FileError → String
  | notFound => "No such file or directory (os error 2)"
  | notADirectory => "Not a directory (os error 20)"
  | isADirectory => "Is a directory (os error 21)"
  | notText => "stream did not contain valid UTF-8"
  | other text => text

inductive ConfigurationError where
  | malformed
  | missingFile (path : String)
  deriving DecidableEq, Repr

def ConfigurationError.message : ConfigurationError → String
  | malformed => "Failed to parse TOML configuration"
  | missingFile path => s!"Missing configuration file: {path}"

inductive Failure where
  | file (e : FileError)
  | converter (e : ConverterError)
  | evaluation (v : Violation)
  | unknownLanguage (name : String)
  | configuration (e : ConfigurationError)
  deriving DecidableEq, Repr

structure Report where
  code : String
  help : Option String
  text : String
  deriving DecidableEq, Repr

namespace Failure

def message : Failure → String
  | file e => s!"I/O error: {e.message}"
  | converter e => s!"Converter error: {e.message}"
  | evaluation v => v.display
  | unknownLanguage name => s!"Unknown language `{name}`"
  | configuration e => s!"Configuration error: {e.message}"

/-- The report of a failure. A violation is reported under its own code, with the tag in front. -/
def report (f : Failure) : Report :=
  match f with
  | file _ => ⟨"folio::io", none, f.message⟩
  | converter _ => ⟨"folio::convert", none, f.message⟩
  | evaluation v =>
    let text := match v.tag with
      | some tag => s!"@{tag}: {v.message}"
      | none => v.message
    ⟨v.code.name, v.help, text⟩
  | unknownLanguage _ =>
    ⟨"folio::unknown_language",
      some "pass --language, or add a [[languages]] entry with matching extensions", f.message⟩
  | configuration _ => ⟨"folio::config", none, f.message⟩

end Failure

end Weave
