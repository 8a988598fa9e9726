import Weave.Configuration.Basic
import Weave.Failure
import Weave.Path

/-!
# The toolchain

Converters chosen by name or by the path of a file, under a configuration.
-/

namespace Weave.Configuration

/-- The language with a name, or the failure that it is unknown. -/
def language (c : Configuration) (name : String) : Except Failure Language :=
  match c.language? name with
  | some l => .ok l
  | none => .error (.unknownLanguage name)

/-- The converter of a language, or the failure to make one. -/
def converterOf (l : Language) : Except Failure Converter :=
  match l.converter with
  | .ok converter => .ok converter
  | .error e => .error (.converter e)

def converter (c : Configuration) (name : String) : Except Failure Converter :=
  match c.language name with
  | .ok l => converterOf l
  | .error failure => .error failure

/-- The converter for a file. A path without an extension is looked up under the empty one; one that
has an extension which is no text, and would be looked up likewise, is not among the paths. -/
def converterFor (c : Configuration) (path : String) : Except Failure Converter :=
  match c.languageFor? ((Path.extension? path).getD "") with
  | some l => converterOf l
  | none => .error (.unknownLanguage path)

/-- The markup of a source text in the language with a name. -/
def convert (c : Configuration) (language source : String) : Except Failure String :=
  match c.converter language with
  | .ok converter => .ok (converter.convert source)
  | .error failure => .error failure

end Weave.Configuration
