import Weave.Language

/-!
# Configurations

A configuration lists languages that come before the presets. A configured language hides the preset
of its name, also where files are told by their extension.
-/

namespace Weave

structure Configuration where
  languages : List Language := []
  deriving DecidableEq, Repr

namespace Configuration

def language? (c : Configuration) (name : String) : Option Language :=
  (Language.named? c.languages name).or (Language.named? Language.presets name)

def overrides (c : Configuration) (name : String) : Bool :=
  c.languages.any fun l => l.name == name

def languageFor? (c : Configuration) (extension : String) : Option Language :=
  (Language.handling? c.languages extension).or
    (Language.handling? (Language.presets.filter fun l => !c.overrides l.name) extension)

end Configuration

end Weave
