/-!
# Stability levels

How settled a documented interface is.
-/

namespace Weave

inductive Stability where
  | deprecated
  | experimental
  | unstable
  | stable
  | frozen
  | locked
  deriving DecidableEq, Repr

namespace Stability

/-- Every level, the least settled first. -/
def all : List Stability :=
  [deprecated, experimental, unstable, stable, frozen, locked]

def name : Stability → String
  | deprecated => "deprecated"
  | experimental => "experimental"
  | unstable => "unstable"
  | stable => "stable"
  | frozen => "frozen"
  | locked => "locked"

/-- The level with a name, whose Latin letters may stand in either case. -/
def ofName? (text : String) : Option Stability :=
  all.find? fun s => s.name.toList == text.toList.map Char.toLower

theorem ofName?_name (s : Stability) : ofName? s.name = some s := by
  cases s <;> decide

def refusal (text : String) : String :=
  s!"invalid stability `{text}`, valid values: " ++ String.intercalate ", " (all.map name)

end Stability

end Weave
