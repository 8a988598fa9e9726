import Weave.Document.Value
import Weave.Number.Decimal

/-!
# Text of values

The text by which a value is shown, and the keys and values of metadata entries. Strings stand
between quotes as they are, symbols bare, and a node shows its label only.
-/

namespace Weave

namespace Value

/-- Texts with a comma between each two. -/
def listed (texts : List String) : String :=
  String.intercalate ", " texts

mutual

def text : Value → String
  | bool b => if b then "true" else "false"
  | number x => x.text
  | string s => "\"" ++ s ++ "\""
  | list items => "[" ++ listed (itemTexts items) ++ "]"
  | symbol label => label
  | record fields => "\x7b" ++ listed (fieldTexts fields) ++ "\x7d"
  | node n => "<" ++ n.label ++ ">"
termination_by structural x => x

def itemTexts : List Value → List String
  | [] => []
  | value :: rest => value.text :: itemTexts rest
termination_by structural x => x

def fieldTexts : List (String × Value) → List String
  | [] => []
  | (key, value) :: rest => (key ++ ": " ++ value.text) :: fieldTexts rest
termination_by structural x => x

end

/-- The text of a value that is used as a label: strings stand as they are. -/
def labelText : Value → String
  | string s => s
  | value => value.text

end Value

namespace Entry

def key : Entry Value → String
  | visibility v => v.label
  | text key _ => key.label
  | stability _ => "stability"
  | throws _ _ => "throws"
  | custom key _ => key.labelText

def value : Entry Value → Value
  | visibility _ => .bool true
  | text _ content => .string content
  | stability level => .string level.name
  | throws name description => .record [("description", .string description), ("name", name)]
  | custom _ value => value

end Entry

end Weave
