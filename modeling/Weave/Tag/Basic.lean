import Weave.Document.Value

/-!
# Tags

The tags of the markup language. The vocabulary is closed: a tag has one name and one ordered list
of parameters, and no two tags share a name.
-/

namespace Weave

inductive Arithmetic where
  | add
  | subtract
  | multiply
  | divide
  deriving DecidableEq, Repr

inductive Comparison where
  | less
  | lessEqual
  | greater
  | greaterEqual
  deriving DecidableEq, Repr

/-- The declarations that have the signature of a function. -/
inductive CallableKind where
  | function
  | method
  | classMethod
  deriving DecidableEq, Repr

inductive Tag where
  | tagged
  | custom
  | negation
  | isBoolean
  | arithmetic (op : Arithmetic)
  | comparison (op : Comparison)
  | equal
  | symbolName
  | first
  | last
  | nth
  | raw
  | styled (style : Style)
  | declaration
  | titled
  | callable (kind : CallableKind)
  | classDeclaration
  | code
  | sample
  | items (ordered : Bool)
  | visibility (v : Visibility)
  | text (key : TextKey)
  | stability
  | throws
  | literal
  | link
  | ref
  | note (kind : NoteKind)
  | version (change : VersionChange)
  deriving DecidableEq, Repr

namespace Tag

/-- Every tag, in the order of the vocabulary. -/
def all : List Tag :=
  [tagged, custom, negation, isBoolean,
    arithmetic .add, arithmetic .subtract, arithmetic .multiply, arithmetic .divide,
    comparison .less, comparison .lessEqual, comparison .greater, comparison .greaterEqual, equal,
    symbolName, first, last, nth,
    raw, styled .paragraph, styled .text, styled .bold, styled .italic, styled .softBreak,
    styled .line,
    declaration, titled, callable .function, callable .method, callable .classMethod,
    classDeclaration,
    code, sample, items false, items true,
    visibility .isPrivate, visibility .isPublic, text .name, text .type, text .portability,
    text .synopsis, text .platform, text .returns, text .signature, stability, throws,
    literal, link, ref, note .note, note .warning,
    version .added, version .changed, version .deprecated]

theorem mem_all (tag : Tag) : tag ∈ all := by
  cases tag with
  | arithmetic op => cases op <;> decide
  | comparison op => cases op <;> decide
  | styled style => cases style <;> decide
  | callable kind => cases kind <;> decide
  | items ordered => cases ordered <;> decide
  | visibility v => cases v <;> decide
  | text key => cases key <;> decide
  | note kind => cases kind <;> decide
  | version change => cases change <;> decide
  | _ => decide

def name : Tag → String
  | tagged => "tag"
  | custom => "meta"
  | negation => "not"
  | isBoolean => "boolean?"
  | arithmetic .add => "+"
  | arithmetic .subtract => "-"
  | arithmetic .multiply => "*"
  | arithmetic .divide => "/"
  | comparison .less => "<"
  | comparison .lessEqual => "<="
  | comparison .greater => ">"
  | comparison .greaterEqual => ">="
  | equal => "="
  | symbolName => "symbol-name"
  | first => "first"
  | last => "last"
  | nth => "nth"
  | raw => "raw"
  | styled style => style.label
  | declaration => "declaration"
  | titled => "section"
  | callable .function => "function"
  | callable .method => "method"
  | callable .classMethod => "classmethod"
  | classDeclaration => "class"
  | code => "code"
  | sample => "example"
  | items ordered => if ordered then "ordered-list" else "list"
  | visibility v => v.label
  | text key => key.label
  | stability => "stability"
  | throws => "throws"
  | literal => "literal"
  | link => "link"
  | ref => "ref"
  | note kind => kind.label
  | version .added => "version-added"
  | version .changed => "version-changed"
  | version .deprecated => "deprecated"

def ofName? (name : String) : Option Tag :=
  all.find? fun tag => tag.name == name

theorem ofName?_name (tag : Tag) : ofName? tag.name = some tag := by
  have each : ∀ tag ∈ all, ofName? tag.name = some tag := by decide
  exact each tag (mem_all tag)

/-- A tag is found under its own name only. -/
theorem ofName?_eq_some_iff (name : String) (tag : Tag) :
    ofName? name = some tag ↔ tag.name = name := by
  constructor
  · intro found
    simpa using List.find?_some found
  · rintro rfl
    exact ofName?_name tag

def display (tag : Tag) : String :=
  "@" ++ tag.name

/-- The names of the parameters, in the order in which positional arguments fill them. -/
def parameters : Tag → List String
  | tagged => ["tag", "value"]
  | custom => ["key", "value"]
  | negation => ["value"]
  | isBoolean => ["value"]
  | arithmetic _ => ["left", "right"]
  | comparison _ => ["left", "right"]
  | equal => ["left", "right"]
  | symbolName => ["value"]
  | first => ["value"]
  | last => ["value"]
  | nth => ["value", "index"]
  | raw => ["format", "block"]
  | styled _ => ["value"]
  | declaration => ["kind", "children"]
  | titled => ["title", "children"]
  | callable _ => ["signature", "children"]
  | classDeclaration => ["signature", "children"]
  | code => ["language", "block"]
  | sample => ["language", "block", "line-numbers", "emphasise-lines", "caption"]
  | items _ => ["items"]
  | visibility _ => []
  | text _ => ["block"]
  | stability => ["block"]
  | throws => ["name", "block"]
  | literal => ["block"]
  | link => ["text", "url"]
  | ref => ["id", "block"]
  | note _ => ["block"]
  | version _ => ["version", "block"]

end Tag

end Weave
