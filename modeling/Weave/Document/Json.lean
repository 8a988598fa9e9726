import Weave.Document.Value

/-!
# Serialised values

The serialised form of values. Symbols become strings and records objects; what is not a finite
number becomes null. A node is an object with one member, named for the kind of the node.
-/

namespace Weave

inductive Json where
  | null
  | bool (b : Bool)
  | number (x : Number)
  | string (s : String)
  | array (items : List Json)
  | object (members : List (String × Json))

namespace Json

def single (name : String) (content : Json) : Json :=
  object [(name, content)]

/-- A member that is left out where there is no value. -/
def optional (name : String) (content : Option Json) : List (String × Json) :=
  (content.map fun content => (name, content)).toList

end Json

def Signature.json (s : Signature) : Json :=
  .object ([("name", .string s.name), ("signature", .string s.text)] ++
    Json.optional "parents" (s.parents.map .string))

namespace Value

mutual

def json : Value → Json
  | bool b => .bool b
  | number x => if x.isFinite then .number x else .null
  | string s => .string s
  | list items => .array (jsonItems items)
  | symbol label => .string label
  | record fields => .object (jsonFields fields)
  | node n => jsonNode n
termination_by structural x => x

def jsonItems : List Value → List Json
  | [] => []
  | value :: rest => value.json :: jsonItems rest
termination_by structural x => x

def jsonFields : List (String × Value) → List (String × Json)
  | [] => []
  | (key, value) :: rest => (key, value.json) :: jsonFields rest
termination_by structural x => x

/-- The serialised form of a value that may be missing. -/
def jsonOption : Option Value → Json
  | none => .null
  | some value => value.json
termination_by structural x => x

def jsonEntry : Entry Value → Json
  | .visibility v => .string v.label
  | .text key content => .single key.label (.string content)
  | .stability level => .single "stability" (.string level.name)
  | .throws name description =>
    .single "throws" (.object [("name", name.json), ("description", .string description)])
  | .custom key value => .single "custom" (.object [("key", key.json), ("value", value.json)])
termination_by structural x => x

def jsonNode : Node Value → Json
  | .declaration ⟨kind, signature, metadata, children⟩ =>
    .single "declaration" (.object ([("kind", .string kind)] ++
      Json.optional "signature" (signature.map Signature.json) ++
      [("meta", .object (jsonFields metadata)), ("children", .array (jsonItems children))]))
  | .titled ⟨title, metadata, children⟩ =>
    .single "section" (.object [("title", .string title), ("meta", .object (jsonFields metadata)),
      ("children", .array (jsonItems children))])
  | .code language code =>
    .single "code" (.object [("language", .string language), ("code", .string code)])
  | .sample ⟨language, code, lineNumbers, emphasis, caption⟩ =>
    .single "example" (.object [("language", .string language), ("code", .string code),
      ("line-numbers", .bool lineNumbers), ("emphasise-lines", jsonOption emphasis),
      ("caption", .string caption)])
  | .items ordered items =>
    .single (if ordered then "ordered-list" else "list")
      (.object [("items", .array (jsonItems items))])
  | .literal text => .single "literal" (.object [("text", .string text)])
  | .link url text => .single "link" (.object [("url", url.json), ("text", text.json)])
  | .ref id url => .single "ref" (.object [("id", .string id), ("url", .string url)])
  | .note kind text =>
    .single "note" (.object [("kind", .string kind.label), ("text", .string text)])
  | .version change version text =>
    .single "version-note" (.object [("kind", .string change.label), ("version", .string version),
      ("text", .string text)])
  | .styled style value => .single style.label (.object [("value", value.json)])
  | .entry e => .single "meta" (jsonEntry e)
  | .raw format content =>
    .single "raw" (.object [("format", .string format), ("content", .string content)])
  | .tagged label value =>
    .single "tagged" (.object [("label", .string label), ("value", value.json)])
termination_by structural x => x

end

end Value

end Weave
