import Weave.Document.Signature
import Weave.Document.Stability
import Weave.Number.Basic

/-!
# Values and document nodes

Values of the markup language and the document nodes among them. A node is one of a fixed
vocabulary of document parts; its type is parametrised by the values it holds, and values are closed
under nodes.
-/

namespace Weave

/-- A documented entity. Its metadata begin with what its signature says. -/
structure Declaration (α : Type) where
  kind : String
  signature : Option Signature := none
  metadata : List (String × α) := []
  children : List α

structure Section (α : Type) where
  title : String
  metadata : List (String × α) := []
  children : List α

structure Example (α : Type) where
  language : String
  code : String
  lineNumbers : Bool
  /-- The lines to emphasise, in any form. -/
  emphasis : Option α
  caption : String

def defaultCaption : String := "Example"

inductive TextKey where
  | name
  | type
  | portability
  | synopsis
  | platform
  | returns
  | signature
  deriving DecidableEq, Repr

inductive Visibility where
  | isPrivate
  | isPublic
  deriving DecidableEq, Repr

/-- One piece of metadata on the declaration it stands in. -/
inductive Entry (α : Type) where
  | visibility (v : Visibility)
  | text (key : TextKey) (content : String)
  | stability (level : Stability)
  | throws (name : α) (description : String)
  | custom (key value : α)

inductive Style where
  | paragraph
  | text
  | bold
  | italic
  | softBreak
  | line
  deriving DecidableEq, Repr

inductive NoteKind where
  | note
  | warning
  deriving DecidableEq, Repr

inductive VersionChange where
  | added
  | changed
  | deprecated
  deriving DecidableEq, Repr

inductive Node (α : Type) where
  | declaration (d : Declaration α)
  | titled (s : Section α)
  | code (language code : String)
  | sample (e : Example α)
  | items (ordered : Bool) (items : List α)
  | literal (text : String)
  | link (url text : α)
  | ref (id url : String)
  | note (kind : NoteKind) (text : String)
  | version (change : VersionChange) (version text : String)
  | styled (style : Style) (value : α)
  | entry (e : Entry α)
  | raw (format content : String)
  /-- A part with a label of its own. -/
  | tagged (label : String) (value : α)

inductive Value where
  | bool (b : Bool)
  | number (x : Number)
  | string (s : String)
  | list (items : List Value)
  | symbol (label : String)
  /-- Named fields; a name stands once. -/
  | record (fields : List (String × Value))
  | node (n : Node Value)

inductive Shape where
  | boolean
  | number
  | string
  | sequence
  | symbol
  | record
  | node
  deriving DecidableEq, Repr

namespace Shape

def name : Shape → String
  | boolean => "boolean"
  | number => "number"
  | string => "string"
  | sequence => "sequence"
  | symbol => "symbol"
  | record => "record"
  | node => "node"

/-- What is said where a value of this shape is wanted. -/
def wanted : Shape → String
  | node => "expected document node"
  | shape => s!"expected {shape.name} value"

end Shape

def Style.label : Style → String
  | paragraph => "paragraph"
  | text => "text"
  | bold => "bold"
  | italic => "italic"
  | softBreak => "soft-break"
  | line => "line"

def TextKey.label : TextKey → String
  | name => "name"
  | type => "type"
  | portability => "portability"
  | synopsis => "synopsis"
  | platform => "platform"
  | returns => "returns"
  | signature => "signature"

def Visibility.label : Visibility → String
  | isPrivate => "private"
  | isPublic => "public"

def NoteKind.label : NoteKind → String
  | note => "note"
  | warning => "warning"

def VersionChange.label : VersionChange → String
  | added => "added"
  | changed => "changed"
  | deprecated => "deprecated"

namespace Node

variable {α : Type}

/-- The label that a node is known by in the document vocabulary. -/
def label : Node α → String
  | declaration _ => "declaration"
  | titled _ => "section"
  | code _ _ => "code"
  | sample _ => "example"
  | items ordered _ => if ordered then "ordered-list" else "list"
  | literal _ => "literal"
  | link _ _ => "link"
  | ref _ _ => "ref"
  | note _ _ => "note"
  | version _ _ _ => "version-note"
  | styled style _ => style.label
  | entry _ => "meta"
  | raw _ _ => "raw"
  | tagged label _ => label

/-- Whether a node is metadata on what it stands in. -/
def isEntry : Node α → Bool
  | entry _ => true
  | _ => false

end Node

namespace Value

/-- The empty sequence, which stands for nothing. -/
def nothing : Value := list []

def shape : Value → Shape
  | bool _ => .boolean
  | number _ => .number
  | string _ => .string
  | list _ => .sequence
  | symbol _ => .symbol
  | record _ => .record
  | node _ => .node

def bool? : Value → Option Bool
  | bool b => some b
  | _ => none

def number? : Value → Option Number
  | number x => some x
  | _ => none

def string? : Value → Option String
  | string s => some s
  | _ => none

def list? : Value → Option (List Value)
  | list items => some items
  | _ => none

def symbol? : Value → Option String
  | symbol label => some label
  | _ => none

def node? : Value → Option (Node Value)
  | node n => some n
  | _ => none

/-- Only `false` and the empty sequence count as false. -/
def isFalse : Value → Bool
  | bool b => !b
  | list items => items.isEmpty
  | _ => false

end Value

end Weave
