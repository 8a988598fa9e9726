import Weave.Document.Fields
import Weave.Document.Value

/-!
# Building declarations

How a signature and further metadata are put on a declaration or a section. A piece of metadata that
is put again keeps its place.
-/

namespace Weave

namespace Declaration

/-- Give a declaration a signature. The metadata name its parts; parents named before stay where the
new signature has none. -/
def withSignature (d : Declaration Value) (s : Signature) : Declaration Value :=
  let named := d.metadata
    |> Fields.insert "name" (.string s.name)
    |> Fields.insert "signature" (.string s.text)
  let metadata := match s.parents with
    | some parents => Fields.insert "parents" (.string parents) named
    | none => named
  { d with signature := some s, metadata }

/-- Put one more piece of metadata on a declaration. -/
def withMetadata (d : Declaration Value) (key : String) (value : Value) : Declaration Value :=
  { d with metadata := Fields.insert key value d.metadata }

end Declaration

def Section.withMetadata (s : Section Value) (key : String) (value : Value) : Section Value :=
  { s with metadata := Fields.insert key value s.metadata }

end Weave
