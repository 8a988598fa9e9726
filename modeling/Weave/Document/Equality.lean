import Weave.Document.Value

/-!
# Equality of values

Equality of values, as the markup language sees it. Values are equal by structure, numbers by their
numeric order, and fields whatever their order. A value that holds something that is not a number
differs from itself.
-/

namespace Weave.Value

mutual

def equal : Value → Value → Bool
  | bool a, bool b => a == b
  | number a, number b => a.equal b
  | string a, string b => a == b
  | list a, list b => equalItems a b
  | symbol a, symbol b => a == b
  | record a, record b => equalFields a b b
  | node a, node b => equalNodes a b
  | _, _ => false
termination_by structural x => x

def equalItems : List Value → List Value → Bool
  | [], [] => true
  | a :: as, b :: bs => a.equal b && equalItems as bs
  | _, _ => false
termination_by structural x => x

/-- Equality of fields: each field of the first has an equal one in the second, and none of the
second is left when those that have an equal one in the first are taken away. -/
def equalFields : List (String × Value) → List (String × Value) → List (String × Value) → Bool
  | [], _, left => left.isEmpty
  | (key, a) :: as, bs, left =>
    bs.any (fun (other, b) => key == other && a.equal b) &&
      equalFields as bs (left.filter fun (other, b) => !(key == other && a.equal b))
termination_by structural x => x

def equalOptions : Option Value → Option Value → Bool
  | none, none => true
  | some a, some b => a.equal b
  | _, _ => false
termination_by structural x => x

def equalEntries : Entry Value → Entry Value → Bool
  | .visibility a, .visibility b => a == b
  | .text key a, .text other b => key == other && a == b
  | .stability a, .stability b => a == b
  | .throws a c, .throws b d => a.equal b && c == d
  | .custom a c, .custom b d => a.equal b && c.equal d
  | _, _ => false
termination_by structural x => x

def equalNodes : Node Value → Node Value → Bool
  | .declaration ⟨kind, signature, metadata, children⟩,
    .declaration ⟨kind', signature', metadata', children'⟩ =>
    kind == kind' && signature == signature' && equalFields metadata metadata' metadata' &&
      equalItems children children'
  | .titled ⟨title, metadata, children⟩, .titled ⟨title', metadata', children'⟩ =>
    title == title' && equalFields metadata metadata' metadata' && equalItems children children'
  | .code a c, .code b d => a == b && c == d
  | .sample ⟨language, code, numbers, emphasis, caption⟩,
    .sample ⟨language', code', numbers', emphasis', caption'⟩ =>
    language == language' && code == code' && numbers == numbers' &&
      equalOptions emphasis emphasis' && caption == caption'
  | .items ordered as, .items ordered' bs => ordered == ordered' && equalItems as bs
  | .literal a, .literal b => a == b
  | .link a c, .link b d => a.equal b && c.equal d
  | .ref a c, .ref b d => a == b && c == d
  | .note kind a, .note kind' b => kind == kind' && a == b
  | .version change a c, .version change' b d => change == change' && a == b && c == d
  | .styled style a, .styled style' b => style == style' && a.equal b
  | .entry a, .entry b => equalEntries a b
  | .raw a c, .raw b d => a == b && c == d
  | .tagged label a, .tagged label' b => label == label' && a.equal b
  | _, _ => false
termination_by structural x => x

end

example : equal (.record [("a", .bool true), ("b", .string "x")])
    (.record [("b", .string "x"), ("a", .bool true)]) = true := by decide
example : equal (.string "a") (.symbol "a") = false := by decide

end Weave.Value
