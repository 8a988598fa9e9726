import Weave.Pattern.CharSet

/-!
# Encodings of sets

The members of a set in UTF-8. A character is written as a first byte, which tells how many follow,
and further bytes that carry a digit in base 64 each. The encodings of a range of characters are few
sequences of ranges of bytes, each of which stands for all combinations.
-/

namespace Weave.Pattern

abbrev ByteRange := Nat × Nat

/-- The numbers from one to another as sequences of ranges of digits in base 64, of which there are
`more` behind the first. -/
def spans : Nat → Nat → Nat → List (List ByteRange)
  | 0, low, high => [[(low, high)]]
  | more + 1, low, high =>
    let unit := Nat.pow 64 (more + 1)
    let first := low / unit
    let last := high / unit
    if first = last then (spans more (low % unit) (high % unit)).map ((first, first) :: ·)
    else
      let atFirst := low % unit ≠ 0
      let atLast := high % unit ≠ unit - 1
      let begins :=
        if atFirst then (spans more (low % unit) (unit - 1)).map ((first, first) :: ·) else []
      let ends := if atLast then (spans more 0 (high % unit)).map ((last, last) :: ·) else []
      let start := if atFirst then first + 1 else first
      let stop := if atLast then last - 1 else last
      let whole := if start ≤ stop then [(start, stop) :: List.replicate (more + 1) (0, 63)] else []
      begins ++ whole ++ ends

/-- The characters whose encodings have one length. -/
structure EncodingForm where
  first : Nat
  last : Nat
  /-- How many bytes stand behind the first. -/
  more : Nat
  /-- What is added to the digit that the first byte carries. -/
  lead : Nat
  deriving DecidableEq, Repr

/-- The forms of encodings. The surrogates are no characters. -/
def encodingForms : List EncodingForm :=
  [⟨0, 0x7F, 0, 0⟩, ⟨0x80, 0x7FF, 1, 0xC0⟩, ⟨0x800, 0xD7FF, 2, 0xE0⟩, ⟨0xE000, 0xFFFF, 2, 0xE0⟩,
    ⟨0x10000, 0x10FFFF, 3, 0xF0⟩]

/-- The bytes that sequences of digits stand for. -/
def ofDigits (lead : Nat) : List ByteRange → List ByteRange
  | [] => []
  | (low, high) :: rest =>
    (lead + low, lead + high) :: rest.map fun (low, high) => (0x80 + low, 0x80 + high)

/-- The encodings of the members of a set, ascending, as sequences of ranges of bytes. -/
def CharSet.encodings (s : CharSet) : List (List ByteRange) :=
  s.ranges.flatMap fun (low, high) =>
    encodingForms.flatMap fun form =>
      let low := max low form.first
      let high := min high form.last
      if low ≤ high then (spans form.more low high).map (ofDigits form.lead) else []

example : (CharSet.range 'a' 'z').encodings = [[(0x61, 0x7A)]] := by decide
example : (CharSet.single 'é').encodings = [[(0xC3, 0xC3), (0xA9, 0xA9)]] := by decide
example : (CharSet.range 'é' 'ł').encodings =
    [[(0xC3, 0xC3), (0xA9, 0xBF)], [(0xC4, 0xC4), (0x80, 0xBF)], [(0xC5, 0xC5), (0x80, 0x82)]] := by
  decide

end Weave.Pattern
