/-!
# Blank characters

A character is blank when Unicode gives it the property White_Space; a text is blank when all its
characters are. Trimming removes blank characters from the ends of a text.
-/

namespace Weave.Text

/-- The inclusive code point ranges of the Unicode property White_Space. -/
def blankRanges : List (Nat × Nat) :=
  [(0x09, 0x0D), (0x20, 0x20), (0x85, 0x85), (0xA0, 0xA0), (0x1680, 0x1680), (0x2000, 0x200A),
    (0x2028, 0x2029), (0x202F, 0x202F), (0x205F, 0x205F), (0x3000, 0x3000)]

def isBlank (c : Char) : Bool :=
  blankRanges.any fun (low, high) => low ≤ c.toNat && c.toNat ≤ high

example : (blankRanges.map fun (low, high) => high + 1 - low).sum = 25 := by decide

/-- The characters left when the leading blanks are gone. -/
def dropBlank (cs : List Char) : List Char :=
  cs.dropWhile isBlank

/-- The characters left when the trailing blanks are gone. -/
def dropBlankEnd (cs : List Char) : List Char :=
  (dropBlank cs.reverse).reverse

/-- A text without its leading blanks. -/
def trimStart (s : String) : String :=
  String.ofList (dropBlank s.toList)

/-- Whether a text holds blank characters only; the empty text does. -/
def allBlank (s : String) : Bool :=
  s.toList.all isBlank

end Weave.Text
