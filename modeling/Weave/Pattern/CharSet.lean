import Weave.Text.Blank
import Weave.Text.Property

/-!
# Character sets

Sets of characters, as the classes of a pattern name them. A set is a list of ranges of code points,
ascending and apart, so that equal sets are equal lists.
-/

namespace Weave.Pattern

structure CharSet where
  /-- Inclusive ranges of code points, ascending and apart. -/
  ranges : List (Nat × Nat)
  deriving DecidableEq, Repr

/-- The other characters that differ from a character by letter case only: the Latin letters, with
the Kelvin sign among the forms of `k` and the long s among the forms of `s`. -/
def caseVariants (c : Char) : List Char :=
  if c.isUpper then
    c.toLower :: (if c = 'K' then ['\u212A'] else if c = 'S' then ['\u017F'] else [])
  else if c.isLower then
    c.toUpper :: (if c = 'k' then ['\u212A'] else if c = 's' then ['\u017F'] else [])
  else if c = '\u212A' then ['k', 'K']
  else if c = '\u017F' then ['s', 'S']
  else []

def casedChars : List Char :=
  "ABCDEFGHIJKLMNOPQRSTUVWXYZabcdefghijklmnopqrstuvwxyz\u017F\u212A".toList

namespace CharSet

def contains (s : CharSet) (c : Char) : Bool :=
  s.ranges.any fun (low, high) => low ≤ c.toNat && c.toNat ≤ high

/-- Put a range among ascending ones, joining it with those that it meets or touches. -/
def insertRange (low high : Nat) : List (Nat × Nat) → List (Nat × Nat)
  | [] => [(low, high)]
  | (first, last) :: rest =>
    if high + 1 < first then (low, high) :: (first, last) :: rest
    else if last + 1 < low then (first, last) :: insertRange low high rest
    else insertRange (min low first) (max high last) rest

/-- The ranges between the given ones, from a code point on. -/
def gaps (start : Nat) : List (Nat × Nat) → List (Nat × Nat)
  | [] => if start ≤ 0x10FFFF then [(start, 0x10FFFF)] else []
  | (low, high) :: rest =>
    if start < low then (start, low - 1) :: gaps (high + 1) rest else gaps (high + 1) rest

/-- The set without members. -/
def empty : CharSet :=
  ⟨[]⟩

/-- All characters from the first to the second, both included. -/
def range (low high : Char) : CharSet :=
  ⟨[(low.toNat, high.toNat)]⟩

def single (c : Char) : CharSet :=
  range c c

def union (a b : CharSet) : CharSet :=
  ⟨b.ranges.foldr (fun (low, high) ranges => insertRange low high ranges) a.ranges⟩

/-- The characters that do not lie in a set. -/
def compl (a : CharSet) : CharSet :=
  ⟨gaps 0 a.ranges⟩

def inter (a b : CharSet) : CharSet :=
  ⟨a.ranges.flatMap fun (first, last) =>
    (b.ranges.map fun (low, high) => (max first low, min last high)).filter fun (low, high) =>
      low ≤ high⟩

/-- The characters of one set that do not lie in another. -/
def diff (a b : CharSet) : CharSet :=
  a.inter b.compl

/-- The characters that lie in exactly one of two sets. -/
def symmDiff (a b : CharSet) : CharSet :=
  (a.union b).diff (a.inter b)

def unions (sets : List CharSet) : CharSet :=
  sets.foldl union empty

/-- The set with all forms of its members that differ by letter case only. Those that `caseVariants`
gives are known; letters with marks, and those of other scripts, stay as they are. -/
def folded (a : CharSet) : CharSet :=
  unions (a :: (casedChars.filter fun c => (caseVariants c).any a.contains).map single)

/-- The member of a set that has one only. -/
def only? (a : CharSet) : Option Char :=
  match a.ranges with
  | [(low, high)] => if low = high then some (Char.ofNat low) else none
  | _ => none

def full : CharSet :=
  empty.compl

def ofRanges (bounds : List (Char × Char)) : CharSet :=
  unions (bounds.map fun (low, high) => range low high)

def blank : CharSet :=
  ⟨Text.blankRanges⟩

def digit : CharSet :=
  ⟨Text.decimalDigitRanges⟩

def word : CharSet :=
  ⟨Text.wordRanges⟩

theorem contains_blank (c : Char) : blank.contains c = Text.isBlank c := rfl

theorem contains_single (c d : Char) : (single c).contains d = (c == d) := by
  rw [Bool.eq_iff_iff]
  simp only [single, range, contains, List.any_cons, List.any_nil, Bool.or_false,
    Bool.and_eq_true, decide_eq_true_eq, beq_iff_eq]
  constructor
  · intro ⟨low, high⟩
    exact Char.toNat_inj.mp (Nat.le_antisymm low high)
  · rintro rfl
    exact ⟨Nat.le_refl _, Nat.le_refl _⟩

example : (single 'b').compl.contains 'b' = false := by decide
example : ((range 'a' 'c').union (range 'd' 'f')).ranges = [(97, 102)] := by decide
example : ((range 'a' 'z').diff (single 'm')).ranges = [(97, 108), (110, 122)] := by decide
example : (single 'k').folded.ranges = [(75, 75), (107, 107), (0x212A, 0x212A)] := by decide

end CharSet

/-- The named classes of characters, as they stand between `[:` and `:]`. -/
def namedClass? : String → Option CharSet
  | "alnum" => some (.ofRanges [('0', '9'), ('A', 'Z'), ('a', 'z')])
  | "alpha" => some (.ofRanges [('A', 'Z'), ('a', 'z')])
  | "ascii" => some (.range '\x00' '\x7f')
  | "blank" => some (.ofRanges [('\t', '\t'), (' ', ' ')])
  | "cntrl" => some (.ofRanges [('\x00', '\x1f'), ('\x7f', '\x7f')])
  | "digit" => some (.range '0' '9')
  | "graph" => some (.range '!' '~')
  | "lower" => some (.range 'a' 'z')
  | "print" => some (.range ' ' '~')
  | "punct" => some (.ofRanges [('!', '/'), (':', '@'), ('[', '\x60'), ('\x7b', '~')])
  | "space" => some (.ofRanges [('\t', '\r'), (' ', ' ')])
  | "upper" => some (.range 'A' 'Z')
  | "word" => some (.ofRanges [('0', '9'), ('A', 'Z'), ('_', '_'), ('a', 'z')])
  | "xdigit" => some (.ofRanges [('0', '9'), ('A', 'F'), ('a', 'f')])
  | _ => none

end Weave.Pattern
