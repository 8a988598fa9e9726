/-!
# Numbers

Numbers of the markup language: binary floating point of 64 bits. A number is kept as its bits, a
sign, eleven bits of exponent and 52 bits of fraction. Comparison, integrality and the passage to
and from natural numbers are decided on the bits; arithmetic rounds to the nearest number, ties to
the even one.
-/

namespace Weave

structure Number where
  bits : UInt64
  deriving DecidableEq, Repr

namespace Number

/-- The value of the bit of the sign, the last of 64. -/
def signUnit : Nat :=
  0x8000000000000000

/-- The value of the lowest bit of the exponent, behind 52 bits of fraction. -/
def exponentUnit : Nat :=
  0x10000000000000

/-- The bits below the sign. They grow with the absolute value. -/
def magnitude (x : Number) : Nat :=
  x.bits.toNat % signUnit

def isNegative (x : Number) : Bool :=
  signUnit ≤ x.bits.toNat

/-- The magnitude of the infinities, above which nothing is a number. -/
def infiniteMagnitude : Nat :=
  0x7FF * exponentUnit

def isNaN (x : Number) : Bool :=
  infiniteMagnitude < x.magnitude

def isFinite (x : Number) : Bool :=
  x.magnitude < infiniteMagnitude

/-- The place of a number in the order of all that are numbers. Both zeros have the same place. -/
def rank (x : Number) : Int :=
  if x.isNegative then -(x.magnitude : Int) else x.magnitude

/-- Equality of numbers. What is not a number differs from everything, itself included. -/
def equal (x y : Number) : Bool :=
  !x.isNaN && !y.isNaN && x.rank == y.rank

def less (x y : Number) : Bool :=
  !x.isNaN && !y.isNaN && decide (x.rank < y.rank)

def lessEqual (x y : Number) : Bool :=
  !x.isNaN && !y.isNaN && decide (x.rank ≤ y.rank)

def ofFloat (x : Float) : Number :=
  ⟨x.toBits⟩

def toFloat (x : Number) : Float :=
  Float.ofBits x.bits

def add (x y : Number) : Number :=
  ofFloat (x.toFloat + y.toFloat)

def mul (x y : Number) : Number :=
  ofFloat (x.toFloat * y.toFloat)

def div (x y : Number) : Number :=
  ofFloat (x.toFloat / y.toFloat)

/-- The significand of a finite number: its fraction, with a leading one unless the exponent is the
least. -/
def significand (x : Number) : Nat :=
  x.magnitude % exponentUnit + if x.magnitude < exponentUnit then 0 else exponentUnit

/-- The power of two by which the significand of a finite number is to be multiplied. -/
def exponent (x : Number) : Int :=
  (max (x.magnitude / exponentUnit) 1 : Nat) - 1075

/-- The absolute value of a finite number, without its fractional part. -/
def wholePart (x : Number) : Nat :=
  match x.exponent with
  | .ofNat e => x.significand * Nat.pow 2 e
  | .negSucc e => x.significand / Nat.pow 2 (e + 1)

/-- Whether a finite number has a fractional part. -/
def hasFraction (x : Number) : Bool :=
  match x.exponent with
  | .ofNat _ => false
  | .negSucc e => x.significand % Nat.pow 2 (e + 1) != 0

/-- The greatest position in a sequence. Positions have 64 bits. -/
def lastPosition : Nat :=
  0xFFFFFFFFFFFFFFFF

/-- A number cut to a position: the fractional part is dropped, and what lies outside gives the
position that is nearest. What is not a number gives the first. -/
def toPosition (x : Number) : Nat :=
  if x.isNaN || x.isNegative then 0
  else if x.isFinite then min x.wholePart lastPosition
  else lastPosition

def zero : Number :=
  ⟨0⟩

/-- The multiple of a unit that is nearest to a natural number, ties to the even one. -/
def nearestMultiple (n unit : Nat) : Nat :=
  let below := n / unit
  let rest := n % unit
  if unit < 2 * rest || unit == 2 * rest && below % 2 == 1 then below + 1 else below

/-- The number nearest to a natural number. A significand that rounding makes too long carries over
into the exponent. -/
def ofNat (n : Nat) : Number :=
  let top := n.log2
  let significand :=
    if top ≤ 52 then n * Nat.pow 2 (52 - top) else nearestMultiple n (Nat.pow 2 (top - 52))
  if n = 0 then zero
  else if 1023 < top then ⟨.ofNat infiniteMagnitude⟩
  else ⟨.ofNat ((top + 1022) * exponentUnit + significand)⟩

example : signUnit = 2 ^ 63 ∧ exponentUnit = 2 ^ 52 := by decide
example : wholePart ⟨0xC00C000000000000⟩ = 3 ∧ hasFraction ⟨0xC00C000000000000⟩ = true := by decide
example : toPosition ⟨0x8000000000000000⟩ = 0 ∧ toPosition ⟨0x7FF0000000000000⟩ = 2 ^ 64 - 1 := by
  decide
example : ofNat 3 = ⟨0x4008000000000000⟩ ∧ ofNat (2 ^ 53 + 1) = ofNat (2 ^ 53) := by decide +kernel
example : equal ⟨0⟩ ⟨0x8000000000000000⟩ = true := by decide

end Number

end Weave
