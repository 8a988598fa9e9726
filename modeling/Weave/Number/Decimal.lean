import Weave.Number.Basic

/-!
# Shortest decimal text

Numbers written in decimal digits. The text of a number has the fewest digits that read back as the
same number; of several such texts it is the nearest to the exact value, and of two equally near the
larger one. Digits are written in full on both sides of the point, without an exponent, and without
a point where nothing follows it.
-/

namespace Weave.Number

/-- A decimal: an integer times a power of ten. -/
structure Decimal where
  digits : Nat
  scale : Int
  deriving DecidableEq, Repr

/-- The values that are rounded to a number, as multiples of a power of two: from `low` to `high`
around `value`, the ends included only if the significand is even. -/
structure Interval where
  low : Nat
  value : Nat
  high : Nat
  exponent : Int
  closed : Bool
  deriving DecidableEq, Repr

/-- The interval of a finite number other than zero. The neighbour below a power of two is half as
far away as the one above. -/
def interval (x : Number) : Interval :=
  let m := 4 * x.significand
  let below := if x.significand = exponentUnit ∧ 2 * exponentUnit ≤ x.magnitude then 1 else 2
  ⟨m - below, m, m + 2, x.exponent - 2, x.significand % 2 = 0⟩

def upper (base : Nat) (e : Int) : Nat :=
  base.pow e.toNat

/-- The factor by which a power is a denominator. -/
def lower (base : Nat) (e : Int) : Nat :=
  base.pow (-e).toNat

/-- The decimals next to the value of an interval on the grid of one power of ten, the nearer one
first, as far as they lie in the interval. -/
def Interval.nearest? (i : Interval) (scale : Int) : Option Decimal :=
  let unit := upper 10 scale * lower 2 i.exponent
  let factor := upper 2 i.exponent * lower 10 scale
  let floor := i.value * factor / unit
  let ceiling := floor + 1
  let holds (digits : Nat) : Bool :=
    if i.closed then
      i.low * factor ≤ digits * unit && digits * unit ≤ i.high * factor
    else
      i.low * factor < digits * unit && digits * unit < i.high * factor
  let rounded :=
    if 2 * (i.value * factor) < (floor + ceiling) * unit then floor else ceiling
  if holds floor && holds ceiling then some ⟨rounded, scale⟩
  else if holds floor then some ⟨floor, scale⟩
  else if holds ceiling then some ⟨ceiling, scale⟩
  else none

/-- The first decimal found on grids that get finer. -/
def Interval.shortestFrom (i : Interval) (scale : Int) : Nat → Decimal
  | 0 => ⟨i.value * upper 2 i.exponent, 0⟩
  | grids + 1 =>
    match i.nearest? scale with
    | some d => d
    | none => i.shortestFrom (scale - 1) grids

/-- A power of ten above the interval, at most two above the next: 30103 is a little more than
100000 times the decimal logarithm of two. -/
def Interval.scaleAbove (i : Interval) : Int :=
  (i.exponent + i.high.log2 + 1) * 30103 / 100000 + 1

/-- The decimal with the fewest digits that reads back as a finite number other than zero. There is
one of at most seventeen digits. -/
def shortest (x : Number) : Decimal :=
  let i := x.interval
  i.shortestFrom i.scaleAbove 20

/-- Whether a decimal is nearer to infinity than to any number, or as near. The greatest number lies
between the powers 308 and 309 of ten; half of its distance to the number before it is added. -/
def Decimal.overflows (d : Decimal) : Bool :=
  let places : Int := (Nat.repr d.digits).length + d.scale
  if d.digits = 0 || places < 309 then false
  else if 309 < places then true
  else (Nat.pow 2 1024 - Nat.pow 2 970) * lower 10 d.scale ≤ d.digits * upper 10 d.scale

example : Decimal.overflows ⟨17976931348623157, 292⟩ = false := by decide +kernel
example : Decimal.overflows ⟨17976931348623159, 292⟩ = true := by decide +kernel

def Decimal.text (d : Decimal) : String :=
  let digits := Nat.toDigits 10 d.digits
  match d.scale with
  | .ofNat zeros => String.ofList (digits ++ List.replicate zeros '0')
  | .negSucc places =>
    let places := places + 1
    let padded := List.replicate (places + 1 - digits.length) '0' ++ digits
    let whole := padded.length - places
    String.ofList (padded.take whole ++ '.' :: padded.drop whole)

def text (x : Number) : String :=
  if x.isNaN then "NaN"
  else
    let absolute :=
      if !x.isFinite then "inf" else if x.magnitude = 0 then "0" else x.shortest.text
    if x.isNegative then "-" ++ absolute else absolute

end Weave.Number
