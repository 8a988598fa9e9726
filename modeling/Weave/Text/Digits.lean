/-!
# Digits

Numbers written in digits of a base, and characters written as numbers.
-/

namespace Weave.Text

/-- The value of a digit in a base up to sixteen, letters in either case. -/
def digitValue? (base : Nat) (c : Char) : Option Nat :=
  let value :=
    if c.isDigit then some (c.toNat - '0'.toNat)
    else if 'a' ≤ c && c ≤ 'f' then some (c.toNat - 'a'.toNat + 10)
    else if 'A' ≤ c && c ≤ 'F' then some (c.toNat - 'A'.toNat + 10)
    else none
  value.filter (· < base)

/-- The number that starts with `value` and goes on with the digits, if all of them are digits. -/
def digitsValue? (base : Nat) (value : Nat) : List Char → Option Nat
  | [] => some value
  | c :: rest => do digitsValue? base (value * base + (← digitValue? base c)) rest

/-- The number written by a list of digits, of which there is at least one. -/
def numberOf? (base : Nat) (digits : List Char) : Option Nat :=
  if digits.isEmpty then none else digitsValue? base 0 digits

/-- The character with a code point, if there is one. -/
def charOf? (code : Nat) : Option Char :=
  if code.isValidChar then some (Char.ofNat code) else none

example : numberOf? 16 ['f', 'F'] = some 255 := by decide
example : numberOf? 8 ['8'] = none := by decide
example : charOf? 0xD800 = none := by decide

end Weave.Text
