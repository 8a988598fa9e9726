import Weave.Number.Decimal
import Weave.Text.Digits
import Weave.Toml.Basic

/-!
# Plain TOML values

Plain values: booleans, numbers, dates and times. A plain value keeps its text; `kindOf?` tells
whether a text is well formed, and `Item.inRange` whether its numbers can be held by a program.
-/

namespace Weave.Toml

/-- The digits of a number without the low lines between them. A low line stands between two digits
only. -/
def digits? (isDigit : Char → Bool) : List Char → Option (List Char)
  | [] => none
  | [c] => if isDigit c then some [c] else none
  | c :: '_' :: rest => if isDigit c then (digits? isDigit rest).map (c :: ·) else none
  | c :: rest => if isDigit c then (digits? isDigit rest).map (c :: ·) else none

/-- The characters behind a sign, if there is one. -/
def dropSign : List Char → List Char
  | '+' :: rest => rest
  | '-' :: rest => rest
  | cs => cs

/-- The digits of a decimal number, which does not begin with a superfluous zero. -/
def decimal? (cs : List Char) : Option (List Char) :=
  match digits? Char.isDigit cs with
  | some ('0' :: _ :: _) => none
  | digits => digits

/-- A number with the sign in front of a text, if there is one. -/
def signed (cs : List Char) (magnitude : Nat) : Int :=
  if cs.head? = some '-' then -(magnitude : Int) else magnitude

def integer? (cs : List Char) : Option Int :=
  let inBase (base : Nat) (rest : List Char) : Option Int := do
    let digits ← digits? (fun c => (Text.digitValue? base c).isSome) rest
    return (← Text.numberOf? base digits : Nat)
  match cs with
  | '0' :: 'x' :: rest => inBase 16 rest
  | '0' :: 'o' :: rest => inBase 8 rest
  | '0' :: 'b' :: rest => inBase 2 rest
  | cs => do return signed cs (← Text.numberOf? 10 (← decimal? (dropSign cs)))

/-- Whether an integer fits into 128 bits, with or without a sign. -/
def fits (n : Int) : Bool :=
  -0x80000000000000000000000000000000 ≤ n && n < 0x100000000000000000000000000000000

/-- What a number with a fraction or an exponent stands for, its sign left out. -/
inductive Magnitude where
  | decimal (d : Number.Decimal)
  /-- Infinity, or no number at all. -/
  | special
  deriving DecidableEq, Repr

def exponent? (cs : List Char) : Option Int := do
  return signed cs (← Text.numberOf? 10 (← digits? Char.isDigit (dropSign cs)))

/-- The value of a number with a fraction, an exponent or both. -/
def magnitude? (cs : List Char) : Option Magnitude :=
  let cs := dropSign cs
  let isMark (c : Char) : Bool := c == 'e' || c == 'E'
  let mantissa := cs.takeWhile (!isMark ·)
  let power := cs.dropWhile (!isMark ·)
  let whole := mantissa.takeWhile (· != '.')
  let fraction := mantissa.dropWhile (· != '.')
  if cs == ['i', 'n', 'f'] || cs == ['n', 'a', 'n'] then some .special
  else if fraction.isEmpty && power.isEmpty then none
  else do
    let whole ← decimal? whole
    let places ← match fraction with
      | [] => some []
      | _ :: places => digits? Char.isDigit places
    let exponent ← match power with
      | [] => some 0
      | _ :: power => exponent? power
    return .decimal ⟨← Text.numberOf? 10 (whole ++ places), exponent - places.length⟩

def daysIn (year month : Nat) : Nat :=
  let leap := year % 4 = 0 ∧ (year % 100 ≠ 0 ∨ year % 400 = 0)
  if month = 2 then if leap then 29 else 28
  else if month ∈ [4, 6, 9, 11] then 30
  else 31

/-- What stands behind a date, if a text begins with one. -/
def afterDate? : List Char → Option (List Char)
  | y₁ :: y₂ :: y₃ :: y₄ :: '-' :: m₁ :: m₂ :: '-' :: d₁ :: d₂ :: rest => do
    let year ← Text.numberOf? 10 [y₁, y₂, y₃, y₄]
    let month ← Text.numberOf? 10 [m₁, m₂]
    let day ← Text.numberOf? 10 [d₁, d₂]
    if 1 ≤ month ∧ month ≤ 12 ∧ 1 ≤ day ∧ day ≤ daysIn year month then some rest else none
  | _ => none

/-- What stands behind a number of two digits, if it is no greater than a limit. -/
def afterTwo? (limit : Nat) : List Char → Option (List Char)
  | c :: d :: rest => do
    let n ← Text.numberOf? 10 [c, d]
    if n ≤ limit then some rest else none
  | _ => none

/-- What stands behind the fraction of a second, if there is one. -/
def afterFraction? : List Char → Option (List Char)
  | '.' :: rest =>
    if (rest.takeWhile Char.isDigit).isEmpty then none else some (rest.dropWhile Char.isDigit)
  | rest => some rest

/-- What stands behind a time, if a text begins with one. Seconds may be left out. -/
def afterTime? (cs : List Char) : Option (List Char) := do
  match ← afterTwo? 23 cs with
  | ':' :: rest =>
    match ← afterTwo? 59 rest with
    | ':' :: rest => afterFraction? (← afterTwo? 60 rest)
    | rest => some rest
  | _ => none

/-- Whether a text is an offset from universal time, or empty. -/
def isOffset : List Char → Bool
  | [] => true
  | ['Z'] => true
  | ['z'] => true
  | sign :: rest =>
    (sign == '+' || sign == '-') &&
      match afterTwo? 23 rest with
      | some (':' :: minutes) => afterTwo? 59 minutes == some []
      | _ => false

/-- Whether a text is a date, a time, or both. -/
def isDateTime (cs : List Char) : Bool :=
  match afterDate? cs with
  | some [] => true
  | some (mark :: time) =>
    (mark == 'T' || mark == 't' || mark == ' ') &&
      match afterTime? time with
      | some offset => isOffset offset
      | none => false
  | none => afterTime? cs == some []

/-- Whether a character may stand in a plain value. -/
def isPlainChar (c : Char) : Bool :=
  c.isAlphanum || c == '+' || c == '-' || c == '_' || c == '.' || c == ':'

def kindOf? (cs : List Char) : Option Kind :=
  if cs == "true".toList || cs == "false".toList then some .boolean
  else if (integer? cs).isSome then some .integer
  else if (magnitude? cs).isSome then some .float
  else if isDateTime cs then some .dateTime
  else none

/-- Whether a plain value can be held: an integer has a limited width, and a number with a fraction
or an exponent is not so large that it would become infinite. -/
def Kind.admits (text : List Char) : Kind → Bool
  | boolean => true
  | integer => (integer? text).any fits
  | float =>
    match magnitude? text with
    | some (.decimal d) => !d.overflows
    | _ => true
  | dateTime => true

mutual

/-- Whether all plain values in an item can be held. -/
def Item.inRange : Item → Bool
  | .string _ => true
  | .plain kind text => kind.admits text.toList
  | .array items => itemsInRange items
  | .table _ entries => entriesInRange entries
  | .tables elements => elementsInRange elements

/-- Whether all plain values in a list of items can be held. -/
def itemsInRange : List Item → Bool
  | [] => true
  | item :: rest => item.inRange && itemsInRange rest

/-- Whether all plain values in the entries of a table can be held. -/
def entriesInRange : List (String × Item) → Bool
  | [] => true
  | (_, item) :: rest => item.inRange && entriesInRange rest

/-- Whether all plain values in a list of tables can be held. -/
def elementsInRange : List (List (String × Item)) → Bool
  | [] => true
  | entries :: rest => entriesInRange entries && elementsInRange rest

end

/-- The text of a plain value at the front of the characters, and those behind it. One space may
stand between a date and a time. -/
def spanPlain (cs : List Char) : List Char × List Char :=
  let first := cs.takeWhile isPlainChar
  let rest := cs.dropWhile isPlainChar
  match rest with
  | ' ' :: c :: others =>
    if afterDate? first == some [] && c.isDigit then
      let time := (c :: others).takeWhile isPlainChar
      (first ++ ' ' :: time, (c :: others).dropWhile isPlainChar)
    else (first, rest)
  | _ => (first, rest)

def readPlain? (cs : List Char) : Option (Item × List Char) :=
  let (token, rest) := spanPlain cs
  (kindOf? token).map fun kind => (.plain kind (String.ofList token), rest)

example : kindOf? "1_000".toList = some .integer := by decide
example : kindOf? "01".toList = none := by decide
example : kindOf? "6.02e-23".toList = some .float := by decide
example : kindOf? "1979-05-27T07:32:00Z".toList = some .dateTime := by decide
example : kindOf? "1979-02-29".toList = none := by decide

end Weave.Toml
