import Mathlib.Algebra.Order.Field.Rat
import Mathlib.Algebra.Order.Ring.Int
import Mathlib.Data.Rat.Cast.Order
import Mathlib.Order.Monotone.Basic
import Mathlib.Tactic.FieldSimp
import Mathlib.Tactic.Positivity
import Weave.Number.Basic

/-!
# The exact values of numbers

A finite number is its significand times a power of two, with its sign. Every such value is a
multiple of the least positive number, and the bits below the sign grow with that multiple. So
numbers compare as their values do, and natural numbers up to 2 ^ 53 are numbers exactly. What
remains of an integer when it is cut to a position is the integer itself.
-/

namespace Weave.Number

def sign (x : Number) : Int :=
  if x.isNegative then -1 else 1

/-- The exact value of a finite number. -/
def value (x : Number) : ℚ :=
  x.sign * (x.significand * 2 ^ x.exponent)

theorem exponentUnit_pos : 0 < exponentUnit := by
  decide

/-! ### Multiples of the least positive number -/

/-- How often the least positive number is to be doubled to make one. -/
def depth : Nat :=
  1074

/-- How often the least positive number goes into a finite number with some bits below the sign. -/
def units (magnitude : Nat) : Nat :=
  (magnitude % exponentUnit + if magnitude < exponentUnit then 0 else exponentUnit) *
    2 ^ (max (magnitude / exponentUnit) 1 - 1)

/-- The significand that a fraction stands for under the least exponent. -/
private theorem units_least {fraction : Nat} (bound : fraction < exponentUnit) :
    units fraction = fraction := by
  simp [units, bound, Nat.mod_eq_of_lt bound, Nat.div_eq_of_lt bound]

private theorem units_fields (exponent : Nat) {fraction : Nat}
    (bound : fraction < exponentUnit) :
    units ((exponent + 1) * exponentUnit + fraction) =
      (fraction + exponentUnit) * 2 ^ exponent := by
  have large : ¬(exponent + 1) * exponentUnit + fraction < exponentUnit := by
    rw [Nat.add_mul]
    omega
  have rest : ((exponent + 1) * exponentUnit + fraction) % exponentUnit = fraction := by
    rw [Nat.mul_add_mod_self_right, Nat.mod_eq_of_lt bound]
  have quotient : ((exponent + 1) * exponentUnit + fraction) / exponentUnit = exponent + 1 := by
    rw [Nat.mul_comm, Nat.mul_add_div exponentUnit_pos, Nat.div_eq_of_lt bound, Nat.add_zero]
  simp [units, large, rest, quotient]

theorem units_lt_succ (magnitude : Nat) : units magnitude < units (magnitude + 1) := by
  obtain ⟨exponent, fraction, bound, rfl⟩ : ∃ exponent fraction, fraction < exponentUnit ∧
      magnitude = exponent * exponentUnit + fraction :=
    ⟨_, _, Nat.mod_lt magnitude exponentUnit_pos, (Nat.div_add_mod' magnitude exponentUnit).symm⟩
  rw [Nat.add_assoc]
  rcases Nat.lt_or_eq_of_le (show fraction + 1 ≤ exponentUnit from bound) with inside | carries
  · -- The exponent stays, and the fraction grows by one.
    cases exponent with
    | zero =>
      rw [Nat.zero_mul, Nat.zero_add, Nat.zero_add, units_least bound, units_least inside]
      exact Nat.lt_succ_self fraction
    | succ exponent =>
      rw [units_fields exponent bound, units_fields exponent inside]
      exact Nat.mul_lt_mul_of_pos_right (by omega) (Nat.two_pow_pos exponent)
  · -- The fraction is the greatest: the next number has the next exponent and no fraction.
    have next : exponent * exponentUnit + (fraction + 1) = (exponent + 1) * exponentUnit + 0 := by
      rw [carries, Nat.succ_mul, Nat.add_zero]
    rw [next, units_fields exponent exponentUnit_pos, Nat.zero_add]
    cases exponent with
    | zero =>
      rw [Nat.zero_mul, Nat.zero_add, units_least bound, Nat.pow_zero, Nat.mul_one]
      exact bound
    | succ exponent =>
      rw [units_fields exponent bound, Nat.pow_succ', ← Nat.mul_assoc]
      exact Nat.mul_lt_mul_of_pos_right (by omega) (Nat.two_pow_pos exponent)

theorem units_strictMono : StrictMono units :=
  strictMono_nat_of_lt_succ units_lt_succ

/-- The multiple of the least positive number at a place in the order of numbers. -/
def signedUnits (rank : Int) : Int :=
  rank.sign * units rank.natAbs

theorem signedUnits_natCast (magnitude : Nat) : signedUnits magnitude = units magnitude := by
  cases magnitude with
  | zero =>
    have zero : units 0 = 0 := units_least exponentUnit_pos
    simp [signedUnits, zero]
  | succ magnitude => exact Int.one_mul _

theorem signedUnits_neg (rank : Int) : signedUnits (-rank) = -signedUnits rank := by
  rw [signedUnits, Int.sign_neg, Int.natAbs_neg, Int.neg_mul]
  rfl

theorem signedUnits_lt {first second : Int} (less : first < second) :
    signedUnits first < signedUnits second := by
  -- Below zero the order is that of the absolute values, turned around.
  rcases first.eq_nat_or_neg with ⟨m, rfl | rfl⟩ <;>
    rcases second.eq_nat_or_neg with ⟨n, rfl | rfl⟩
  · rw [signedUnits_natCast, signedUnits_natCast]
    exact Int.ofNat_lt.mpr (units_strictMono (Int.ofNat_lt.mp less))
  · omega
  · -- One of the two is not zero, and then its multiple is not.
    have below : m ≤ units m := units_strictMono.le_apply
    have above : n ≤ units n := units_strictMono.le_apply
    rw [signedUnits_neg, signedUnits_natCast, signedUnits_natCast]
    omega
  · have strict : units n < units m := units_strictMono (by omega)
    rw [signedUnits_neg, signedUnits_neg, signedUnits_natCast, signedUnits_natCast]
    omega

theorem signedUnits_lt_iff {first second : Int} :
    signedUnits first < signedUnits second ↔ first < second :=
  StrictMono.lt_iff_lt fun _ _ => signedUnits_lt

theorem signedUnits_le_iff {first second : Int} :
    signedUnits first ≤ signedUnits second ↔ first ≤ second :=
  StrictMono.le_iff_le fun _ _ => signedUnits_lt

/-- The value of a number, by its place in the order of all numbers. -/
theorem value_eq (x : Number) : x.value = signedUnits x.rank / 2 ^ depth := by
  -- The two least exponents stand for the same power of two, with and without a leading one.
  obtain ⟨steps, place⟩ : ∃ steps, max (x.magnitude / exponentUnit) 1 = steps + 1 :=
    ⟨_, (Nat.sub_add_cancel (Nat.le_max_right _ 1)).symm⟩
  have multiple : units x.magnitude = x.significand * 2 ^ steps := by
    rw [units, significand, place, Nat.add_sub_cancel]
  have power : (2 : ℚ) ^ x.exponent = 2 ^ steps / 2 ^ depth := by
    have exponent : x.exponent = (steps : Int) - depth := by
      rw [Number.exponent, place, depth]
      omega
    rw [exponent, zpow_sub₀ two_ne_zero, zpow_natCast, zpow_natCast]
  have signed : signedUnits x.rank = x.sign * units x.magnitude := by
    unfold rank sign
    split
    · rw [signedUnits_neg, signedUnits_natCast, Int.neg_one_mul]
    · rw [signedUnits_natCast, Int.one_mul]
  rw [value, power, signed, multiple]
  push_cast
  rw [mul_div_assoc, mul_div_assoc]

theorem isNaN_of_isFinite {x : Number} (finite : x.isFinite = true) : x.isNaN = false := by
  simp only [isFinite, isNaN, decide_eq_true_eq, decide_eq_false_iff_not] at *
  omega

/-- Finite numbers compare as their values do. -/
theorem less_iff {x y : Number} (first : x.isFinite = true) (second : y.isFinite = true) :
    x.less y = true ↔ x.value < y.value := by
  rw [less, isNaN_of_isFinite first, isNaN_of_isFinite second, value_eq, value_eq]
  simp only [Bool.not_false, Bool.true_and, decide_eq_true_eq]
  rw [div_lt_div_iff_of_pos_right (by positivity), Int.cast_lt, signedUnits_lt_iff]

theorem lessEqual_iff {x y : Number} (first : x.isFinite = true) (second : y.isFinite = true) :
    x.lessEqual y = true ↔ x.value ≤ y.value := by
  rw [lessEqual, isNaN_of_isFinite first, isNaN_of_isFinite second, value_eq, value_eq]
  simp only [Bool.not_false, Bool.true_and, decide_eq_true_eq]
  rw [div_le_div_iff_of_pos_right (by positivity), Int.cast_le, signedUnits_le_iff]

/-! ### Integers -/

def isInfinite (x : Number) : Bool :=
  x.magnitude == infiniteMagnitude

theorem isFinite_eq_false_iff (x : Number) :
    x.isFinite = false ↔ x.isNaN = true ∨ x.isInfinite = true := by
  simp only [isFinite, isNaN, isInfinite, decide_eq_true_eq, decide_eq_false_iff_not, beq_iff_eq]
  omega

/-- The number is an integer: it is finite and has its value. -/
def Represents (x : Number) (n : Int) : Prop :=
  x.isFinite = true ∧ x.value = n

theorem Represents.unique {x : Number} {m n : Int} (first : x.Represents m)
    (second : x.Represents n) : m = n := by
  exact_mod_cast first.2.symm.trans second.2

/-- Both zeros are the integer zero. -/
theorem represents_zero {x : Number} (zero : x.magnitude = 0) : x.Represents 0 := by
  have significand : x.significand = 0 := by
    rw [Number.significand, zero]
    rfl
  refine ⟨decide_eq_true (by rw [zero]; decide), ?_⟩
  rw [value, significand, Nat.cast_zero, zero_mul, mul_zero, Int.cast_zero]

/-- What is no integer is not finite or is between two of them. -/
theorem never_represents_iff (x : Number) :
    (∀ n, ¬x.Represents n) ↔
      x.isNaN = true ∨ x.isInfinite = true ∨ x.isFinite = true ∧ ∀ n : Int, x.value ≠ n := by
  rw [← or_assoc, ← isFinite_eq_false_iff]
  cases finite : x.isFinite <;> simp [Represents, finite]

/-! ### Natural numbers -/

theorem magnitude_ofBits {bits : Nat} (positive : bits < signUnit) :
    (Number.mk (.ofNat bits)).magnitude = bits ∧ (Number.mk (.ofNat bits)).rank = bits := by
  have kept : (UInt64.ofNat bits).toNat = bits := by
    rw [UInt64.toNat_ofNat']
    exact Nat.mod_eq_of_lt (positive.trans (by decide))
  have below : (Number.mk (.ofNat bits)).magnitude = bits := by
    rw [magnitude, kept, Nat.mod_eq_of_lt positive]
  refine ⟨below, ?_⟩
  rw [rank, below, isNegative, kept, decide_eq_false (Nat.not_le.mpr positive)]
  rfl

/-- The significand of a natural number is shifted until it has 53 bits. -/
private theorem ofNat_shifted {n : Nat} (positive : n ≠ 0) (short : n.log2 ≤ 52) :
    ∃ fraction, fraction < exponentUnit ∧
      ofNat n = ⟨.ofNat ((n.log2 + 1022 + 1) * exponentUnit + fraction)⟩ ∧
      fraction + exponentUnit = n * 2 ^ (52 - n.log2) := by
  have unit : exponentUnit = 2 ^ n.log2 * 2 ^ (52 - n.log2) := by
    rw [← Nat.pow_add, Nat.add_sub_cancel' short]
    rfl
  have low : exponentUnit ≤ n * 2 ^ (52 - n.log2) := by
    rw [unit]
    exact Nat.mul_le_mul_right _ (Nat.log2_self_le positive)
  have high : n * 2 ^ (52 - n.log2) < 2 * exponentUnit := by
    rw [unit, ← Nat.mul_assoc, ← Nat.pow_succ']
    exact Nat.mul_lt_mul_of_pos_right Nat.lt_log2_self (Nat.two_pow_pos _)
  refine ⟨n * 2 ^ (52 - n.log2) - exponentUnit, by omega, ?_, Nat.sub_add_cancel low⟩
  have ordinary : ¬1023 < n.log2 := by omega
  -- The leading one of the significand is added to the exponent.
  have carried : (n.log2 + 1022 + 1) * exponentUnit + (n * 2 ^ (52 - n.log2) - exponentUnit) =
      (n.log2 + 1022) * exponentUnit + n * 2 ^ (52 - n.log2) := by
    rw [Nat.succ_mul, Nat.add_assoc, Nat.add_sub_cancel' low]
  rw [carried]
  simp only [ofNat, positive, short, ordinary, if_true, if_false]
  rfl

/-- The number with an exponent and a fraction that are in their bounds. -/
private theorem value_of_fields {exponent fraction : Nat} (low : exponent ≤ 2045)
    (bound : fraction < exponentUnit) :
    let x : Number := ⟨.ofNat ((exponent + 1) * exponentUnit + fraction)⟩
    x.isFinite = true ∧
      x.value = ((fraction + exponentUnit) * 2 ^ exponent : Nat) / 2 ^ depth := by
  intro x
  have inside : (exponent + 1) * exponentUnit + fraction < infiniteMagnitude :=
    calc (exponent + 1) * exponentUnit + fraction
        < (exponent + 1) * exponentUnit + exponentUnit := Nat.add_lt_add_left bound _
      _ = (exponent + 2) * exponentUnit := (Nat.succ_mul _ _).symm
      _ ≤ infiniteMagnitude := Nat.mul_le_mul_right _ (by omega)
  have below : infiniteMagnitude ≤ signUnit := by decide
  obtain ⟨magnitude, rank⟩ := magnitude_ofBits (inside.trans_le below)
  refine ⟨decide_eq_true (by rw [magnitude]; exact inside), ?_⟩
  rw [value_eq, rank, signedUnits_natCast, units_fields _ bound, Int.cast_natCast]

/-- A shift of the significand and an exponent that make up the steps down to the least positive
number cancel out. -/
private theorem scaled_eq {exponent shift : Nat} (n : Nat) (steps : shift + exponent = depth) :
    ((n * 2 ^ shift * 2 ^ exponent : Nat) : ℚ) / 2 ^ depth = n := by
  rw [Nat.mul_assoc, ← Nat.pow_add, steps, Nat.cast_mul, Nat.cast_pow, Nat.cast_ofNat]
  exact mul_div_cancel_right₀ _ (pow_ne_zero _ two_ne_zero)

/-- Natural numbers up to 2 ^ 53 are numbers. -/
theorem represents_ofNat {n : Nat} (small : n ≤ 2 ^ 53) : (ofNat n).Represents n := by
  unfold Represents
  rw [Int.cast_natCast]
  rcases Nat.eq_zero_or_pos n with rfl | positive
  · exact represents_zero rfl
  rcases Nat.lt_or_eq_of_le small with short | rfl
  -- The significand holds all binary digits of a smaller number.
  · have places : n.log2 ≤ 52 := Nat.lt_succ_iff.mp ((Nat.log2_lt positive.ne').mpr short)
    obtain ⟨fraction, bound, bits, shifted⟩ := ofNat_shifted positive.ne' places
    have low : n.log2 + 1022 ≤ 2045 := by omega
    obtain ⟨finite, value⟩ := value_of_fields low bound
    rw [bits]
    refine ⟨finite, value.trans ?_⟩
    rw [shifted]
    exact scaled_eq n (by rw [depth]; omega)
  · -- 2 ^ 53 has one place more than a significand, and loses only a zero by rounding.
    have bits : ofNat (2 ^ 53) = ⟨.ofNat ((1 + depth + 1) * exponentUnit + 0)⟩ := by
      decide +kernel
    have low : 1 + depth ≤ 2045 := by decide
    obtain ⟨finite, value⟩ := value_of_fields low exponentUnit_pos
    have doubled : (0 + exponentUnit) * 2 ^ 1 = 2 ^ 53 * 2 ^ 0 := by decide
    rw [bits]
    refine ⟨finite, value.trans ?_⟩
    rw [Nat.pow_add 2 1, ← Nat.mul_assoc, doubled]
    have steps : 0 + depth = depth := Nat.zero_add depth
    rw [scaled_eq (2 ^ 53) steps]

/-! ### Fractions and positions -/

private theorem value_ofNat {x : Number} {places : Nat} (large : x.exponent = .ofNat places) :
    x.value = (x.sign * (x.significand * 2 ^ places : Nat) : Int) := by
  rw [value, large]
  push_cast
  rfl

private theorem value_negSucc {x : Number} {places : Nat} (small : x.exponent = .negSucc places) :
    x.value = (x.sign * x.significand : Int) / (2 ^ (places + 1) : Nat) := by
  rw [value, small, zpow_negSucc, ← mul_assoc, ← div_eq_mul_inv]
  push_cast
  rfl

private theorem natAbs_sign_mul (x : Number) (n : Nat) : (x.sign * n).natAbs = n := by
  unfold sign
  split <;> simp

theorem hasFraction_negSucc {x : Number} {places : Nat} (small : x.exponent = .negSucc places) :
    x.hasFraction = false ↔ 2 ^ (places + 1) ∣ x.significand := by
  unfold hasFraction
  rw [small, Nat.dvd_iff_mod_eq_zero]
  exact bne_eq_false_iff_eq

/-- A number without fractional part is its whole part, with its sign. -/
theorem value_of_whole {x : Number} (whole : x.hasFraction = false) :
    x.value = (x.sign * x.wholePart : Int) := by
  cases exponent : x.exponent with
  | ofNat places =>
    have part : x.wholePart = x.significand * 2 ^ places := by
      rw [wholePart, exponent]
      rfl
    rw [value_ofNat exponent, part]
  | negSucc places =>
    have part : x.wholePart = x.significand / 2 ^ (places + 1) := by
      rw [wholePart, exponent]
      rfl
    -- The power of two divides the significand, so that cutting off digits loses nothing.
    obtain ⟨quotient, product⟩ := (hasFraction_negSucc exponent).mp whole
    have positive : 0 < 2 ^ (places + 1) := Nat.two_pow_pos _
    rw [value_negSucc exponent, part, product, Nat.mul_div_cancel_left _ positive]
    push_cast
    field_simp

/-- The fractional part is what keeps a finite number from being an integer. -/
theorem hasFraction_eq_false_iff (x : Number) :
    x.hasFraction = false ↔ ∃ n : Int, x.value = n := by
  refine ⟨fun whole => ⟨_, value_of_whole whole⟩, ?_⟩
  rintro ⟨n, integral⟩
  cases exponent : x.exponent with
  | ofNat places =>
    rw [hasFraction, exponent]
  | negSucc places =>
    -- Multiplied out, the power of two divides the significand, whatever the sign.
    rw [value_negSucc exponent] at integral
    have scaled : x.sign * x.significand = n * (2 ^ (places + 1) : Nat) := by
      have positive : ((2 ^ (places + 1) : Nat) : ℚ) ≠ 0 := by positivity
      exact_mod_cast (div_eq_iff positive).mp integral
    rw [hasFraction_negSucc exponent]
    have absolute := congrArg Int.natAbs scaled
    rw [natAbs_sign_mul, Int.natAbs_mul, Int.natAbs_natCast] at absolute
    exact ⟨_, absolute.trans (Nat.mul_comm _ _)⟩

theorem Represents.hasFraction {x : Number} {n : Int} (integer : x.Represents n) :
    x.hasFraction = false :=
  (hasFraction_eq_false_iff x).mpr ⟨n, integer.2⟩

/-- Within their bounds natural numbers are positions. Negative zero is the first. -/
theorem Represents.toPosition {x : Number} {k : Nat} (integer : x.Represents k)
    (bound : k ≤ lastPosition) : x.toPosition = k := by
  have signed : x.sign * x.wholePart = k := by
    exact_mod_cast (value_of_whole integer.hasFraction).symm.trans integer.2
  rw [Number.toPosition, isNaN_of_isFinite integer.1, integer.1, Bool.false_or]
  unfold sign at signed
  cases negative : x.isNegative with
  | true =>
    -- A negative number that is not less than zero is zero.
    have first : k = 0 := by
      rw [negative, if_pos rfl] at signed
      omega
    rw [if_pos rfl, first]
  | false =>
    have whole : x.wholePart = k := by
      rw [negative, if_neg Bool.false_ne_true] at signed
      omega
    rw [if_neg Bool.false_ne_true, if_pos rfl, whole, Nat.min_eq_left bound]

end Weave.Number
