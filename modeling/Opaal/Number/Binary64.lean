import Mathlib.Algebra.Order.Floor.Ring
import Mathlib.Data.Rat.Floor
import Mathlib.Tactic.FieldSimp
import Mathlib.Tactic.Linarith
import Mathlib.Tactic.NormNum
import Mathlib.Tactic.Positivity

/-!
# IEEE 754 binary64 words and their exact values

A word is its 64 bits: a sign, an 11-bit exponent field and a 52-bit fraction.
Every word that is not a NaN counts units of `2 ^ -1074`, so values are compared
as integers; an infinity has more units than any finite word.  On finite words
`exact` is the dyadic rational the word stands for.
-/

namespace Opaal.Number

/-- A binary64 word. -/
structure Binary64 where
  bits : UInt64
deriving DecidableEq

namespace Binary64

variable {x y : Binary64}

def negative (x : Binary64) : Bool := 2 ^ 63 ≤ x.bits.toNat

def exponent (x : Binary64) : Nat := x.bits.toNat / 2 ^ 52 % 2 ^ 11

def fraction (x : Binary64) : Nat := x.bits.toNat % 2 ^ 52

def isFinite (x : Binary64) : Bool := x.exponent ≠ 2047

def isNaN (x : Binary64) : Bool := x.exponent = 2047 ∧ x.fraction ≠ 0

/-- The bits of `-0.0`. -/
def isNegativeZero (x : Binary64) : Bool := x.bits.toNat = 2 ^ 63

/-- How many units of `2 ^ -1074` the word is away from zero. -/
def magnitude (x : Binary64) : Nat :=
  if x.exponent = 0 then x.fraction else (2 ^ 52 + x.fraction) * 2 ^ (x.exponent - 1)

def units (x : Binary64) : Int := if x.negative then -x.magnitude else x.magnitude

/-- The number a finite word stands for. -/
def exact (x : Binary64) : ℚ := x.units / 2 ^ 1074

/-- The order of two words; a NaN has none. -/
def partialCmp (x y : Binary64) : Option Ordering :=
  if x.isNaN || y.isNaN then none else some (compare x.units y.units)

theorem fraction_lt (x : Binary64) : x.fraction < 2 ^ 52 := Nat.mod_lt _ (by decide)

/-- The fields determine the word. -/
theorem eq_of_fields (signs : x.negative = y.negative) (exponents : x.exponent = y.exponent)
    (fractions : x.fraction = y.fraction) : x = y := by
  have xBound := x.bits.toNat_lt
  have yBound := y.bits.toNat_lt
  simp only [negative, decide_eq_decide] at signs
  unfold exponent at exponents
  unfold fraction at fractions
  have words : x.bits.toNat = y.bits.toNat := by omega
  cases x
  cases y
  exact congrArg mk (UInt64.toNat_inj.mp words)

/-- Larger exponent fields mean more units. -/
theorem magnitude_lt_of_exponent_lt (below : x.exponent < y.exponent) : x.magnitude < y.magnitude := by
  have xFraction := fraction_lt x
  have yNormal : y.exponent ≠ 0 := by omega
  have yAtLeast : 2 ^ 52 * 2 ^ (y.exponent - 1) ≤ y.magnitude := by
    unfold magnitude
    rw [if_neg yNormal]
    exact Nat.mul_le_mul_right _ (Nat.le_add_right _ _)
  apply Nat.lt_of_lt_of_le _ yAtLeast
  unfold magnitude
  split
  · have one : 1 ≤ 2 ^ (y.exponent - 1) := Nat.one_le_two_pow
    omega
  · next xNormal =>
    calc (2 ^ 52 + x.fraction) * 2 ^ (x.exponent - 1)
        < (2 ^ 52 + 2 ^ 52) * 2 ^ (x.exponent - 1) := by
          apply Nat.mul_lt_mul_of_pos_right _ (Nat.two_pow_pos _)
          omega
      _ = 2 ^ 52 * 2 ^ x.exponent := by
          obtain ⟨lower, successor⟩ := Nat.exists_eq_succ_of_ne_zero xNormal
          rw [successor, Nat.succ_sub_one, Nat.pow_succ]
          omega
      _ ≤ 2 ^ 52 * 2 ^ (y.exponent - 1) := by
          apply Nat.mul_le_mul_left
          exact Nat.pow_le_pow_right (by decide) (by omega)

theorem exponent_eq_of_magnitude (same : x.magnitude = y.magnitude) : x.exponent = y.exponent := by
  rcases Nat.lt_trichotomy x.exponent y.exponent with below | equal | above
  · have := magnitude_lt_of_exponent_lt below
    omega
  · exact equal
  · have := magnitude_lt_of_exponent_lt above
    omega

theorem fraction_eq_of_magnitude (same : x.magnitude = y.magnitude) : x.fraction = y.fraction := by
  have exponents := exponent_eq_of_magnitude same
  unfold magnitude at same
  rw [exponents] at same
  split at same
  · exact same
  · have cancelled := Nat.eq_of_mul_eq_mul_right (Nat.two_pow_pos _) same
    omega

theorem magnitude_eq_zero_iff : x.magnitude = 0 ↔ x.exponent = 0 ∧ x.fraction = 0 := by
  unfold magnitude
  split
  · next subnormal => simp [subnormal]
  · next normal => simp [normal]

/-- Apart from negative zero, a word is known from its units. -/
theorem units_injective (xZero : x.isNegativeZero = false) (yZero : y.isNegativeZero = false)
    (same : x.units = y.units) : x = y := by
  have nonzero : ∀ {z : Binary64}, z.isNegativeZero = false → z.negative = true → z.magnitude ≠ 0 := by
    intro z zZero zNegative zUnits
    have zBound := z.bits.toNat_lt
    rw [magnitude_eq_zero_iff] at zUnits
    simp only [exponent, fraction] at zUnits
    simp only [isNegativeZero, decide_eq_false_iff_not] at zZero
    simp only [negative, decide_eq_true_eq] at zNegative
    omega
  have signs : x.negative = y.negative ∧ x.magnitude = y.magnitude := by
    unfold units at same
    cases xSign : x.negative <;> cases ySign : y.negative <;> simp only [xSign, ySign] at same
    · exact ⟨rfl, by simpa using same⟩
    · have := nonzero yZero ySign
      simp at same
      omega
    · have := nonzero xZero xSign
      simp at same
      omega
    · exact ⟨rfl, by simpa using same⟩
  exact eq_of_fields signs.1 (exponent_eq_of_magnitude signs.2) (fraction_eq_of_magnitude signs.2)

theorem exact_le_iff : x.exact ≤ y.exact ↔ x.units ≤ y.units := by
  unfold exact
  rw [div_le_div_iff_of_pos_right (by positivity)]
  exact Int.cast_le

theorem exact_lt_iff : x.exact < y.exact ↔ x.units < y.units := by
  rw [← not_le, ← not_le, exact_le_iff]

/-- Comparing units compares exact values. -/
theorem compare_units : compare x.units y.units = compare x.exact y.exact := by
  rcases lt_trichotomy x.units y.units with below | equal | above
  · rw [compare_lt_iff_lt.mpr below, compare_lt_iff_lt.mpr (exact_lt_iff.mpr below)]
  · have values : x.exact = y.exact := by unfold exact; rw [equal]
    rw [compare_eq_iff_eq.mpr equal, compare_eq_iff_eq.mpr values]
  · rw [compare_gt_iff_gt.mpr above, compare_gt_iff_gt.mpr (exact_lt_iff.mpr above)]

/-! ## Truncation

Dropping a word's fraction, and subtracting what is left, are exact: both results are
words again, so no rounding happens in either. -/

/-- The word with the given sign and fields. -/
def ofFields (sign : Bool) (exponent fraction : Nat) : Binary64 :=
  ⟨UInt64.ofNat ((if sign then 2 ^ 63 else 0) + exponent * 2 ^ 52 + fraction)⟩

/-- The fields of a word built from fields. -/
theorem ofFields_reads (sign : Bool) {exponent fraction : Nat} (small : exponent < 2 ^ 11)
    (short : fraction < 2 ^ 52) :
    (ofFields sign exponent fraction).exponent = exponent ∧
      (ofFields sign exponent fraction).fraction = fraction ∧
      (ofFields sign exponent fraction).negative = sign := by
  have word : (ofFields sign exponent fraction).bits.toNat =
      (if sign then 2 ^ 63 else 0) + exponent * 2 ^ 52 + fraction := by
    unfold ofFields
    rw [UInt64.toNat_ofNat']
    apply Nat.mod_eq_of_lt
    split <;> omega
  unfold Binary64.exponent Binary64.fraction negative
  rw [word]
  cases sign
  · simp only [Bool.false_eq_true, ↓reduceIte, decide_eq_false_iff_not]
    omega
  · simp only [↓reduceIte, decide_eq_true_eq]
    omega

end Binary64

/-- The integer part of a number, toward zero. -/
def truncate (number : ℚ) : Int := if 0 ≤ number then ⌊number⌋ else ⌈number⌉

/-- What `truncate` drops, with the sign of the number. -/
def fractional (number : ℚ) : ℚ := number - truncate number

/-- The conversion to a signed integer of `width` bits: toward zero, ending at the
last integer of the type. -/
def saturate (width : Nat) (number : ℚ) : Int :=
  max (-2 ^ (width - 1)) (min (2 ^ (width - 1) - 1) (truncate number))

/-- What is cut off points the way the number does, and is less than one. -/
theorem truncate_bounds (number : ℚ) :
    (0 ≤ number → (truncate number : ℚ) ≤ number ∧ number < truncate number + 1) ∧
      (number < 0 → number ≤ truncate number ∧ (truncate number : ℚ) - 1 < number) := by
  unfold truncate
  constructor
  · intro nonneg
    rw [if_pos nonneg]
    exact ⟨Int.floor_le number, Int.lt_floor_add_one number⟩
  · intro below
    rw [if_neg (not_le.mpr below)]
    have upper := Int.ceil_lt_add_one number
    exact ⟨Int.le_ceil number, by linarith⟩

theorem truncate_intCast (number : Int) : truncate number = number := by
  unfold truncate
  split <;> simp

namespace Binary64

variable {x : Binary64}

end Binary64

end Opaal.Number
