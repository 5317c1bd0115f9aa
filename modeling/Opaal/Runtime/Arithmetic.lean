import Opaal.Runtime.Operation

/-!
# Division and remainder

The two quotient operators of the language on numeric values.  Integers are divided by the
machine's truncating instructions and corrected to the floored result; one pair of integers is
outside what the remainder instruction can do.  The arithmetic of doubles is the platform's, so
it is a parameter.
-/

namespace Opaal.Runtime.Arithmetic

open Opaal.Number (Binary64)
open Int64

/-- The operations on doubles the two operators use. -/
structure FloatArithmetic where
  ofInt : Int64 → Binary64
  divide : Binary64 → Binary64 → Binary64
  multiply : Binary64 → Binary64 → Binary64
  subtract : Binary64 → Binary64 → Binary64
  floor : Binary64 → Binary64

variable {F C : Type}

/-- A binary numeric operand pair after promotion. -/
inductive Numeric where
  | ints (left right : Int64)
  | floats (left right : Binary64)
deriving DecidableEq

def numericPair (floats : FloatArithmetic) (operator : String) (left right : Value F C) :
    Except OperationFailure Numeric :=
  match left, right with
  | .int a, .int b => .ok (.ints a b)
  | .int a, .float b => .ok (.floats (floats.ofInt a) b.get)
  | .float a, .int b => .ok (.floats a.get (floats.ofInt b))
  | .float a, .float b => .ok (.floats a.get b.get)
  | left, right => .error (.rejected (unsupported operator [left, right]))

def floatValue (value : Binary64) : Except OperationFailure (Value F C) :=
  match FiniteFloat.new value with
  | .ok float => .ok (.float float)
  | .error _ => .error (.rejected .nonFiniteFloat)

/-! ## Machine integers -/

/-- The truncated quotient of two 64-bit integers does not fit. -/
def divisionOverflows (a b : Int64) : Bool := a = minValue ∧ b = -1

/-- `a.checked_div(b)`. -/
def checkedDiv (a b : Int64) : Option Int64 := if b = 0 ∨ divisionOverflows a b then none else some (a / b)

/-- `a % b`: the instruction refuses every pair whose quotient it cannot form. -/
def machineRemainder (a b : Int64) : Except OperationFailure Int64 :=
  if b = 0 then .error (.panicked "attempt to calculate the remainder with a divisor of zero")
  else if divisionOverflows a b then .error (.panicked "attempt to calculate the remainder with overflow")
  else .ok (a % b)

/-- `quotient.checked_sub(1)`. -/
def checkedPred (quotient : Int64) : Option Int64 := if quotient = minValue then none else some (quotient - 1)

/-- The remainder is on the wrong side of the divisor. -/
def crosses (remainder b : Int64) : Bool := remainder ≠ 0 ∧ (decide (remainder < 0) ≠ decide (b < 0))

def flooredDiv (a b : Int64) : Except OperationFailure Int64 :=
  if b = 0 then .error (.rejected (.divisionByZero "/"))
  else
    match checkedDiv a b with
    | none => .error (.rejected (.integerOverflow "/"))
    | some quotient => do
      let remainder ← machineRemainder a b
      if crosses remainder b then
        match checkedPred quotient with
        | none => .error (.rejected (.integerOverflow "/"))
        | some quotient => .ok quotient
      else .ok quotient

def flooredRem (a b : Int64) : Except OperationFailure Int64 :=
  if b = 0 then .error (.rejected (.divisionByZero "%"))
  else do
    let remainder ← machineRemainder a b
    if crosses remainder b then .ok (remainder + b) else .ok remainder

/-! ## The operators -/

/-- Divides the left numeric value by the right, flooring integer results. -/
def divide (floats : FloatArithmetic) (left right : Value F C) :
    Except OperationFailure (Value F C) := do
  match ← numericPair floats "/" left right with
  | .ints a b => return .int (← flooredDiv a b)
  | .floats a b =>
    if b.partialCmp ⟨0⟩ = some .eq then .error (.rejected (.divisionByZero "/"))
    else floatValue (floats.divide a b)

/-- Computes the floored remainder of the left value by the right. -/
def remainder (floats : FloatArithmetic) (left right : Value F C) :
    Except OperationFailure (Value F C) := do
  match ← numericPair floats "%" left right with
  | .ints a b => return .int (← flooredRem a b)
  | .floats a b =>
    if b.partialCmp ⟨0⟩ = some .eq then .error (.rejected (.divisionByZero "%"))
    else floatValue (floats.subtract a (floats.multiply b (floats.floor (floats.divide a b))))

/-! ## Floored division of integers -/

/-- A remainder of the divisor's sign, or none at all. -/
def SignOf (remainder divisor : Int) : Prop :=
  remainder = 0 ∨ (0 < remainder ∧ 0 < divisor) ∨ (remainder < 0 ∧ divisor < 0)

/-- Floored division determines its quotient and its remainder. -/
theorem floored_unique {a b q r : Int} (divisor : b ≠ 0) (parts : a = b * q + r) (small : r.natAbs < b.natAbs)
    (sign : SignOf r b) : q = a.fdiv b ∧ r = a.fmod b := by
  have whole := Int.mul_fdiv_add_fmod a b
  have quotient : q = a.fdiv b := by
    unfold SignOf at sign
    rcases Int.lt_or_gt_of_ne divisor with negative | positive
    · have above : b < r := by omega
      rw [parts, Int.add_comm, Int.add_mul_fdiv_left r q divisor]
      have cut : r.fdiv b = 0 := by
        rw [← Int.neg_fdiv_neg, Int.fdiv_eq_ediv_of_nonneg _ (by omega)]
        exact Int.ediv_eq_zero_of_lt (by omega) (by omega)
      omega
    · have nonnegative : 0 ≤ r := by omega
      have below : r < b := by omega
      rw [parts, Int.add_comm, Int.add_mul_fdiv_left r q divisor, Int.fdiv_eq_ediv_of_nonneg _ (by omega),
        Int.ediv_eq_zero_of_lt nonnegative below]
      omega
  refine ⟨quotient, ?_⟩
  rw [quotient] at parts
  omega

/-- The parts the truncating instructions form. -/
theorem truncated_parts {a b : Int} (divisor : b ≠ 0) :
    a = b * a.tdiv b + a.tmod b ∧ (a.tmod b).natAbs < b.natAbs ∧
      (a.tmod b = 0 ∨ (0 < a.tmod b ∧ 0 < a) ∨ (a.tmod b < 0 ∧ a < 0)) := by
  refine ⟨(Int.mul_tdiv_add_tmod a b).symm, ?_, ?_⟩
  · rw [Int.natAbs_tmod]
    exact Nat.mod_lt _ (by omega)
  · rcases Int.lt_trichotomy a 0 with negative | zero | positive
    · have nonpositive : 0 ≤ (-a).tmod b := Int.tmod_nonneg b (by omega)
      rw [Int.neg_tmod] at nonpositive
      omega
    · rw [zero, Int.zero_tmod]
      exact .inl rfl
    · have nonnegative : 0 ≤ a.tmod b := Int.tmod_nonneg b (by omega)
      omega

/-! ## The corrected instructions -/

variable {a b : Int64}

theorem toInt_ne_zero (divisor : b ≠ 0) : b.toInt ≠ 0 := by
  intro zero
  exact divisor (toInt_inj.mp zero)

theorem crosses_iff {remainder : Int64} : crosses remainder b = true ↔
    remainder.toInt ≠ 0 ∧ ¬(remainder.toInt < 0 ↔ b.toInt < 0) := by
  have zero : remainder = 0 ↔ remainder.toInt = 0 := by
    rw [← toInt_inj]
    rfl
  have remainderSign : remainder < 0 ↔ remainder.toInt < 0 := Int64.lt_iff_toInt_lt
  have divisorSign : b < 0 ↔ b.toInt < 0 := Int64.lt_iff_toInt_lt
  unfold crosses
  rw [decide_eq_true_eq, ne_eq, ne_eq, zero, decide_eq_decide, remainderSign, divisorSign]

theorem not_overflows (fits : divisionOverflows a b = false) : a ≠ minValue ∨ b ≠ -1 := by
  unfold divisionOverflows at fits
  rw [decide_eq_false_iff_not] at fits
  by_cases least : a = minValue
  · exact .inr fun minusOne => fits ⟨least, minusOne⟩
  · exact .inl least

theorem toInt_quotient (fits : divisionOverflows a b = false) : (a / b).toInt = a.toInt.tdiv b.toInt := by
  rcases not_overflows fits with least | minusOne
  · exact Int64.toInt_div_of_ne_left a b least
  · exact Int64.toInt_div_of_ne_right a b minusOne

section

variable (divisor : b ≠ 0) (fits : divisionOverflows a b = false)
include divisor fits

theorem machineRemainder_eq :
    machineRemainder a b = .ok (a % b) := by
  unfold machineRemainder
  rw [if_neg divisor, if_neg (by simp [fits])]

/-- What the correction of a remainder comes to. -/
theorem flooredRem_eq :
    ∃ r, flooredRem a b = .ok r ∧ r.toInt = a.toInt.fmod b.toInt := by
  have nonzero := toInt_ne_zero divisor
  obtain ⟨parts, small, sign⟩ := truncated_parts (a := a.toInt) nonzero
  have truncated := toInt_mod a b
  have range := b.le_toInt
  have range' := b.toInt_lt
  unfold flooredRem
  rw [if_neg divisor, machineRemainder_eq divisor fits]
  by_cases corrected : crosses (a % b) b = true
  · refine ⟨a % b + b, by simp [bind, Except.bind, corrected], ?_⟩
    obtain ⟨rest, apart⟩ := crosses_iff.mp corrected
    have sum : (a % b + b).toInt = a.toInt.tmod b.toInt + b.toInt := by
      rw [Int64.toInt_add, truncated]
      exact Int.bmod_eq_of_le_mul_two (by omega) (by omega)
    rw [sum]
    have law : a.toInt = b.toInt * (a.toInt.tdiv b.toInt - 1) + (a.toInt.tmod b.toInt + b.toInt) := by
      rw [Int.mul_sub, Int.mul_one]
      omega
    exact (floored_unique nonzero law (by omega) (by unfold SignOf; omega)).2
  · refine ⟨a % b, by simp [bind, Except.bind, corrected], ?_⟩
    rw [crosses_iff, truncated] at corrected
    rw [truncated]
    exact (floored_unique nonzero parts small (by unfold SignOf; omega)).2

/-- What the correction of a quotient comes to. -/
theorem flooredDiv_eq :
    ∃ q, flooredDiv a b = .ok q ∧ q.toInt = a.toInt.fdiv b.toInt := by
  have nonzero := toInt_ne_zero divisor
  obtain ⟨parts, small, sign⟩ := truncated_parts (a := a.toInt) nonzero
  have truncated := toInt_mod a b
  have quotient := toInt_quotient fits
  have checked : checkedDiv a b = some (a / b) := by
    unfold checkedDiv
    rw [if_neg (by simp [divisor, fits])]
  unfold flooredDiv
  rw [if_neg divisor, checked, machineRemainder_eq divisor fits]
  by_cases corrected : crosses (a % b) b = true
  · obtain ⟨rest, apart⟩ := crosses_iff.mp corrected
    -- Only a divisor of one reaches the least quotient, and it leaves no remainder.
    have bounded : -2 ^ 63 < (a / b).toInt := by
      by_contra reached
      have magnitude : (a.toInt.tdiv b.toInt).natAbs = a.toInt.natAbs / b.toInt.natAbs := Int.natAbs_tdiv _ _
      have dividend := a.le_toInt
      have dividend' := a.toInt_lt
      have unit : b.toInt.natAbs = 1 := by
        by_contra larger
        have two : 2 ≤ b.toInt.natAbs := by omega
        have half : a.toInt.natAbs / b.toInt.natAbs ≤ a.toInt.natAbs / 2 := Nat.div_le_div_left two (by omega)
        omega
      omega
    have distinct : ¬a / b = minValue := by
      intro least
      rw [least, Int64.toInt_minValue] at bounded
      omega
    have pred : checkedPred (a / b) = some (a / b - 1) := by
      unfold checkedPred
      rw [if_neg distinct]
    refine ⟨a / b - 1, by simp [bind, Except.bind, corrected, pred], ?_⟩
    have difference : (a / b - 1).toInt = a.toInt.tdiv b.toInt - 1 := by
      have upper := (a / b).toInt_lt
      have least : (1 : Int64).toInt = 1 := rfl
      rw [Int64.toInt_sub, least, ← quotient]
      exact Int.bmod_eq_of_le_mul_two (by omega) (by omega)
    rw [difference]
    have law : a.toInt = b.toInt * (a.toInt.tdiv b.toInt - 1) + (a.toInt.tmod b.toInt + b.toInt) := by
      rw [Int.mul_sub, Int.mul_one]
      omega
    exact (floored_unique nonzero law (by omega) (by unfold SignOf; omega)).1
  · refine ⟨a / b, by simp [bind, Except.bind, corrected], ?_⟩
    rw [crosses_iff, truncated] at corrected
    rw [quotient]
    exact (floored_unique nonzero parts small (by unfold SignOf; omega)).1

end

/-! ## The law -/

/-- The evaluation is given up without a result or an error. -/
def Aborts {α : Type} (result : Except OperationFailure α) : Prop := ∃ message, result = .error (.panicked message)

def Refuses {α : Type} (result : Except OperationFailure α) : Prop := ∃ error, result = .error (.rejected error)

/-- A number a 64-bit integer can hold. -/
def Representable (number : Int) : Prop := -2 ^ 63 ≤ number ∧ number < 2 ^ 63

/-- The law of floored division for what the two operators answer on one pair of integers. -/
structure FlooredDivision (quotient remainder : Except OperationFailure (Value F C)) (a b : Int64) :
    Prop where
  returns : ¬Aborts quotient ∧ ¬Aborts remainder
  refuses : Refuses quotient ∨ Refuses remainder → b = 0 ∨ ¬Representable (a.toInt.fdiv b.toInt)
  law : ∀ {q r}, quotient = .ok q → remainder = .ok r → ∃ m n : Int64, q = .int m ∧ r = .int n ∧
    a.toInt = b.toInt * m.toInt + n.toInt ∧ n.toInt.natAbs < b.toInt.natAbs ∧ SignOf n.toInt b.toInt
  minusOne : b = -1 → remainder = .ok (.int 0)

theorem divide_int (floats : FloatArithmetic) (a b : Int64) :
    (divide floats (.int a) (.int b) : Except OperationFailure (Value F C)) =
      (flooredDiv a b).map .int := by
  show (flooredDiv a b >>= fun quotient => pure (Value.int quotient)) = (flooredDiv a b).map Value.int
  cases flooredDiv a b with
  | ok | error => rfl

theorem remainder_int (floats : FloatArithmetic) (a b : Int64) :
    (remainder floats (.int a) (.int b) : Except OperationFailure (Value F C)) =
      (flooredRem a b).map .int := by
  show (flooredRem a b >>= fun rest => pure (Value.int rest)) = (flooredRem a b).map Value.int
  cases flooredRem a b with
  | ok | error => rfl

theorem not_aborts_ok {α : Type} (value : α) : ¬Aborts (.ok value : Except OperationFailure α) := by
  rintro ⟨message, impossible⟩
  contradiction

theorem not_refuses_ok {α : Type} (value : α) : ¬Refuses (.ok value : Except OperationFailure α) := by
  rintro ⟨error, impossible⟩
  contradiction

/-- The parts of floored division are as the law wants them. -/
theorem floored_parts {a b : Int} (divisor : b ≠ 0) :
    a = b * a.fdiv b + a.fmod b ∧ (a.fmod b).natAbs < b.natAbs ∧ SignOf (a.fmod b) b := by
  refine ⟨(Int.mul_fdiv_add_fmod a b).symm, ?_⟩
  unfold SignOf
  rcases Int.lt_or_gt_of_ne divisor with negative | positive
  · have mirrored := Int.neg_fmod_neg a b
    have lower := Int.fmod_nonneg_of_pos (-a) (b := -b) (by omega)
    have upper := Int.fmod_lt_of_pos (-a) (b := -b) (by omega)
    omega
  · have lower := Int.fmod_nonneg_of_pos a positive
    have upper := Int.fmod_lt_of_pos a positive
    omega

/-- The operators keep the law of floored division on every pair of integers but one: at the least
integer and `-1` the remainder instruction aborts the evaluation. -/
theorem division_floored_iff (floats : FloatArithmetic) (a b : Int64) :
    FlooredDivision (divide floats (.int a) (.int b) : Except OperationFailure (Value F C))
        (remainder floats (.int a) (.int b)) a b ↔ ¬(a = minValue ∧ b = -1) := by
  rw [divide_int, remainder_int]
  constructor
  · rintro kept ⟨rfl, rfl⟩
    exact kept.returns.2 ⟨_, rfl⟩
  · intro apart
    by_cases divisor : b = 0
    · subst divisor
      have quotient : flooredDiv a 0 = .error (.rejected (.divisionByZero "/")) := rfl
      have rest : flooredRem a 0 = .error (.rejected (.divisionByZero "%")) := rfl
      constructor
      · constructor
        all_goals
          rintro ⟨message, impossible⟩
          cases impossible
      · intro _
        exact .inl rfl
      · intro q r impossible
        contradiction
      · intro impossible
        contradiction
    · have fits : divisionOverflows a b = false := by
        unfold divisionOverflows
        rw [decide_eq_false_iff_not]
        exact apart
      obtain ⟨m, quotient, whole⟩ := flooredDiv_eq divisor fits
      obtain ⟨n, rest, part⟩ := flooredRem_eq divisor fits
      rw [quotient, rest]
      constructor
      · exact ⟨not_aborts_ok _, not_aborts_ok _⟩
      · rintro (refused | refused)
        all_goals exact absurd refused (not_refuses_ok _)
      · intro q r divided remained
        cases divided
        cases remained
        refine ⟨m, n, rfl, rfl, ?_⟩
        rw [whole, part]
        exact floored_parts (toInt_ne_zero divisor)
      · rintro rfl
        have zero : n = 0 := by
          apply toInt_inj.mp
          rw [part]
          have small := (floored_parts (a := a.toInt) (b := -1) (by decide)).2.1
          show a.toInt.fmod (-1) = 0
          omega
        rw [zero]
        rfl

/-- The least integer is not divisible by `-1` without aborting. -/
theorem least_by_minusOne : ¬∀ (floats : FloatArithmetic) (a b : Int64),
    FlooredDivision (divide floats (.int a) (.int b) : Except OperationFailure (Value Unit Unit))
      (remainder floats (.int a) (.int b)) a b := by
  intro always
  let floats : FloatArithmetic := ⟨fun _ => ⟨0⟩, fun a _ => a, fun a _ => a, fun a _ => a, fun a => a⟩
  exact (always floats minValue (-1)).returns.2 ⟨"attempt to calculate the remainder with overflow", rfl⟩

end Opaal.Runtime.Arithmetic
