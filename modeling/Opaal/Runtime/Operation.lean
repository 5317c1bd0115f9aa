import Opaal.Order.Composition
import Opaal.Runtime.Value

/-!
# Ordering of values

The comparison behind `<`, `<=`, `>` and `>=`: numbers by their exact value, text,
bytes and paths by their bytes, durations and sizes, and lists element by element.
Every other pair of values has no order.
-/

namespace Opaal.Runtime

open Opaal.Number
open Opaal.Order (Composes composes_compare lexicographic lexicographic_swap lexicographic_composes
  lexicographic_eq_iff)

/-- A rejected operation on values. -/
inductive OperationError where
  | unsupportedOperands (operator : String) (operands : List String)
  | integerOverflow (operator : String)
  | nonFiniteFloat
  | divisionByZero (operator : String)
  | noMatchingOverload (operation input : String)
  | lengthOverflow (operation : String)
deriving DecidableEq

/-- Why an operation gives no result: it reports an error, or an expectation of the
code fails. -/
inductive OperationFailure where
  | rejected (error : OperationError)
  | panicked (message : String)
deriving DecidableEq

variable {F C : Type}

def unsupported (operator : String) (operands : List (Value F C)) : OperationError :=
  .unsupportedOperands operator (operands.map Value.familyName)

/-- Compares an integer to a finite float without a lossy cast.  `float` is the exact
value of the double; the two bounds, the integer part and the difference are exact
there too (`Binary64.exists_truncated`, `Binary64.exists_fractional`). -/
def compareIntFloat (integer : Int64) (float : ℚ) : Ordering :=
  if 2 ^ 63 ≤ float then .lt
  else if float < -2 ^ 63 then .gt
  else
    match compare integer.toInt (saturate 128 (truncate float)) with
    | .eq =>
      let fraction := fractional float
      if 0 < fraction then .lt else if fraction < 0 then .gt else .eq
    | other => other

/-- The bytes text is compared by. -/
def utf8 (text : String) : List UInt8 := text.toByteArray.data.toList

mutual

/-- Compares two values within the ordering domains. -/
def order : Value F C → Value F C → Except OperationFailure Ordering
  | .int a, .int b => .ok (compare a.toInt b.toInt)
  | .int a, .float b => .ok (compareIntFloat a b.get.exact)
  | .float a, .int b => .ok (compareIntFloat b a.get.exact).swap
  | .float a, .float b =>
    match a.get.partialCmp b.get with
    | some ordering => .ok ordering
    | none => .error (.panicked "finite floats are totally ordered")
  | .string a, .string b => .ok (compare (utf8 a) (utf8 b))
  | .bytes a, .bytes b => .ok (compare a b)
  | .path a, .path b => .ok (compare a.bytes b.bytes)
  | .duration a, .duration b => .ok (compare a.nanoseconds b.nanoseconds)
  | .byteSize a, .byteSize b => .ok (compare a.bytes.toNat b.bytes.toNat)
  | .list a, .list b => orderLists a b
  | left, right => .error (.rejected (unsupported "<" [left, right]))

/-- Element by element while both lists last, then by length. -/
def orderLists : List (Value F C) → List (Value F C) →
    Except OperationFailure Ordering
  | a :: left, b :: right =>
    match order a b with
    | .ok .eq => orderLists left right
    | other => other
  | left, right => .ok (compare left.length right.length)

end

/-! ## What values are compared by -/

theorem int64_lower (integer : Int64) : -2 ^ 63 ≤ integer.toInt := integer.le_toInt

theorem int64_upper (integer : Int64) : integer.toInt < 2 ^ 63 := integer.toInt_lt

/-- Saturation is not seen from inside the range. -/
theorem saturate_eq_iff {number : ℚ} {integer : Int64} :
    saturate 128 number = integer.toInt ↔ truncate number = integer.toInt := by
  have lower := int64_lower integer
  have upper := int64_upper integer
  unfold saturate
  norm_num only at lower upper ⊢
  omega

/-- Between the two bounds of the comparison the integer part fits. -/
theorem saturate_truncate {float : ℚ} (notAbove : ¬2 ^ 63 ≤ float) (notBelow : ¬float < -2 ^ 63) :
    saturate 128 (truncate float : ℚ) = truncate float := by
  obtain ⟨nonneg, negative⟩ := Opaal.Number.truncate_bounds float
  have bounds : (-2 ^ 63 - 1 : ℚ) < truncate float ∧ (truncate float : ℚ) < 2 ^ 63 + 1 := by
    rcases le_or_gt 0 float with sign | sign
    · have := nonneg sign
      constructor <;> linarith
    · have := negative sign
      constructor <;> linarith
  have lower : (-2 ^ 63 - 1 : Int) < truncate float := by exact_mod_cast bounds.1
  have upper : truncate float < (2 ^ 63 + 1 : Int) := by exact_mod_cast bounds.2
  unfold saturate
  rw [Opaal.Number.truncate_intCast]
  norm_num only at lower upper ⊢
  omega

/-- An integer below the integer part is below the number, and the other way round. -/
theorem compare_of_truncate_ne {float : ℚ} {integer : Int} (different : integer ≠ truncate float) :
    compare integer (truncate float) = compare (integer : ℚ) float := by
  obtain ⟨nonneg, negative⟩ := Opaal.Number.truncate_bounds float
  rcases lt_or_gt_of_ne different with below | above
  · have step : (integer : ℚ) + 1 ≤ truncate float := by exact_mod_cast below
    rw [Int.compare_eq_lt.mpr below]
    symm
    apply compare_lt_iff_lt.mpr
    rcases le_or_gt 0 float with sign | sign
    · have := nonneg sign
      linarith
    · have := negative sign
      linarith
  · have step : (truncate float : ℚ) + 1 ≤ integer := by exact_mod_cast above
    rw [Int.compare_eq_gt.mpr above]
    symm
    apply compare_gt_iff_gt.mpr
    rcases le_or_gt 0 float with sign | sign
    · have := nonneg sign
      linarith
    · have := negative sign
      linarith

/-- The comparison is that of the exact values. -/
theorem compareIntFloat_eq (integer : Int64) (float : ℚ) :
    compareIntFloat integer float = compare (integer.toInt : ℚ) float := by
  have lower : (-2 ^ 63 : ℚ) ≤ integer.toInt := by exact_mod_cast int64_lower integer
  have upper : (integer.toInt : ℚ) < 2 ^ 63 := by exact_mod_cast int64_upper integer
  unfold compareIntFloat
  split
  · next above => exact (compare_lt_iff_lt.mpr (lt_of_lt_of_le upper above)).symm
  split
  · next below => exact (compare_gt_iff_gt.mpr (lt_of_lt_of_le below lower)).symm
  next notAbove notBelow =>
  rw [saturate_truncate notAbove notBelow]
  by_cases equal : integer.toInt = truncate float
  · -- The integer is the integer part, so what was cut off decides.
    rw [Int.compare_eq_eq.mpr equal, equal]
    unfold fractional
    simp only
    split
    · symm
      apply compare_lt_iff_lt.mpr
      linarith
    split
    · symm
      apply compare_gt_iff_gt.mpr
      linarith
    · symm
      apply compare_eq_iff_eq.mpr
      linarith
  · rw [← compare_of_truncate_ne equal]
    cases decided : compare integer.toInt (truncate float) with
    | eq => exact absurd (Int.compare_eq_eq.mp decided) equal
    | lt | gt => rfl

theorem intFloatEqual_iff {integer : Int64} {float : FiniteFloat} :
    intFloatEqual integer float = true ↔ (integer.toInt : ℚ) = float.get.exact := by
  unfold intFloatEqual
  rw [decide_eq_true_eq, saturate_eq_iff]
  constructor
  · intro equal
    have rest := equal.1
    unfold fractional at rest
    rw [← equal.2]
    linarith
  · intro equal
    unfold fractional
    rw [← equal, Opaal.Number.truncate_intCast]
    exact ⟨sub_self _, rfl⟩

/-- What a value outside a list is compared by: its domain and its place there. -/
inductive Measure where
  | number (exact : ℚ)
  | text (utf8 : List UInt8)
  | bytes (bytes : List UInt8)
  | path (bytes : List UInt8)
  | duration (nanoseconds : Int)
  | byteSize (bytes : Nat)

def Value.measure : Value F C → Option Measure
  | .int value => some (.number value.toInt)
  | .float value => some (.number value.get.exact)
  | .string value => some (.text (utf8 value))
  | .bytes value => some (.bytes value)
  | .path value => some (.path value.bytes)
  | .duration value => some (.duration value.nanoseconds)
  | .byteSize value => some (.byteSize value.bytes.toNat)
  | _ => none

def Measure.compare : Measure → Measure → Option Ordering
  | .number a, .number b => some (Ord.compare a b)
  | .text a, .text b => some (Ord.compare a b)
  | .bytes a, .bytes b => some (Ord.compare a b)
  | .path a, .path b => some (Ord.compare a b)
  | .duration a, .duration b => some (Ord.compare a b)
  | .byteSize a, .byteSize b => some (Ord.compare a b)
  | _, _ => none

variable {a b : Value F C} {outcome : Ordering}

theorem Measure.compare_swap {a b : Measure} (compared : a.compare b = some outcome) :
    b.compare a = some outcome.swap := by
  cases a <;> cases b <;> simp only [Measure.compare, reduceCtorEq, Option.some.injEq] at compared ⊢
  all_goals
    rw [← compared]
    exact Std.OrientedOrd.eq_swap

theorem Measure.compare_composes {a b c : Measure} {first second third : Ordering}
    (leftMiddle : a.compare b = some first) (middleRight : b.compare c = some second)
    (leftRight : a.compare c = some third) : Composes first second third := by
  cases a <;> cases b <;> simp only [Measure.compare, reduceCtorEq, Option.some.injEq] at leftMiddle
  all_goals
    cases c <;> simp only [Measure.compare, reduceCtorEq, Option.some.injEq] at middleRight leftRight
    rw [← leftMiddle, ← middleRight, ← leftRight]
    exact composes_compare _ _ _

theorem Measure.compare_eq_iff {a b : Measure} (compared : a.compare b = some outcome) :
    outcome = .eq ↔ a = b := by
  cases a <;> cases b <;> simp only [Measure.compare, reduceCtorEq, Option.some.injEq] at compared
  all_goals
    rw [← compared]
    simp [Measure.number.injEq, Measure.text.injEq, Measure.bytes.injEq, Measure.path.injEq, Measure.duration.injEq, Measure.byteSize.injEq]

/-- A finite float is known from its exact value. -/
theorem FiniteFloat.exact_injective {a b : FiniteFloat} (same : a.get.exact = b.get.exact) : a = b := by
  have units : a.word.units = b.word.units := by
    apply Int.le_antisymm
    · exact Binary64.exact_le_iff.mp (le_of_eq same)
    · exact Binary64.exact_le_iff.mp (le_of_eq same.symm)
  have words := Binary64.units_injective a.normalized b.normalized units
  cases a
  cases b
  cases words
  rfl

theorem FiniteFloat.not_nan (float : FiniteFloat) : float.get.isNaN = false := by
  have finite := float.finite
  unfold Binary64.isFinite at finite
  unfold FiniteFloat.get Binary64.isNaN
  simp only [ne_eq, decide_eq_true_eq] at finite
  simp [finite]

/-- The comparison of finite floats always answers. -/
theorem FiniteFloat.partialCmp_eq (a b : FiniteFloat) :
    a.get.partialCmp b.get = some (compare a.get.exact b.get.exact) := by
  unfold Binary64.partialCmp
  rw [a.not_nan, b.not_nan, Binary64.compare_units]
  rfl

theorem utf8_injective {a b : String} (same : utf8 a = utf8 b) : a = b := by
  apply String.toByteArray_inj.mp
  apply ByteArray.ext
  exact Array.toList_inj.mp same

theorem compare_intCast (a b : Int) : compare (a : ℚ) b = compare a b := by
  rcases lt_trichotomy a b with below | equal | above
  · rw [Int.compare_eq_lt.mpr below, compare_lt_iff_lt.mpr (Int.cast_lt.mpr below)]
  · rw [Int.compare_eq_eq.mpr equal, compare_eq_iff_eq.mpr (congrArg _ equal)]
  · rw [Int.compare_eq_gt.mpr above, compare_gt_iff_gt.mpr (Int.cast_lt.mpr above)]

/-! ## The order of values -/

/-- Measured values are ordered as their measures are. -/
theorem order_of_measure {m n : Measure} (left : a.measure = some m) (right : b.measure = some n)
    (compared : m.compare n = some outcome) :
    order a b = .ok outcome := by
  cases a <;> simp only [Value.measure, reduceCtorEq, Option.some.injEq] at left
  all_goals
    subst left
    cases b <;> simp only [Value.measure, reduceCtorEq, Option.some.injEq] at right
  all_goals
    subst right
    simp only [Measure.compare, reduceCtorEq, Option.some.injEq] at compared
  case int.int a b =>
    rw [order, ← compared, compare_intCast]
  case int.float a b =>
    rw [order, ← compared, compareIntFloat_eq]
  case float.int a b =>
    rw [order, ← compared, compareIntFloat_eq, ← Std.OrientedOrd.eq_swap]
  case float.float a b =>
    rw [order, ← compared, FiniteFloat.partialCmp_eq]
  all_goals rw [order, compared]

theorem orderLists_eq (left right : List (Value F C)) :
    orderLists left right = lexicographic order left right := by
  induction left generalizing right with
  | nil => simp [orderLists, lexicographic]
  | cons a _ ih =>
    cases right with
    | nil => simp [orderLists, lexicographic]
    | cons b right =>
      rw [orderLists, lexicographic]
      cases order a b with
      | error => rfl
      | ok head =>
        cases head with
        | eq => exact ih right
        | lt | gt => rfl

/-- Two values have an order exactly when both are measured in one domain, or both are
lists whose elements can be compared as far as needed. -/
theorem order_ok_iff :
    order a b = .ok outcome ↔
      (∃ m n, a.measure = some m ∧ b.measure = some n ∧ m.compare n = some outcome) ∨
        ∃ left right, a = .list left ∧ b = .list right ∧ lexicographic order left right = .ok outcome := by
  constructor
  · intro compared
    unfold order at compared
    split at compared
    case h_10 left right =>
      rw [orderLists_eq] at compared
      exact .inr ⟨left, right, rfl, rfl, compared⟩
    case h_11 => contradiction
    all_goals left
    case h_1 a b =>
      rw [← compare_intCast] at compared
      exact ⟨_, _, rfl, rfl, by simpa [Measure.compare] using compared⟩
    case h_2 a b =>
      rw [compareIntFloat_eq] at compared
      exact ⟨_, _, rfl, rfl, by simpa [Measure.compare] using compared⟩
    case h_3 a b =>
      rw [compareIntFloat_eq, ← Std.OrientedOrd.eq_swap] at compared
      exact ⟨_, _, rfl, rfl, by simpa [Measure.compare] using compared⟩
    case h_4 a b =>
      rw [FiniteFloat.partialCmp_eq] at compared
      exact ⟨_, _, rfl, rfl, by simpa [Measure.compare] using compared⟩
    all_goals exact ⟨_, _, rfl, rfl, by simpa [Measure.compare] using compared⟩
  · rintro (⟨_, _, left, right, compared⟩ | ⟨left, right, rfl, rfl, compared⟩)
    · exact order_of_measure left right compared
    · rw [order, orderLists_eq]
      exact compared

/-- Induction over the lists in a value: what holds of values outside lists, and of a
list when it holds of its elements, holds of every value. -/
theorem Value.inductionLists {holds : Value F C → Prop}
    (leaf : ∀ value, (∀ values, value ≠ .list values) → holds value)
    (list : ∀ values, (∀ value ∈ values, holds value) → holds (.list values)) (value) : holds value := by
  cases value with
  | list =>
    apply list
    intro value member
    exact Value.inductionLists leaf list value
  | _ =>
    apply leaf
    intro values same
    contradiction
termination_by sizeOf value
decreasing_by
  have := List.sizeOf_lt_of_mem member
  simp only [Value.list.sizeOf_spec]
  omega

theorem order_swap (compared : order a b = .ok outcome) :
    order b a = .ok outcome.swap := by
  induction a using Value.inductionLists generalizing b outcome with
  | leaf _ outside =>
    obtain ⟨m, n, left, right, measured⟩ | ⟨left, _, same, _⟩ := order_ok_iff.mp compared
    · exact order_of_measure right left (Measure.compare_swap measured)
    · exact absurd same (outside left)
  | list left ih =>
    obtain ⟨_, _, measured, _⟩ | ⟨_, right, same, rfl, compared⟩ := order_ok_iff.mp compared
    · simp [Value.measure] at measured
    · cases same
      apply order_ok_iff.mpr
      right
      refine ⟨right, left, rfl, rfl, ?_⟩
      exact lexicographic_swap (fun a member b head => ih a member) compared

/-- Successful comparisons compose. -/
theorem order_composes {c : Value F C} {first second third : Ordering} (leftMiddle : order a b = .ok first)
    (middleRight : order b c = .ok second) (leftRight : order a c = .ok third) : Composes first second third := by
  induction a using Value.inductionLists generalizing b c first second third with
  | leaf _ outside =>
    obtain ⟨_, _, left, middle, step₁⟩ | ⟨left, _, same, _⟩ := order_ok_iff.mp leftMiddle
    · obtain ⟨_, _, middle', right, step₂⟩ | ⟨_, _, rfl, _⟩ := order_ok_iff.mp middleRight
      · obtain ⟨_, _, left', right', step₃⟩ | ⟨_, _, same, _⟩ := order_ok_iff.mp leftRight
        · cases middle.symm.trans middle'
          cases left.symm.trans left'
          cases right.symm.trans right'
          exact Measure.compare_composes step₁ step₂ step₃
        · exact absurd same (outside _)
      · simp [Value.measure] at middle
    · exact absurd same (outside left)
  | list _ ih =>
    obtain ⟨_, _, measured, _⟩ | ⟨_, _, same₁, rfl, step₁⟩ := order_ok_iff.mp leftMiddle
    · simp [Value.measure] at measured
    obtain ⟨_, _, measured, _⟩ | ⟨_, _, same₂, rfl, step₂⟩ := order_ok_iff.mp middleRight
    · simp [Value.measure] at measured
    obtain ⟨_, _, measured, _⟩ | ⟨_, _, same₃, same₄, step₃⟩ := order_ok_iff.mp leftRight
    · simp [Value.measure] at measured
    cases same₁
    cases same₂
    cases same₃
    cases same₄
    exact lexicographic_composes (fun a member b c _ _ _ => ih a member) step₁ step₂ step₃

/-- The exact value of a number. -/
def Value.number : Value F C → Option ℚ
  | .int value => some value.toInt
  | .float value => some value.get.exact
  | _ => none

theorem measure_of_number {p : ℚ} (known : a.number = some p) :
    a.measure = some (.number p) := by
  cases a <;> simp only [Value.number, reduceCtorEq, Option.some.injEq] at known
  all_goals
    subst known
    rfl

section Agreement

variable [BEq F] [BEq C]

theorem sameList_iff (left right : List (Value F C)) :
    Value.sameList left right = true ↔ List.Forall₂ (fun a b => Value.same a b = true) left right := by
  induction left generalizing right with
  | nil => cases right <;> simp [Value.sameList]
  | cons _ _ ih => cases right <;> simp [Value.sameList, ih]

variable {a b : Value F C}

/-- Measured values of one domain are equal when their measures are. -/
theorem same_of_measure {m n : Measure} {outcome : Ordering} (left : a.measure = some m) (right : b.measure = some n)
    (compared : m.compare n = some outcome) :
    Value.same a b = true ↔ m = n := by
  cases a <;> simp only [Value.measure, reduceCtorEq, Option.some.injEq] at left
  all_goals
    subst left
    cases b <;> simp only [Value.measure, reduceCtorEq, Option.some.injEq] at right
  all_goals
    subst right
    simp only [Measure.compare, reduceCtorEq, Option.some.injEq] at compared
  case int.int a b =>
    simp [Value.same, Int64.toInt_inj]
  case int.float a b =>
    simp [Value.same, intFloatEqual_iff]
  case float.int a b =>
    rw [Value.same, intFloatEqual_iff, Measure.number.injEq]
    exact eq_comm
  case float.float a b =>
    simp only [Value.same, beq_iff_eq, Measure.number.injEq]
    exact ⟨fun same => by rw [same], FiniteFloat.exact_injective⟩
  case string.string a b =>
    simp only [Value.same, beq_iff_eq, Measure.text.injEq]
    exact ⟨fun same => by rw [same], utf8_injective⟩
  case bytes.bytes a b =>
    simp [Value.same]
  case path.path a b =>
    simp [Value.same, NativePath.ext_iff]
  case duration.duration a b =>
    simp [Value.same, Duration.ext_iff]
  case byteSize.byteSize a b =>
    simp [Value.same, ByteSize.ext_iff, UInt64.toNat_inj]

theorem order_eq_iff {outcome : Ordering} (compared : order a b = .ok outcome) :
    outcome = .eq ↔ Value.same a b = true := by
  induction a using Value.inductionLists generalizing b outcome with
  | leaf _ outside =>
    obtain ⟨m, n, left, right, measured⟩ | ⟨left, _, same, _⟩ := order_ok_iff.mp compared
    · rw [same_of_measure left right measured]
      exact Measure.compare_eq_iff measured
    · exact absurd same (outside left)
  | list _ ih =>
    obtain ⟨_, _, measured, _⟩ | ⟨_, _, same, rfl, compared⟩ := order_ok_iff.mp compared
    · simp [Value.measure] at measured
    · cases same
      rw [Value.same, sameList_iff]
      exact lexicographic_eq_iff (fun a member b head => ih a member) compared

/-- Where it succeeds, the order of values is a total preorder that agrees with equality,
and numbers are compared by their exact values. -/
theorem order_total_preorder (a b c : Value F C) :
    (∀ outcome, order a b = .ok outcome → order b a = .ok outcome.swap) ∧
    (∀ first second third, order a b = .ok first → order b c = .ok second → order a c = .ok third →
      (first.isLE → second.isLE → third.isLE) ∧ (first = second → third = first)) ∧
    (∀ outcome, order a b = .ok outcome → (outcome = .eq ↔ (a == b) = true)) ∧
    (∀ p q, a.number = some p → b.number = some q → order a b = .ok (compare p q)) := by
  refine ⟨fun outcome => order_swap, ?_, fun outcome => order_eq_iff, ?_⟩
  · intro first second third leftMiddle middleRight leftRight
    have composes := order_composes leftMiddle middleRight leftRight
    exact ⟨composes.isLE, composes.same_way⟩
  · intro p q left right
    exact order_of_measure (measure_of_number left) (measure_of_number right) rfl

end Agreement

/-- The expectation about finite floats never fails. -/
theorem order_never_panics (a b : Value F C) (message : String) :
    order a b ≠ .error (.panicked message) := by
  induction a using Value.inductionLists generalizing b with
  | leaf _ outside =>
    intro panicked
    unfold order at panicked
    split at panicked
    case h_4 => simp [FiniteFloat.partialCmp_eq] at panicked
    case h_10 left right => exact outside left rfl
    all_goals simp at panicked
  | list left ih =>
    cases b with
    | list right =>
      rw [order, orderLists_eq]
      induction left generalizing right with
      | nil => simp [lexicographic]
      | cons a _ tails =>
        cases right with
        | nil => simp [lexicographic]
        | cons b right =>
          have here := ih a List.mem_cons_self b
          rw [lexicographic]
          cases compared : order a b with
          | error =>
            rw [compared] at here
            simpa using here
          | ok head =>
            cases head with
            | eq => exact tails (fun a member => ih a (List.mem_cons_of_mem _ member)) right
            | lt | gt => simp
    | _ => simp [order]

end Opaal.Runtime
