import Mathlib.Data.List.TakeWhile
import Mathlib.Data.Nat.Init

/-!
# Digits

Numbers written in a radix of at most sixteen and read back: the value of a run of digits, and that
the digits a number is written with are digits of the radix, have its value and do not begin with a
zero that is not needed.
-/

namespace Opaal.Number

open List

/-- The value of a digit in any radix. -/
def digitValue (character : Char) : Option Nat :=
  if '0' ≤ character ∧ character ≤ '9' then some (character.toNat - '0'.toNat)
  else if 'a' ≤ character ∧ character ≤ 'z' then some (character.toNat - 'a'.toNat + 10)
  else if 'A' ≤ character ∧ character ≤ 'Z' then some (character.toNat - 'A'.toNat + 10)
  else none

/-- `char::to_digit` -/
def toDigit (radix : Nat) (character : Char) : Option Nat := (digitValue character).filter fun value => value < radix

def isDigitOf (radix : Nat) (character : Char) : Bool := (toDigit radix character).isSome

def digitsValue (radix : Nat) (digits : List Char) : Nat :=
  digits.foldl (fun value digit => value * radix + (toDigit radix digit).getD 0) 0

/-- One plus sign may stand before the digits of an unsigned number. -/
def withoutSign : List Char → List Char
  | '+' :: digits => digits
  | digits => digits

/-- `str::parse` for an unsigned number below a bound. -/
def parseUnsigned (bound : Nat) (text : List Char) : Option Nat :=
  let digits := withoutSign text
  if digits ≠ [] ∧ digits.all (isDigitOf 10) ∧ digitsValue 10 digits < bound then some (digitsValue 10 digits) else none

/-! ## Writing and reading -/

variable {radix number : Nat}

theorem toDigit_digitChar {digit : Nat} (small : radix ≤ 16) (below : digit < radix) :
    toDigit radix digit.digitChar = some digit := by
  have found : ∀ digit < 16, digitValue (Nat.digitChar digit) = some digit := by decide
  unfold toDigit
  rw [found digit (by omega), Option.filter_some, if_pos (decide_eq_true below)]

/-- A digit is one in every larger radix. -/
theorem isDigitOf_of_le {larger : Nat} (le : radix ≤ larger) {character : Char} (digit : isDigitOf radix character = true) :
    isDigitOf larger character = true := by
  unfold isDigitOf toDigit at digit ⊢
  cases value : digitValue character with
  | none =>
    rw [value] at digit
    cases digit
  | some value' =>
    rw [value, Option.filter_some] at digit
    rw [Option.filter_some]
    split at digit
    · next below =>
      have small := of_decide_eq_true below
      rw [if_pos (decide_eq_true (by omega))]
      rfl
    · cases digit

/-- Decimal digits are digits in ASCII. -/
theorem isDigitOf_ten (character : Char) : isDigitOf 10 character = character.isDigit := by
  unfold isDigitOf toDigit digitValue
  split
  · next decimal =>
    have small : character.toNat ≤ 57 := decimal.2
    have below : character.toNat - '0'.toNat < 10 := by
      show character.toNat - 48 < 10
      omega
    rw [Option.filter_some, if_pos (decide_eq_true below)]
    have isDigit : character.isDigit = true := by
      unfold Char.isDigit
      rw [Bool.and_eq_true, decide_eq_true_eq, decide_eq_true_eq]
      exact decimal
    rw [isDigit]
    rfl
  · next other =>
    have isNone : character.isDigit = false := by
      cases isDigit : character.isDigit with
      | false => rfl
      | true =>
        unfold Char.isDigit at isDigit
        rw [Bool.and_eq_true, decide_eq_true_eq, decide_eq_true_eq] at isDigit
        exact absurd isDigit other
    rw [isNone]
    have large : ∀ value : Nat, ((some (value + 10)).filter fun value => decide (value < 10)).isSome = false := by
      intro value
      rw [Option.filter_some, if_neg]
      · rfl
      · rw [decide_eq_true_eq]
        omega
    split
    · exact large _
    · split
      · exact large _
      · rfl

theorem toDigits_all (large : 1 < radix) (small : radix ≤ 16) (number : Nat) :
    ∀ digit ∈ Nat.toDigits radix number, isDigitOf radix digit = true := by
  induction number using Nat.strongRecOn with
  | ind number ih =>
    intro digit member
    rw [Nat.toDigits_eq_if large] at member
    split at member
    · next below =>
      rw [mem_singleton.mp member]
      unfold isDigitOf
      rw [toDigit_digitChar small below]
      rfl
    · rcases mem_append.mp member with early | last
      · exact ih (number / radix) (Nat.div_lt_self (by omega) large) digit early
      · rw [mem_singleton.mp last]
        unfold isDigitOf
        rw [toDigit_digitChar small (Nat.mod_lt _ (by omega))]
        rfl

theorem digitsValue_toDigits (large : 1 < radix) (small : radix ≤ 16) (number : Nat) :
    digitsValue radix (Nat.toDigits radix number) = number := by
  induction number using Nat.strongRecOn with
  | ind number ih =>
    rw [Nat.toDigits_eq_if large]
    split
    · next below =>
      unfold digitsValue
      rw [foldl_cons, foldl_nil, toDigit_digitChar small below]
      simp
    · next whole =>
      have front := ih (number / radix) (Nat.div_lt_self (by omega) large)
      unfold digitsValue at front ⊢
      rw [foldl_append, front, foldl_cons, foldl_nil, toDigit_digitChar small (Nat.mod_lt _ (by omega))]
      rw [Nat.mul_comm]
      exact Nat.div_add_mod number radix

/-- Only zero is written with a zero in front. -/
theorem toDigits_leading_zero (large : 1 < radix) (small : radix ≤ 16)
    (leading : (Nat.toDigits radix number).head? = some '0') : number = 0 := by
  induction number using Nat.strongRecOn with
  | ind number ih =>
    rw [Nat.toDigits_eq_if large] at leading
    split at leading
    · next below =>
      have same : Nat.digitChar number = '0' := Option.some.inj leading
      have value := toDigit_digitChar small below
      rw [same] at value
      have zero : toDigit radix '0' = some 0 := by
        unfold toDigit
        rw [show digitValue '0' = some 0 from rfl, Option.filter_some, if_pos (decide_eq_true (by omega))]
      exact (Option.some.inj (zero.symm.trans value)).symm
    · next whole =>
      have front : (Nat.toDigits radix (number / radix)).head? = some '0' := by
        cases digits : Nat.toDigits radix (number / radix) with
        | nil => exact absurd digits Nat.toDigits_ne_nil
        | cons =>
          rw [digits] at leading
          exact leading
      have zero := ih (number / radix) (Nat.div_lt_self (by omega) large) front
      rw [Nat.div_eq_zero_iff] at zero
      omega

/-- Digits end where something that is none begins. -/
theorem takeWhile_digits {kind : Char → Bool} {digits rest : List Char} (all : ∀ digit ∈ digits, kind digit = true)
    (stops : ∀ next ∈ rest.head?, kind next = false) :
    (digits ++ rest).takeWhile kind = digits ∧ (digits ++ rest).dropWhile kind = rest := by
  have front : rest.takeWhile kind = [] ∧ rest.dropWhile kind = rest := by
    cases rest with
    | nil => exact ⟨rfl, rfl⟩
    | cons next =>
      have no := stops next rfl
      exact ⟨takeWhile_cons_of_neg (by rw [no]; decide), dropWhile_cons_of_neg (by rw [no]; decide)⟩
  rw [takeWhile_append_of_pos all, dropWhile_append_of_pos all, front.1, front.2, append_nil]
  exact ⟨rfl, rfl⟩

theorem parseUnsigned_toDigits {bound : Nat} (below : number < bound) :
    parseUnsigned bound (Nat.toDigits 10 number) = some number := by
  have value := digitsValue_toDigits (show 1 < 10 by decide) (by decide) number
  have all := toDigits_all (show 1 < 10 by decide) (by decide) number
  have unsigned : withoutSign (Nat.toDigits 10 number) = Nat.toDigits 10 number := by
    unfold withoutSign
    split
    · next rest same =>
      have plus := all '+' (same ▸ mem_cons_self)
      cases plus
    · rfl
  unfold parseUnsigned
  rw [unsigned]
  rw [if_pos ⟨Nat.toDigits_ne_nil, all_eq_true.mpr all, by rw [value]; exact below⟩, value]

end Opaal.Number
