import Opaal.Runtime.Glob
import Opaal.Runtime.JsonDecoderDocument
import Opaal.Text.Subparts

/-!
# Validating UTF-8

What the standard library answers about bytes that may not be text: where the text ends, and how
many of the bytes behind it can be given up.
-/

namespace Opaal.Runtime

open List

open Opaal.Text

/-- `Utf8Error` -/
structure Str.Utf8Error where
  validUpTo : Nat
  errorLen : Option Nat
deriving DecidableEq

/-- `str::from_utf8` -/
def Str.fromUtf8 (input : List UInt8) : Except Str.Utf8Error (List Char) :=
  match decode input with
  | some text => .ok text
  | none => .error ⟨validUpTo input, Glob.errorLen (input.drop (validUpTo input))⟩

/-- `String::from_utf8_lossy`, in at most `bound` pieces -/
def Str.fromUtf8LossyFrom : Nat → List UInt8 → List Char
  | 0, _ => []
  | bound + 1, input =>
    match Str.fromUtf8 input with
    | .ok text => text
    | .error error =>
      let invalid := error.errorLen.getD (input.length - error.validUpTo)
      (decode (input.take error.validUpTo)).getD [] ++
        replacement :: Str.fromUtf8LossyFrom bound (input.drop (error.validUpTo + invalid))

def Str.fromUtf8Lossy (input : List UInt8) : List Char := Str.fromUtf8LossyFrom (input.length + 1) input

/-! ## Where the text ends -/

variable {front : List Char} {rest : List UInt8}

theorem decode_stuck (stuck : nextScalar rest = none) (nonempty : rest ≠ []) : decode (bytes front ++ rest) = none := by
  cases decoded : decode (bytes front ++ rest) with
  | none => rfl
  | some text =>
    have same : bytes front ++ rest = bytes text ++ [] := by rw [Text.decode_eq_some decoded, append_nil]
    exact absurd (Text.text_unique stuck Text.nextScalar_nil same).2 nonempty

theorem validUpTo_stuck (stuck : nextScalar rest = none) : validUpTo (bytes front ++ rest) = (bytes front).length := by
  obtain ⟨inside, valid, longest⟩ := validUpTo_spec (bytes front ++ rest)
  obtain ⟨text, decoded⟩ := Option.isSome_iff_exists.mp valid
  have split := Text.decode_eq_some decoded
  have starts : text <+: front := by
    apply Text.text_prefix stuck
    rw [split]
    exact take_prefix _ _
  obtain ⟨more, rfl⟩ := starts
  have size : validUpTo (bytes (text ++ more) ++ rest) = (bytes text).length := by
    rw [split, length_take, Nat.min_eq_left inside]
  by_contra different
  have shorter : validUpTo (bytes (text ++ more) ++ rest) < (bytes (text ++ more)).length := by
    have parts : (bytes (text ++ more)).length = (bytes text).length + (bytes more).length := by
      rw [Text.bytes_append, length_append]
    omega
  have none := longest (bytes (text ++ more)).length (by rw [length_append]; omega) shorter
  rw [take_left, Text.decode_bytes] at none
  contradiction

theorem errorLen_unfinished (unfinished : Unfinished rest) : Glob.errorLen rest = none := by
  unfold Glob.errorLen
  rw [if_pos ((endsInsideScalar_iff rest).mpr unfinished)]

theorem errorLen_finished (finished : ¬Unfinished rest) (nonempty : rest ≠ []) :
    Glob.errorLen rest = some (subpart rest) := by
  have positive := length_pos_iff.mpr nonempty
  unfold Glob.errorLen
  rw [if_neg (fun ends => finished ((endsInsideScalar_iff rest).mp ends)), Option.some.injEq]
  symm
  -- A beginning of a scalar is shorter than the whole rest and than four bytes.
  have small : ∀ size, size ≤ rest.length → Unfinished (rest.take size) → size < rest.length ∧ size < 4 := by
    intro size inside unfinished
    have short := unfinished_short unfinished
    rw [length_take] at short
    refine ⟨Nat.lt_of_le_of_ne inside ?_, by omega⟩
    rintro rfl
    rw [take_length] at unfinished
    exact finished unfinished
  cases found : (List.range 4).reverse.find? fun size => 0 < size && size < rest.length && endsInsideScalar (rest.take size) with
  | none =>
    have never := List.find?_eq_none.mp found
    refine Text.subpart_eq Nat.one_pos positive (.inl rfl) ?_
    intro other larger inside unfinished
    have bounds := small other inside unfinished
    apply never other (by simpa using bounds.2)
    simp only [Bool.and_eq_true, decide_eq_true_eq]
    exact ⟨⟨by omega, bounds.1⟩, (endsInsideScalar_iff _).mpr unfinished⟩
  | some size =>
    obtain ⟨holds, before, after, split, first⟩ := List.find?_eq_some_iff_append.mp found
    simp only [Bool.and_eq_true, decide_eq_true_eq] at holds
    rw [Option.getD_some]
    refine Text.subpart_eq holds.1.1 (Nat.le_of_lt holds.1.2) (.inr ((endsInsideScalar_iff _).mp holds.2)) ?_
    intro other larger inside unfinished
    have bounds := small other inside unfinished
    have listed : other ∈ before ++ size :: after := by
      rw [← split]
      simpa using bounds.2
    have descending : (before ++ size :: after).Pairwise (· > ·) := by
      rw [← split, pairwise_reverse]
      exact pairwise_lt_range
    rcases mem_append.mp listed with earlier | later
    · have refused := first other earlier
      rw [(endsInsideScalar_iff _).mpr unfinished] at refused
      simp only [Bool.and_true, Bool.not_eq_true', Bool.and_eq_false_iff, decide_eq_false_iff_not] at refused
      omega
    · rcases mem_cons.mp later with same | later
      · omega
      · have smaller := (pairwise_cons.mp (pairwise_append.mp descending).2.1).1 other later
        omega

theorem Str.fromUtf8_bytes (text : List Char) : Str.fromUtf8 (bytes text) = .ok text := by
  unfold Str.fromUtf8
  rw [Text.decode_bytes]

theorem Str.fromUtf8_stuck (stuck : nextScalar rest = none) (nonempty : rest ≠ []) :
    Str.fromUtf8 (bytes front ++ rest) = .error ⟨(bytes front).length, Glob.errorLen rest⟩ := by
  unfold Str.fromUtf8
  rw [decode_stuck stuck nonempty, validUpTo_stuck stuck, drop_left]

/-- The library replaces subparts. -/
theorem Str.fromUtf8LossyFrom_eq (bound : Nat) (input : List UInt8) (enough : input.length < bound) :
    Str.fromUtf8LossyFrom bound input = withReplacements input := by
  induction bound generalizing input with
  | zero => omega
  | succ bound ih =>
    obtain ⟨front, rest, rfl, stuck⟩ := Text.exists_text input
    unfold Str.fromUtf8LossyFrom
    by_cases empty : rest = []
    · subst empty
      rw [append_nil, Str.fromUtf8_bytes]
      have whole := Text.withReplacements_bytes front []
      rw [append_nil, Text.withReplacements_nil, append_nil] at whole
      exact whole.symm
    · have positive := length_pos_iff.mpr empty
      rw [Str.fromUtf8_stuck stuck empty, Text.withReplacements_bytes]
      dsimp only
      rw [take_left, Text.decode_bytes, Option.getD_some, Text.withReplacements_stuck stuck empty]
      have gone : (Glob.errorLen rest).getD ((bytes front ++ rest).length - (bytes front).length) = subpart rest := by
        by_cases unfinished : Unfinished rest
        · rw [errorLen_unfinished unfinished, Text.subpart_unfinished unfinished empty, Option.getD_none, length_append]
          omega
        · rw [errorLen_finished unfinished empty, Option.getD_some]
      have onward := Text.subpart_pos rest
      rw [gone, ← drop_drop, drop_left, ih _ (by
        rw [length_append] at enough
        rw [length_drop]
        omega)]

theorem Str.fromUtf8Lossy_eq (input : List UInt8) : Str.fromUtf8Lossy input = withReplacements input :=
  Str.fromUtf8LossyFrom_eq _ input (Nat.lt_succ_self _)

end Opaal.Runtime
