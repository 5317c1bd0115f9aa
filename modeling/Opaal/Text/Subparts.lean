import Mathlib.Data.Nat.Find
import Opaal.Text.Lossy

/-!
# Ill-formed bytes

Bytes are encoded text as far as scalars start, and behind it a rest that no scalar starts.  The
rest is the beginning of a scalar that more bytes could complete, or nothing that follows it makes
a difference.  Decoding with replacements puts one marker in place of each maximal beginning of a
scalar, and of each byte that begins none.
-/

namespace Opaal.Text

open List

/-! ## Where text ends -/

theorem nextScalar_nil : nextScalar [] = none := by
  cases found : nextScalar [] with
  | none => rfl
  | some c =>
    obtain ⟨rest, split⟩ := nextScalar_eq_some found
    have empty := append_eq_nil_iff.mp split.symm
    have size := congrArg List.length empty.1
    have positive := Char.utf8Size_pos c
    rw [String.length_utf8EncodeChar, length_nil] at size
    omega

/-- Bytes are text as far as scalars start. -/
theorem exists_text (input : List UInt8) : ∃ front rest, input = bytes front ++ rest ∧ nextScalar rest = none := by
  induction size : input.length using Nat.strong_induction_on generalizing input with
  | _ size ih =>
    subst size
    cases found : nextScalar input with
    | none => exact ⟨[], input, rfl, found⟩
    | some c =>
      obtain ⟨more, rfl⟩ := nextScalar_eq_some found
      have shorter : more.length < (String.utf8EncodeChar c ++ more).length := by
        have positive := Char.utf8Size_pos c
        rw [length_append, String.length_utf8EncodeChar]
        omega
      obtain ⟨front, rest, split, stuck⟩ := ih more.length shorter more rfl
      refine ⟨c :: front, rest, ?_, stuck⟩
      rw [split, bytes_cons, append_assoc]

variable {rest : List UInt8}

/-- Text that goes on no further than other text starts with it. -/
theorem text_prefix {front more : List Char} (stuck : nextScalar rest = none) (starts : bytes more <+: bytes front ++ rest) : more <+: front := by
  induction front generalizing more with
  | nil =>
    cases more with
    | nil => exact prefix_rfl
    | cons c more =>
      obtain ⟨after, split⟩ := starts
      rw [bytes_cons, append_assoc, bytes_nil, nil_append] at split
      rw [← split, nextScalar_encoded] at stuck
      contradiction
  | cons d front ih =>
    cases more with
    | nil => exact nil_prefix
    | cons c more =>
      obtain ⟨after, split⟩ := starts
      rw [bytes_cons, bytes_cons, append_assoc, append_assoc] at split
      cases utf8EncodeChar_unambiguous split
      have onward : bytes more <+: bytes front ++ rest := ⟨after, append_cancel_left split⟩
      exact cons_prefix_cons.mpr ⟨rfl, ih onward⟩

/-- Bytes end in one place only. -/
theorem text_unique {front front' : List Char} {rest' : List UInt8} (stuck : nextScalar rest = none)
    (stuck' : nextScalar rest' = none) (same : bytes front ++ rest = bytes front' ++ rest') : front = front' ∧ rest = rest' := by
  have onward : front' <+: front := by
    apply text_prefix stuck
    rw [same]
    exact prefix_append _ _
  have back : front <+: front' := by
    apply text_prefix stuck'
    rw [← same]
    exact prefix_append _ _
  have fronts := back.eq_of_length_le onward.length_le
  subst fronts
  exact ⟨rfl, append_cancel_left same⟩

/-- What a scalar begins with is not a scalar. -/
theorem Unfinished.stuck (unfinished : Unfinished rest) : nextScalar rest = none := by
  cases found : nextScalar rest with
  | none => rfl
  | some d =>
    obtain ⟨after, rfl⟩ := nextScalar_eq_some found
    obtain ⟨c, ⟨missing, starts⟩, shorter⟩ := unfinished
    have same : String.utf8EncodeChar d ++ (after ++ missing) = String.utf8EncodeChar c ++ [] := by
      rw [append_nil, ← starts, append_assoc]
    cases utf8EncodeChar_unambiguous same
    rw [length_append] at shorter
    omega

/-- Bytes that begin no scalar begin none whatever follows. -/
theorem stuck_append (stuck : nextScalar rest = none) (finished : ¬Unfinished rest) (more : List UInt8) :
    nextScalar (rest ++ more) = none := by
  cases found : nextScalar (rest ++ more) with
  | none => rfl
  | some c =>
    obtain ⟨after, split⟩ := nextScalar_eq_some found
    rcases append_eq_append_iff.mp split with ⟨missing, scalarSplit, _⟩ | ⟨between, restSplit, _⟩
    · cases missing with
      | nil =>
        rw [append_nil] at scalarSplit
        have whole := nextScalar_encoded c []
        rw [append_nil, scalarSplit, stuck] at whole
        contradiction
      | cons byte missing =>
        refine absurd ⟨c, ⟨byte :: missing, scalarSplit.symm⟩, ?_⟩ finished
        rw [scalarSplit, length_append, length_cons]
        omega
    · rw [restSplit, nextScalar_encoded] at stuck
      contradiction

/-! ## Decoding with replacements -/

open Classical in
/-- The size of the longest beginning of a scalar, or of one byte. -/
noncomputable def subpart (rest : List UInt8) : Nat :=
  max 1 (Nat.findGreatest (fun size => Unfinished (rest.take size)) rest.length)

theorem subpart_pos (rest : List UInt8) : 0 < subpart rest := Nat.lt_of_lt_of_le Nat.one_pos (Nat.le_max_left _ _)

theorem subpart_le (nonempty : rest ≠ []) : subpart rest ≤ rest.length := by
  classical
  have positive := length_pos_iff.mpr nonempty
  have bound := Nat.findGreatest_le (P := fun size => Unfinished (rest.take size)) rest.length
  unfold subpart
  omega

theorem subpart_unfinished (unfinished : Unfinished rest) (nonempty : rest ≠ []) :
    subpart rest = rest.length := by
  classical
  have positive := length_pos_iff.mpr nonempty
  have greatest := Nat.findGreatest_eq (P := fun size => Unfinished (rest.take size))
    (by rw [take_length]; exact unfinished : Unfinished (rest.take rest.length))
  unfold subpart
  rw [greatest]
  omega

/-- The size of a subpart, by what is longest. -/
theorem subpart_eq {size : Nat} (positive : 0 < size) (inside : size ≤ rest.length)
    (begins : size = 1 ∨ Unfinished (rest.take size))
    (longest : ∀ other, size < other → other ≤ rest.length → ¬Unfinished (rest.take other)) : subpart rest = size := by
  classical
  unfold subpart
  have bound : Nat.findGreatest (fun size => Unfinished (rest.take size)) rest.length ≤ size := by
    by_contra larger
    have found := Nat.findGreatest_of_ne_zero (P := fun size => Unfinished (rest.take size)) rfl
      (by omega : Nat.findGreatest (fun size => Unfinished (rest.take size)) rest.length ≠ 0)
    exact longest _ (by omega) (Nat.findGreatest_le _) found
  rcases begins with rfl | begins
  · omega
  · have reached := Nat.le_findGreatest (P := fun size => Unfinished (rest.take size)) inside begins
    omega

/-- A subpart is one byte or the beginning of a scalar. -/
theorem subpart_begins (rest : List UInt8) : subpart rest = 1 ∨ Unfinished (rest.take (subpart rest)) := by
  classical
  rcases Nat.eq_zero_or_pos (Nat.findGreatest (fun size => Unfinished (rest.take size)) rest.length) with none | some
  · left
    unfold subpart
    omega
  · right
    have found := Nat.findGreatest_of_ne_zero (P := fun size => Unfinished (rest.take size)) rfl (Nat.ne_of_gt some)
    have same : subpart rest = Nat.findGreatest (fun size => Unfinished (rest.take size)) rest.length := by
      unfold subpart
      omega
    rw [same]
    exact found

/-- A finished rest has the same subpart whatever follows. -/
theorem subpart_append (nonempty : rest ≠ []) (finished : ¬Unfinished rest) (more : List UInt8) :
    subpart (rest ++ more) = subpart rest := by
  classical
  have within := subpart_le nonempty
  refine subpart_eq (subpart_pos rest) (by rw [length_append]; omega) ?_ ?_
  · rw [take_append_of_le_length within]
    exact subpart_begins rest
  · intro other larger _ unfinished
    rcases Nat.lt_or_ge other rest.length with inside | past
    · rw [take_append_of_le_length (Nat.le_of_lt inside)] at unfinished
      have reached := Nat.le_findGreatest (P := fun size => Unfinished (rest.take size)) (Nat.le_of_lt inside) unfinished
      unfold subpart at larger
      omega
    · have beginning := unfinished.take rest.length
      rw [take_take, Nat.min_eq_left past, take_left] at beginning
      exact finished beginning

def replacement : Char := '\uFFFD'

/-- Text with a replacement for each subpart that is none. -/
noncomputable def withReplacements (input : List UInt8) : List Char :=
  match input with
  | [] => []
  | byte :: rest =>
    match nextScalar (byte :: rest) with
    | some c => c :: withReplacements (rest.drop (c.utf8Size - 1))
    | none => replacement :: withReplacements (rest.drop (subpart (byte :: rest) - 1))
termination_by input.length
decreasing_by
  all_goals
    simp only [length_drop, length_cons]
    omega

@[simp] theorem withReplacements_nil : withReplacements [] = [] := by rw [withReplacements]

theorem withReplacements_scalar (c : Char) (rest : List UInt8) :
    withReplacements (String.utf8EncodeChar c ++ rest) = c :: withReplacements rest := by
  obtain ⟨lead, inner, shape, _, _⟩ := utf8EncodeChar_shape c
  have size : inner.length = c.utf8Size - 1 := by
    have length := String.length_utf8EncodeChar c
    rw [shape, length_cons] at length
    omega
  have found := nextScalar_encoded c rest
  rw [shape, cons_append] at found ⊢
  rw [withReplacements, found]
  simp only [← size, drop_left]

theorem withReplacements_bytes (text : List Char) (rest : List UInt8) :
    withReplacements (bytes text ++ rest) = text ++ withReplacements rest := by
  induction text with
  | nil => rfl
  | cons c text ih => rw [bytes_cons, append_assoc, withReplacements_scalar, ih, cons_append]

theorem withReplacements_stuck (stuck : nextScalar rest = none) (nonempty : rest ≠ []) :
    withReplacements rest = replacement :: withReplacements (rest.drop (subpart rest)) := by
  cases rest with
  | nil => exact absurd rfl nonempty
  | cons byte rest =>
    have positive := subpart_pos (byte :: rest)
    obtain ⟨size, successor⟩ : ∃ size, subpart (byte :: rest) = size + 1 := ⟨_, (Nat.succ_pred (by omega)).symm⟩
    rw [withReplacements, stuck, successor]
    rfl

end Opaal.Text
