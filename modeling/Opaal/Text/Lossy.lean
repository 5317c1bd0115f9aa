import Opaal.Text.Decode

/-!
# Bytes that may not be text

Bytes are read scalar by scalar; a byte that no scalar starts at is kept by itself.  Reading
bytes in pieces gives what reading them at once gives, unless a cut lies inside the encoding of a
scalar: the bytes of that scalar are then kept one by one.
-/

namespace Opaal.Text

open List
open String (length_utf8EncodeChar utf8EncodeChar)

/-- The scalar whose encoding the bytes start with. -/
def nextScalar (encoded : List UInt8) : Option Char := encoded.toByteArray.utf8DecodeChar? 0

theorem nextScalar_encoded (c : Char) (rest : List UInt8) : nextScalar (utf8EncodeChar c ++ rest) = some c := by
  unfold nextScalar
  rw [toByteArray_append]
  exact ByteArray.utf8DecodeChar?_utf8EncodeChar_append

theorem nextScalar_eq_some {encoded : List UInt8} {c : Char} (found : nextScalar encoded = some c) :
    ∃ rest, encoded = utf8EncodeChar c ++ rest := by
  obtain ⟨rest, split⟩ := ByteArray.exists_of_utf8DecodeChar?_eq_some found
  refine ⟨rest.data.toList, toByteArray_injective ?_⟩
  have same : rest.data.toList.toByteArray = rest := by
    apply ByteArray.ext
    rw [data_toByteArray, Array.toArray_toList]
  rw [toByteArray_append, same]
  exact split

/-- No scalar starts at a continuation byte. -/
theorem nextScalar_continuation {b : UInt8} (continuation : IsContinuation b) (rest : List UInt8) :
    nextScalar (b :: rest) = none := by
  cases found : nextScalar (b :: rest) with
  | none => rfl
  | some c =>
    obtain ⟨_, split⟩ := nextScalar_eq_some found
    obtain ⟨_, _, shape, starts, _⟩ := utf8EncodeChar_shape c
    rw [shape, cons_append, List.cons.injEq] at split
    rw [split.1] at continuation
    exact absurd continuation starts

/-- Bytes scalar by scalar, and one by one where no scalar starts. -/
@[elab_as_elim]
theorem scalars_induction {motive : List UInt8 → Prop} (encoded : List UInt8) (nil : motive [])
    (scalar : ∀ c rest, motive rest → motive (utf8EncodeChar c ++ rest))
    (raw : ∀ byte rest, nextScalar (byte :: rest) = none → motive rest → motive (byte :: rest)) : motive encoded := by
  generalize size : encoded.length = bound
  induction bound using Nat.strong_induction_on generalizing encoded with
  | _ bound ih =>
    cases encoded with
    | nil => exact nil
    | cons byte rest =>
      subst size
      cases found : nextScalar (byte :: rest) with
      | none => exact raw byte rest found (ih rest.length (by simp) rest rfl)
      | some c =>
        obtain ⟨after, split⟩ := nextScalar_eq_some found
        have shorter : after.length < (byte :: rest).length := by
          have positive := Char.utf8Size_pos c
          rw [split, length_append, length_utf8EncodeChar]
          omega
        rw [split]
        exact scalar c after (ih after.length shorter after rfl)

/-! ## Reading -/

section Reading

variable {α : Type} (scalar : Char → List α) (raw : UInt8 → List α)

/-- Bytes read as scalars where they are encodings of such, and one by one elsewhere. -/
def lossy (encoded : List UInt8) : List α :=
  match encoded with
  | [] => []
  | byte :: rest =>
    match nextScalar (byte :: rest) with
    | some c => scalar c ++ lossy (rest.drop (c.utf8Size - 1))
    | none => raw byte ++ lossy rest
termination_by encoded.length
decreasing_by
  · simp only [length_drop, length_cons]
    omega
  · simp

@[simp] theorem lossy_nil : lossy scalar raw [] = [] := by rw [lossy]

theorem lossy_scalar (c : Char) (rest : List UInt8) :
    lossy scalar raw (utf8EncodeChar c ++ rest) = scalar c ++ lossy scalar raw rest := by
  obtain ⟨lead, inner, shape, _, _⟩ := utf8EncodeChar_shape c
  have size : inner.length = c.utf8Size - 1 := by
    have length := length_utf8EncodeChar c
    rw [shape, length_cons] at length
    omega
  have found := nextScalar_encoded c rest
  rw [shape, cons_append] at found ⊢
  rw [lossy, found]
  simp [← size]

theorem lossy_raw {byte : UInt8} {rest : List UInt8} (missing : nextScalar (byte :: rest) = none) :
    lossy scalar raw (byte :: rest) = raw byte ++ lossy scalar raw rest := by
  rw [lossy, missing]

/-- Encoded text is read as its scalars. -/
theorem lossy_bytes (text : List Char) (rest : List UInt8) :
    lossy scalar raw (bytes text ++ rest) = text.flatMap scalar ++ lossy scalar raw rest := by
  induction text with
  | nil => rfl
  | cons _ _ ih =>
    rw [bytes_cons, append_assoc, lossy_scalar, ih, flatMap_cons, append_assoc]

/-- Continuation bytes at the start are kept one by one. -/
theorem lossy_continuations {inner : List UInt8} (continuations : ∀ b ∈ inner, IsContinuation b) (rest : List UInt8) :
    lossy scalar raw (inner ++ rest) = inner.flatMap raw ++ lossy scalar raw rest := by
  induction inner with
  | nil => rfl
  | cons b inner ih =>
    have first := nextScalar_continuation (continuations b mem_cons_self) (inner ++ rest)
    have others := ih fun b member => continuations b (mem_cons_of_mem _ member)
    rw [cons_append, lossy_raw _ _ first, others, flatMap_cons, append_assoc]

end Reading

/-! ## Cuts -/

/-- The encoding of a scalar lies across the cut between two pieces. -/
def Divides (front back : List UInt8) : Prop :=
  ∃ before inside outside after, ∃ c : Char, front = before ++ inside ∧ back = outside ++ after ∧
    inside ≠ [] ∧ outside ≠ [] ∧ inside ++ outside = utf8EncodeChar c

theorem not_divides_nil (back : List UInt8) : ¬Divides [] back := by
  rintro ⟨_, _, _, _, _, front, _, nonempty, _⟩
  exact nonempty (append_eq_nil_iff.mp front.symm).2

/-- A scalar across a cut lies behind a scalar before it. -/
theorem divides_scalar_iff (c : Char) (front back : List UInt8) :
    Divides (utf8EncodeChar c ++ front) back ↔ Divides front back := by
  constructor
  · rintro ⟨before, inside, outside, after, d, frontSplit, backSplit, someInside, someOutside, whole⟩
    obtain ⟨_, _, shape, _, continuations⟩ := utf8EncodeChar_shape c
    obtain ⟨lead', _, shape', starts, _⟩ := utf8EncodeChar_shape d
    -- What is inside starts with the first byte of its scalar, so it starts behind the scalar `c`.
    obtain ⟨tail, insideShape⟩ : ∃ tail, inside = lead' :: tail := by
      cases inside with
      | nil => exact absurd rfl someInside
      | cons _ tail =>
        rw [shape', cons_append, List.cons.injEq] at whole
        exact ⟨tail, by rw [whole.1]⟩
    rcases append_eq_append_iff.mp frontSplit with ⟨between, _, frontEq⟩ | ⟨between, scalarSplit, insideEq⟩
    · exact ⟨between, inside, outside, after, d, frontEq, backSplit, someInside, someOutside, whole⟩
    · cases before with
      | nil =>
        -- Both scalars start the front, and the one across the cut is longer than what is left of it.
        have same : utf8EncodeChar c ++ (front ++ outside) = utf8EncodeChar d ++ [] := by
          rw [append_nil, ← whole, insideEq, scalarSplit, nil_append, append_assoc]
        cases utf8EncodeChar_unambiguous same
        have empty := (append_eq_nil_iff.mp (append_cancel_left same)).2
        exact absurd empty someOutside
      | cons =>
        rw [shape, cons_append, List.cons.injEq] at scalarSplit
        cases between with
        | nil =>
          refine ⟨[], inside, outside, after, d, ?_, backSplit, someInside, someOutside, whole⟩
          exact insideEq.symm
        | cons b' =>
          rw [insideShape, cons_append, List.cons.injEq] at insideEq
          have continuation := continuations b' (by rw [scalarSplit.2]; simp)
          rw [← insideEq.1] at continuation
          exact absurd continuation starts
  · rintro ⟨before, inside, outside, after, d, rfl, rest⟩
    exact ⟨utf8EncodeChar c ++ before, inside, outside, after, d, (append_assoc _ _ _).symm, rest⟩

/-- A scalar across a cut lies behind a byte that no scalar starts at. -/
theorem divides_raw_iff {byte : UInt8} {front back : List UInt8} (missing : nextScalar (byte :: (front ++ back)) = none) :
    Divides (byte :: front) back ↔ Divides front back := by
  constructor
  · rintro ⟨before, inside, outside, after, c, frontSplit, rfl, someInside, someOutside, whole⟩
    cases before with
    | nil =>
      have split : byte :: (front ++ (outside ++ after)) = utf8EncodeChar c ++ after := by
        rw [← cons_append, frontSplit, ← whole, nil_append, append_assoc]
      rw [split, nextScalar_encoded] at missing
      contradiction
    | cons _ before =>
      rw [cons_append, List.cons.injEq] at frontSplit
      exact ⟨before, inside, outside, after, c, frontSplit.2, rfl, someInside, someOutside, whole⟩
  · rintro ⟨before, inside, outside, after, c, rfl, rest⟩
    exact ⟨byte :: before, inside, outside, after, c, rfl, rest⟩

/-- What follows a cut through a scalar starts with a continuation byte. -/
theorem Divides.continuation {front back : List UInt8} (divides : Divides front back) :
    ∃ byte rest, back = byte :: rest ∧ IsContinuation byte := by
  obtain ⟨_, inside, outside, after, c, _, rfl, someInside, someOutside, whole⟩ := divides
  obtain ⟨_, _, shape, _, continuations⟩ := utf8EncodeChar_shape c
  cases inside with
  | nil => exact absurd rfl someInside
  | cons =>
    cases outside with
    | nil => exact absurd rfl someOutside
    | cons byte outside =>
      rw [shape, cons_append, List.cons.injEq] at whole
      exact ⟨byte, outside ++ after, rfl, continuations byte (by rw [← whole.2]; simp)⟩

/-- Something is kept as it was, or it gets longer; the second when `grown` holds. -/
structure Stretched {α : Type} (grown : Prop) (whole pieces : List α) : Prop where
  same : ¬grown → pieces = whole
  longer : grown → whole.length < pieces.length

namespace Stretched

variable {α : Type} {grown grown' : Prop} {whole pieces whole' pieces' : List α}

theorem refl (whole : List α) : Stretched False whole whole := ⟨fun _ => rfl, False.elim⟩

theorem congr (stretched : Stretched grown whole pieces) (same : grown ↔ grown') : Stretched grown' whole pieces :=
  ⟨fun kept => stretched.same (kept ∘ same.mp), fun grows => stretched.longer (same.mpr grows)⟩

theorem length_le (stretched : Stretched grown whole pieces) : whole.length ≤ pieces.length := by
  by_cases grows : grown
  · exact Nat.le_of_lt (stretched.longer grows)
  · rw [stretched.same grows]

theorem append (first : Stretched grown whole pieces) (second : Stretched grown' whole' pieces') :
    Stretched (grown ∨ grown') (whole ++ whole') (pieces ++ pieces') := by
  constructor
  · intro kept
    rw [first.same fun grows => kept (.inl grows), second.same fun grows => kept (.inr grows)]
  · intro grows
    have firstLength := first.length_le
    have secondLength := second.length_le
    rw [length_append, length_append]
    rcases grows with grows | grows
    · have more := first.longer grows
      omega
    · have more := second.longer grows
      omega

theorem prepend (front : List α) (stretched : Stretched grown whole pieces) :
    Stretched grown (front ++ whole) (front ++ pieces) :=
  ((refl front).append stretched).congr (iff_of_eq (false_or grown))

theorem trans {middle : List α} (first : Stretched grown whole middle) (second : Stretched grown' middle pieces) :
    Stretched (grown ∨ grown') whole pieces := by
  constructor
  · intro kept
    rw [second.same fun grows => kept (.inr grows), first.same fun grows => kept (.inl grows)]
  · intro grows
    have firstLength := first.length_le
    have secondLength := second.length_le
    rcases grows with grows | grows
    · have more := first.longer grows
      omega
    · have more := second.longer grows
      omega

/-- The pieces tell whether anything has grown. -/
theorem eq_iff (stretched : Stretched grown whole pieces) : pieces = whole ↔ ¬grown := by
  constructor
  · intro same grows
    have more := stretched.longer grows
    rw [same] at more
    omega
  · exact stretched.same

end Stretched

section Cutting

variable {α : Type} {scalar : Char → List α} {raw : UInt8 → List α}

/-- Reading two pieces by themselves is reading them at once, unless the cut divides a scalar; that
one's bytes make a longer reading than itself. -/
theorem lossy_cut
    (shorter : ∀ c : Char, 1 < c.utf8Size → (scalar c).length < ((utf8EncodeChar c).flatMap raw).length)
    (front back : List UInt8) :
    Stretched (Divides front back) (lossy scalar raw (front ++ back))
      (lossy scalar raw front ++ lossy scalar raw back) := by
  induction size : front.length using Nat.strong_induction_on generalizing front with
  | _ size ih =>
    subst size
    cases front with
    | nil =>
      rw [nil_append, lossy_nil, nil_append]
      exact (Stretched.refl _).congr ⟨False.elim, not_divides_nil back⟩
    | cons byte front =>
      cases found : nextScalar (byte :: (front ++ back)) with
      | none =>
        have alone : nextScalar (byte :: front) = none := by
          cases starts : nextScalar (byte :: front) with
          | none => rfl
          | some c =>
            obtain ⟨rest, split⟩ := nextScalar_eq_some starts
            rw [← cons_append, split, append_assoc, nextScalar_encoded] at found
            contradiction
        have onward := ih front.length (by simp) front rfl
        rw [cons_append, lossy_raw _ _ found, lossy_raw _ _ alone, append_assoc]
        exact (onward.prepend (raw byte)).congr (divides_raw_iff found).symm
      | some c =>
        obtain ⟨rest, split⟩ := nextScalar_eq_some found
        rw [← cons_append] at split
        rcases append_eq_append_iff.mp split with ⟨outside, scalarSplit, backSplit⟩ | ⟨more, frontSplit, restSplit⟩
        · by_cases inside : outside = []
          · -- The scalar ends at the cut.
            subst inside
            rw [append_nil] at scalarSplit
            have onward := ih 0 (by simp) [] rfl
            rw [← scalarSplit, lossy_scalar, ← append_nil (utf8EncodeChar c), lossy_scalar,
              append_assoc]
            refine (onward.prepend (scalar c)).congr ?_
            exact (divides_scalar_iff c [] back).symm
          · have divides : Divides (byte :: front) back :=
              ⟨[], byte :: front, outside, rest, c, rfl, backSplit, cons_ne_nil _ _, inside, scalarSplit.symm⟩
            refine ⟨fun kept => absurd divides kept, fun _ => ?_⟩
            obtain ⟨lead, inner, shape, _, continuations⟩ := utf8EncodeChar_shape c
            have shapes := scalarSplit.symm.trans shape
            rw [cons_append, List.cons.injEq] at shapes
            have frontInner : ∀ b ∈ front, IsContinuation b := by
              intro b member
              exact continuations b (by rw [← shapes.2]; exact mem_append_left _ member)
            have outsideInner : ∀ b ∈ outside, IsContinuation b := by
              intro b member
              exact continuations b (by rw [← shapes.2]; exact mem_append_right _ member)
            have alone : nextScalar (byte :: front) = none := by
              cases starts : nextScalar (byte :: front) with
              | none => rfl
              | some d =>
                obtain ⟨after, startSplit⟩ := nextScalar_eq_some starts
                have same : utf8EncodeChar c ++ [] = utf8EncodeChar d ++ (after ++ outside) := by
                  rw [append_nil, scalarSplit, startSplit, append_assoc]
                cases utf8EncodeChar_unambiguous same
                have empty := append_cancel_left same
                exact absurd (append_eq_nil_iff.mp empty.symm).2 inside
            have wide : 1 < c.utf8Size := by
              have length := length_utf8EncodeChar c
              have positive := length_pos_iff.mpr inside
              rw [scalarSplit, length_append, length_cons] at length
              omega
            have bound := shorter c wide
            have frontRead : lossy scalar raw (byte :: front) = (byte :: front).flatMap raw := by
              have others := lossy_continuations scalar raw frontInner []
              rw [append_nil, lossy_nil, append_nil] at others
              rw [lossy_raw _ _ alone, others, flatMap_cons]
            rw [split, lossy_scalar, backSplit, lossy_continuations scalar raw outsideInner, frontRead]
            rw [scalarSplit, flatMap_append] at bound
            simp only [length_append] at bound ⊢
            omega
        · have onward := ih more.length (by
            have length := congrArg List.length frontSplit
            have positive := Char.utf8Size_pos c
            rw [length_append, length_utf8EncodeChar] at length
            omega) more rfl
          rw [split, restSplit, frontSplit, lossy_scalar, lossy_scalar, append_assoc]
          exact (onward.prepend (scalar c)).congr (divides_scalar_iff c more back).symm

end Cutting

end Opaal.Text
