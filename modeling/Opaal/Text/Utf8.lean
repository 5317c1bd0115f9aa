import Mathlib.Data.List.Basic
import Mathlib.Tactic.Linarith

/-!
# Text addressed by UTF-8 byte offsets

A text is a list of Unicode scalars; an offset into it counts UTF-8 bytes.
`tailAt` and `headAt` split a text at an offset and fail inside a scalar, which
is how a string slice behaves.  `bytes` is the encoded text itself.
-/

namespace Opaal.Text

open List

/-- Encoded length of a text in bytes. -/
def width (text : List Char) : Nat := (text.map Char.utf8Size).sum

/-- The UTF-8 encoding of a text. -/
def bytes (text : List Char) : List UInt8 := text.flatMap String.utf8EncodeChar

/-- The text from a byte offset on; none when the offset is past the end or
splits a scalar. -/
def tailAt : List Char → Nat → Option (List Char)
  | text, 0 => some text
  | [], _ + 1 => none
  | c :: rest, offset => if c.utf8Size ≤ offset then tailAt rest (offset - c.utf8Size) else none

/-- The text before a byte offset; none when the offset is past the end or
splits a scalar. -/
def headAt : List Char → Nat → Option (List Char)
  | _, 0 => some []
  | [], _ + 1 => none
  | c :: rest, offset =>
    if c.utf8Size ≤ offset then (headAt rest (offset - c.utf8Size)).map (c :: ·) else none

/-- The text between two byte offsets; none where a slice of a string panics. -/
def sliceAt (text : List Char) (start stop : Nat) : Option (List Char) :=
  if start ≤ stop then (tailAt text start).bind (headAt · (stop - start)) else none

/-- An offset at which a text can be split. -/
def IsBoundary (text : List Char) (offset : Nat) : Prop := ∃ front back, text = front ++ back ∧ width front = offset

@[simp] theorem width_nil : width [] = 0 := rfl

@[simp] theorem width_cons (c : Char) (text : List Char) : width (c :: text) = c.utf8Size + width text := by
  simp [width]

variable (front back : List Char)

@[simp] theorem width_append : width (front ++ back) = width front + width back := by
  simp [width]

variable {text : List Char} {offset : Nat} {c : Char} {accepts : UInt8 → Bool}

theorem width_pos_of_ne_nil (nonempty : text ≠ []) : 0 < width text := by
  cases text with
  | nil => exact absurd rfl nonempty
  | cons c rest =>
    have positive := Char.utf8Size_pos c
    simp only [width_cons]
    omega

theorem length_le_width (text : List Char) : text.length ≤ width text := by
  induction text with
  | nil => simp
  | cons c more ih =>
    have positive := Char.utf8Size_pos c
    simp only [length_cons, width_cons]
    omega

@[simp] theorem width_eq_zero : width text = 0 ↔ text = [] := by
  constructor
  · intro zero
    by_contra nonempty
    have positive := width_pos_of_ne_nil nonempty
    omega
  · rintro rfl
    rfl

theorem bytes_length (text : List Char) : (bytes text).length = width text := by
  induction text with
  | nil => rfl
  | cons c rest ih =>
    have unfolded : bytes (c :: rest) = String.utf8EncodeChar c ++ bytes rest := rfl
    rw [unfolded, length_append, ih, String.length_utf8EncodeChar, width_cons]

theorem tailAt_width : tailAt (front ++ back) (width front) = some back := by
  induction front with
  | nil => cases back <;> rfl
  | cons c rest ih =>
    have positive := Char.utf8Size_pos c
    obtain ⟨size, sizeEq⟩ : ∃ n, c.utf8Size + width rest = n + 1 := ⟨_, (Nat.succ_pred (by omega)).symm⟩
    simp only [cons_append, width_cons, sizeEq, tailAt]
    rw [← sizeEq, if_pos (Nat.le_add_right _ _), Nat.add_sub_cancel_left]
    exact ih

theorem headAt_width : headAt (front ++ back) (width front) = some front := by
  induction front with
  | nil => cases back <;> rfl
  | cons c rest ih =>
    have positive := Char.utf8Size_pos c
    obtain ⟨size, sizeEq⟩ : ∃ n, c.utf8Size + width rest = n + 1 := ⟨_, (Nat.succ_pred (by omega)).symm⟩
    simp only [cons_append, width_cons, sizeEq, headAt]
    rw [← sizeEq, if_pos (Nat.le_add_right _ _), Nat.add_sub_cancel_left, ih]
    rfl

theorem sliceAt_parts (middle back : List Char) :
    sliceAt (front ++ (middle ++ back)) (width front) (width front + width middle) = some middle := by
  unfold sliceAt
  rw [if_pos (Nat.le_add_right _ _), tailAt_width, Option.bind_some, Nat.add_sub_cancel_left, headAt_width]

/-- A successful split is a real split of the text. -/
theorem tailAt_some {tail : List Char} (found : tailAt text offset = some tail) :
    ∃ front, text = front ++ tail ∧ width front = offset := by
  induction text generalizing offset with
  | nil =>
    cases offset with
    | zero => exact ⟨[], by simpa [tailAt] using found, rfl⟩
    | succ n => simp [tailAt] at found
  | cons c rest ih =>
    cases offset with
    | zero => exact ⟨[], by simpa [tailAt] using found, rfl⟩
    | succ n =>
      simp only [tailAt] at found
      split at found
      · next fits =>
        obtain ⟨front, split, widthEq⟩ := ih found
        refine ⟨c :: front, by rw [split]; rfl, ?_⟩
        rw [width_cons, widthEq]
        omega
      · cases found

theorem isBoundary_iff :
    IsBoundary text offset ↔ (tailAt text offset).isSome := by
  constructor
  · rintro ⟨front, back, rfl, rfl⟩
    rw [tailAt_width]
    rfl
  · intro found
    obtain ⟨tail, tailEq⟩ := Option.isSome_iff_exists.mp found
    obtain ⟨front, split, widthEq⟩ := tailAt_some tailEq
    exact ⟨front, tail, split, widthEq⟩

instance (text : List Char) (offset : Nat) : Decidable (IsBoundary text offset) :=
  decidable_of_iff _ isBoundary_iff.symm

/-- A boundary lies inside the text. -/
theorem IsBoundary.le_width (boundary : IsBoundary text offset) :
    offset ≤ width text := by
  obtain ⟨front, back, rfl, rfl⟩ := boundary
  rw [width_append]
  omega

theorem isBoundary_width_append : IsBoundary (front ++ back) (width front) :=
  ⟨front, back, rfl, rfl⟩

/-- Splits of one text at one offset agree. -/
theorem append_eq_append_of_width {front₁ back₁ front₂ back₂ : List Char}
    (same : front₁ ++ back₁ = front₂ ++ back₂) (widths : width front₁ = width front₂) :
    front₁ = front₂ ∧ back₁ = back₂ := by
  have heads : headAt (front₁ ++ back₁) (width front₁) = headAt (front₂ ++ back₂) (width front₂) := by
    rw [same, widths]
  rw [headAt_width, headAt_width, Option.some.injEq] at heads
  subst heads
  exact ⟨rfl, append_cancel_left same⟩

/-! ## The byte under an offset -/

theorem bytes_getElem_width :
    (bytes (front ++ back))[width front]? = (bytes back)[0]? := by
  have unfolded : bytes (front ++ back) = bytes front ++ bytes back := by simp [bytes]
  rw [unfolded, ← bytes_length, List.getElem?_append_right (Nat.le_refl _), Nat.sub_self]

/-- A predicate on bytes read as a predicate on the ASCII scalars. -/
def onAscii (accepts : UInt8 → Bool) (c : Char) : Bool := c.utf8Size == 1 && accepts c.toUInt8

theorem firstByte_of_ascii (ascii : c.utf8Size = 1) (rest : List Char) :
    (bytes (c :: rest))[0]? = some c.toUInt8 := by
  have unfolded : bytes (c :: rest) = String.utf8EncodeChar c ++ bytes rest := rfl
  rw [unfolded, String.utf8EncodeChar_eq_singleton ascii]
  rfl

/-- The first byte of a longer encoding is no ASCII byte. -/
theorem firstByte_of_not_ascii (wide : c.utf8Size ≠ 1) (rest : List Char) :
    ∃ b, (bytes (c :: rest))[0]? = some b ∧ 128 ≤ b.toNat := by
  have large : 127 < c.val.toNat := by
    by_contra small
    apply wide
    rw [Char.utf8Size_eq_one_iff, UInt32.le_iff_toNat_le]
    exact Nat.le_of_not_lt small
  have unfolded : bytes (c :: rest) = String.utf8EncodeChar c ++ bytes rest := rfl
  rw [unfolded]
  simp only [String.utf8EncodeChar]
  rw [if_neg (by omega)]
  split
  · refine ⟨_, rfl, ?_⟩
    simp only [UInt8.toNat_ofNat']
    omega
  · split
    all_goals
      refine ⟨_, rfl, ?_⟩
      simp only [UInt8.toNat_ofNat']
      omega

/-- A test that only ASCII bytes pass is a test of the next scalar. -/
theorem firstByte_any (onlyAscii : ∀ b, accepts b → b.toNat < 128) (c : Char) (rest : List Char) :
    ((bytes (c :: rest))[0]?).any accepts = onAscii accepts c := by
  by_cases ascii : c.utf8Size = 1
  · simp [firstByte_of_ascii ascii, onAscii, ascii]
  · obtain ⟨b, byteEq, large⟩ := firstByte_of_not_ascii ascii rest
    have rejected : accepts b = false := by
      by_contra accepted
      have small := onlyAscii b (by simpa using accepted)
      omega
    simp [byteEq, rejected, onAscii, ascii]

theorem onAscii_width (accepted : onAscii accepts c) :
    c.utf8Size = 1 := by
  simp only [onAscii, Bool.and_eq_true, beq_iff_eq] at accepted
  exact accepted.1

theorem toUInt8_injective_of_ascii {d : Char} (left : c.utf8Size = 1) (right : d.utf8Size = 1) (same : c.toUInt8 = d.toUInt8) : c = d := by
  rw [Char.utf8Size_eq_one_iff, UInt32.le_iff_toNat_le] at left right
  have limit : (127 : UInt32).toNat = 127 := rfl
  have values : c.toUInt8.toNat = d.toUInt8.toNat := by rw [same]
  simp only [Char.toUInt8, UInt32.toNat_toUInt8] at values
  apply Char.ext
  apply UInt32.toNat_inj.mp
  omega

/-- Testing for one ASCII byte is testing for its character. -/
theorem onAscii_beq {d : Char} (ascii : d.utf8Size = 1) (c : Char) :
    onAscii (· == d.toUInt8) c = (d == c) := by
  by_cases same : c = d
  · subst same
    simp [onAscii, ascii]
  · have apart : (d == c) = false := by simpa using fun equal => same equal.symm
    rw [apart, onAscii]
    by_cases single : c.utf8Size = 1
    · have bytesDiffer : ¬ c.toUInt8 = d.toUInt8 := fun equal =>
        same (toUInt8_injective_of_ascii single ascii equal)
      simp [bytesDiffer]
    · simp [single]

end Opaal.Text
