import Opaal.Text.Replace
import Opaal.Text.Utf8

/-!
# Decoding UTF-8, and replacing inside encoded text

Encodings of scalars are prefix free and start with a byte that is no continuation
byte.  So encoded needles only occur at scalar boundaries, and a pass that replaces
them by an encoded marker leaves well-formed text.
-/

namespace Opaal.Text

open List
open String (fromUTF8? utf8EncodeChar)

/-- The text some bytes encode, when they are well formed. -/
def decode (encoded : List UInt8) : Option (List Char) :=
  (fromUTF8? encoded.toByteArray).map String.toList

theorem toByteArray_injective {left right : List UInt8} (same : left.toByteArray = right.toByteArray) :
    left = right := by
  have data : left.toByteArray.data = right.toByteArray.data := by rw [same]
  rw [data_toByteArray, data_toByteArray] at data
  exact congrArg Array.toList data

theorem decode_bytes (text : List Char) : decode (bytes text) = some text := by
  have valid : (bytes text).toByteArray.IsValidUTF8 := ⟨text, rfl⟩
  have same : String.fromUTF8 (bytes text).toByteArray valid = String.ofList text := by
    apply String.toByteArray_inj.mp
    rfl
  unfold decode fromUTF8?
  rw [dif_pos valid, same, Option.map_some, String.toList_ofList]

theorem decode_eq_some {encoded : List UInt8} {text : List Char} (decoded : decode encoded = some text) :
    bytes text = encoded := by
  unfold decode fromUTF8? at decoded
  split at decoded
  · next valid =>
    simp only [Option.map_some, Option.some.injEq] at decoded
    apply toByteArray_injective
    have encodes : text.utf8Encode = encoded.toByteArray := by
      rw [← decoded, String.utf8Encode_toList]
      rfl
    exact encodes
  · contradiction

@[simp] theorem bytes_nil : bytes [] = [] := rfl

theorem bytes_cons (c : Char) (text : List Char) : bytes (c :: text) = utf8EncodeChar c ++ bytes text := rfl

theorem bytes_append (front back : List Char) : bytes (front ++ back) = bytes front ++ bytes back := by
  simp [bytes]

theorem bytes_ne_nil {text : List Char} (nonempty : text ≠ []) : bytes text ≠ [] := by
  intro empty
  have zero : (bytes text).length = 0 := by rw [empty]; rfl
  rw [bytes_length, width_eq_zero] at zero
  exact nonempty zero

/-- A byte that only stands inside the encoding of a scalar. -/
def IsContinuation (b : UInt8) : Prop := 128 ≤ b.toNat ∧ b.toNat < 192

theorem isContinuation_low (v : Nat) : IsContinuation (UInt8.ofNat (v % 64 + 128)) := by
  unfold IsContinuation
  rw [UInt8.toNat_ofNat']
  omega

/-- The bytes of a scalar: one that starts it, then continuation bytes. -/
theorem utf8EncodeChar_shape (c : Char) : ∃ lead rest, utf8EncodeChar c = lead :: rest ∧
    ¬IsContinuation lead ∧ ∀ b ∈ rest, IsContinuation b := by
  have low := isContinuation_low
  unfold utf8EncodeChar
  simp only
  split
  · next small =>
    refine ⟨_, _, rfl, ?_, by simp⟩
    unfold IsContinuation
    rw [UInt8.toNat_ofNat']
    omega
  split
  · refine ⟨_, _, rfl, ?_, forall_mem_singleton.mpr (low _)⟩
    unfold IsContinuation
    rw [UInt8.toNat_ofNat']
    omega
  split
  · refine ⟨_, _, rfl, ?_, forall_mem_cons.mpr ⟨low _, forall_mem_singleton.mpr (low _)⟩⟩
    unfold IsContinuation
    rw [UInt8.toNat_ofNat']
    omega
  · refine ⟨_, _, rfl, ?_, forall_mem_cons.mpr ⟨low _, forall_mem_cons.mpr
      ⟨low _, forall_mem_singleton.mpr (low _)⟩⟩⟩
    unfold IsContinuation
    rw [UInt8.toNat_ofNat']
    omega

/-- Encodings of different scalars never start the same text. -/
theorem utf8EncodeChar_unambiguous {c d : Char} {front back : List UInt8}
    (same : utf8EncodeChar c ++ front = utf8EncodeChar d ++ back) : c = d := by
  have decoded : ∀ (c : Char) (rest : List UInt8),
      (utf8EncodeChar c ++ rest).toByteArray.utf8DecodeChar? 0 = some c := by
    intro c rest
    rw [toByteArray_append]
    exact ByteArray.utf8DecodeChar?_utf8EncodeChar_append
  have left := decoded c front
  rw [same, decoded d back] at left
  exact (Option.some.inj left).symm

/-- Encoded text starts with an encoded needle exactly when the text starts with the needle. -/
theorem bytes_prefix_iff {needle text : List Char} : bytes needle <+: bytes text ↔ needle <+: text := by
  constructor
  · intro starts
    induction needle generalizing text with
    | nil => exact nil_prefix
    | cons c needle ih =>
      obtain ⟨rest, split⟩ := starts
      cases text with
      | nil =>
        have empty := append_eq_nil_iff.mp split
        exact absurd empty.1 (bytes_ne_nil (cons_ne_nil c needle))
      | cons =>
        rw [bytes_cons, bytes_cons, append_assoc] at split
        cases utf8EncodeChar_unambiguous split
        apply cons_prefix_cons.mpr
        exact ⟨rfl, ih ⟨rest, append_cancel_left split⟩⟩
  · rintro ⟨_, rfl⟩
    rw [bytes_append]
    exact prefix_append _ _

/-! ## Prefixes -/

/-- Bytes that more bytes could complete to a scalar; none at all are such. -/
def Unfinished (tail : List UInt8) : Prop :=
  ∃ c : Char, tail <+: utf8EncodeChar c ∧ tail.length < (utf8EncodeChar c).length

theorem unfinished_nil : Unfinished [] := ⟨'a', nil_prefix, String.length_utf8EncodeChar 'a' ▸ Char.utf8Size_pos 'a'⟩

theorem Unfinished.take {tail : List UInt8} (unfinished : Unfinished tail) (size : Nat) : Unfinished (tail.take size) := by
  obtain ⟨c, starts, shorter⟩ := unfinished
  refine ⟨c, (List.take_prefix size tail).trans starts, ?_⟩
  have bound := length_take_le' size tail
  omega

/-- Any prefix of encoded text is encoded text and an unfinished scalar. -/
theorem take_bytes (text : List Char) (size : Nat) :
    ∃ front tail, (bytes text).take size = bytes front ++ tail ∧ Unfinished tail := by
  induction text generalizing size with
  | nil => exact ⟨[], [], by simp, unfinished_nil⟩
  | cons c text ih =>
    rw [bytes_cons]
    rcases Nat.lt_or_ge size (utf8EncodeChar c).length with inside | past
    · refine ⟨[], (utf8EncodeChar c).take size, ?_, c, take_prefix size _, ?_⟩
      · rw [take_append_of_le_length (Nat.le_of_lt inside)]
        rfl
      · rw [length_take]
        omega
    · obtain ⟨front, tail, split, unfinished⟩ := ih (size - (utf8EncodeChar c).length)
      refine ⟨c :: front, tail, ?_, unfinished⟩
      rw [take_append, take_of_length_le past, split, bytes_cons, append_assoc]

/-- An unfinished scalar makes encoded text ill formed. -/
theorem decode_unfinished {front : List Char} {tail : List UInt8} (unfinished : Unfinished tail) (nonempty : tail ≠ []) :
    decode (bytes front ++ tail) = none := by
  rw [Option.eq_none_iff_forall_ne_some]
  intro text decoded
  have whole := decode_eq_some decoded
  obtain ⟨more, rfl⟩ := bytes_prefix_iff.mp ⟨tail, whole.symm⟩
  rw [bytes_append] at whole
  have ends := append_cancel_left whole
  obtain ⟨c, ⟨missing, starts⟩, shorter⟩ := unfinished
  cases more with
  | nil => exact nonempty ends.symm
  | cons d more =>
    rw [bytes_cons] at ends
    have same : utf8EncodeChar d ++ (bytes more ++ missing) = utf8EncodeChar c ++ [] := by
      rw [append_nil, ← starts, ← ends, append_assoc]
    cases utf8EncodeChar_unambiguous same
    rw [← ends, length_append] at shorter
    omega

section Marking

variable {marker : List Char} {needles : List (List Char)}

/-- Nothing encoded starts at a continuation byte. -/
theorem not_prefix_of_continuation {needle : List Char} {b : UInt8} {rest : List UInt8} (nonempty : needle ≠ [])
    (continuation : IsContinuation b) : ¬bytes needle <+: b :: rest := by
  intro starts
  cases needle with
  | nil => exact nonempty rfl
  | cons c =>
    obtain ⟨_, _, shape, start, _⟩ := utf8EncodeChar_shape c
    rw [bytes_cons, shape, cons_append, cons_prefix_cons] at starts
    rw [starts.1] at start
    exact start continuation

/-- A pass copies continuation bytes. -/
theorem mark_continuations (markerNonempty : marker ≠ []) (nonempty : ∀ needle ∈ needles, needle ≠ [])
    (inner rest : List UInt8) (continuations : ∀ b ∈ inner, IsContinuation b) :
    mark (bytes marker) (needles.map bytes) (inner ++ rest) =
      inner ++ mark (bytes marker) (needles.map bytes) rest := by
  induction inner with
  | nil => rfl
  | cons b inner ih =>
    have continuation := continuations b mem_cons_self
    have missing : nextNeedle (needles.map bytes) (b :: (inner ++ rest)) = none := by
      cases found : nextNeedle (needles.map bytes) (b :: (inner ++ rest)) with
      | none => rfl
      | some =>
        obtain ⟨member, starts⟩ := nextNeedle_some found
        obtain ⟨needle, listed, rfl⟩ := mem_map.mp member
        exact absurd starts (not_prefix_of_continuation (nonempty needle listed) continuation)
    rw [cons_append, mark_plain missing (not_prefix_of_continuation markerNonempty continuation), ih]
    · rfl
    · intro b member
      exact continuations b (mem_cons_of_mem _ member)

/-- A pass over encoded text gives encoded text. -/
theorem mark_bytes (markerNonempty : marker ≠ []) (nonempty : ∀ needle ∈ needles, needle ≠ []) (text : List Char) :
    ∃ marked, mark (bytes marker) (needles.map bytes) (bytes text) = bytes marked := by
  induction length : text.length using Nat.strong_induction_on generalizing text with
  | _ size ih =>
    subst length
    -- After a marker or a needle the pass goes on at a boundary.
    have onward : ∀ covered rest, covered ≠ [] → text = covered ++ rest → ∃ marked,
        bytes marker ++ mark (bytes marker) (needles.map bytes) ((bytes text).drop (bytes covered).length) =
          bytes marked := by
      intro covered rest covers split
      have positive := length_pos_iff.mpr covers
      obtain ⟨marked, known⟩ := ih rest.length (by rw [split, length_append]; omega) rest rfl
      refine ⟨marker ++ marked, ?_⟩
      rw [split, bytes_append, drop_left, known, bytes_append]
    cases found : nextNeedle (needles.map bytes) (bytes text) with
    | some =>
      obtain ⟨member, starts⟩ := nextNeedle_some found
      obtain ⟨needle, listed, rfl⟩ := mem_map.mp member
      by_cases copied : bytes marker <+: bytes text ∧ (bytes needle).length ≤ (bytes marker).length
      · obtain ⟨rest, split⟩ := bytes_prefix_iff.mp copied.1
        rw [mark_marker (bytes_ne_nil markerNonempty) copied.1]
        · exact onward marker rest markerNonempty split.symm
        · intro other sameFound
          rw [found] at sameFound
          cases sameFound
          exact copied.2
      · obtain ⟨rest, split⟩ := bytes_prefix_iff.mp starts
        rw [mark_needle (bytes_ne_nil (nonempty needle listed)) found copied]
        exact onward needle rest (nonempty needle listed) split.symm
    | none =>
      by_cases starts : bytes marker <+: bytes text
      · obtain ⟨rest, split⟩ := bytes_prefix_iff.mp starts
        rw [mark_marker (bytes_ne_nil markerNonempty) starts]
        · exact onward marker rest markerNonempty split.symm
        · intro other sameFound
          rw [found] at sameFound
          contradiction
      · cases text with
        | nil => exact ⟨[], rfl⟩
        | cons c rest =>
          obtain ⟨_, inner, shape, _, continuations⟩ := utf8EncodeChar_shape c
          obtain ⟨marked, known⟩ := ih rest.length (by simp) rest rfl
          refine ⟨c :: marked, ?_⟩
          rw [bytes_cons, shape, cons_append] at found starts ⊢
          rw [mark_plain found starts, mark_continuations markerNonempty nonempty inner _ continuations, known,
            bytes_cons, shape, cons_append]

end Marking

end Opaal.Text
