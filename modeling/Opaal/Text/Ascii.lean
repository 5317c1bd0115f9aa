import Opaal.Text.Decode

/-!
# ASCII bytes of encoded text

Scalars below 128 are encoded by the byte with their number, and all others start with a
byte that tells how long the encoding is.
-/

namespace Opaal.Text

open List

theorem toNat_toUInt8 {c : Char} (ascii : c.toNat < 128) : c.toUInt8.toNat = c.toNat := by
  unfold Char.toUInt8
  show c.toNat % 2 ^ 8 = c.toNat
  omega

/-- A test of the ASCII scalars one by one. -/
theorem forall_ascii {test : Char → Bool} (all : ((List.range 128).all fun n => test (Char.ofNat n)) = true) {c : Char}
    (ascii : c.toNat < 128) : test c = true := by
  rw [all_eq_true] at all
  have tested := all c.toNat (mem_range.mpr ascii)
  rw [Char.ofNat_toNat] at tested
  exact tested

/-- A test of the other bytes one by one. -/
theorem forall_wide_byte {test : UInt8 → Bool} (all : ((List.range 128).all fun n => test (UInt8.ofNat (128 + n))) = true)
    {byte : UInt8} (wide : 128 ≤ byte.toNat) : test byte = true := by
  rw [all_eq_true] at all
  have bound := byte.toNat_lt
  have tested := all (byte.toNat - 128) (mem_range.mpr (by omega))
  rw [Nat.add_sub_cancel' wide, UInt8.ofNat_toNat] at tested
  exact tested

theorem toUInt8_inj {c d : Char} (left : c.toNat < 128) (right : d.toNat < 128) (same : c.toUInt8 = d.toUInt8) : c = d := by
  apply Char.toNat_inj.mp
  rw [← toNat_toUInt8 left, ← toNat_toUInt8 right, same]

/-- An ASCII scalar is one byte. -/
theorem encode_ascii {c : Char} (ascii : c.toNat < 128) : String.utf8EncodeChar c = [c.toUInt8] := by
  unfold String.utf8EncodeChar
  have small : c.val.toNat ≤ 127 := Nat.le_of_lt_succ ascii
  simp only [small, ↓reduceIte]
  rfl

theorem bytes_ascii {c : Char} (ascii : c.toNat < 128) (rest : List Char) : bytes (c :: rest) = c.toUInt8 :: bytes rest := by
  rw [bytes_cons, encode_ascii ascii]
  rfl

/-- Any other scalar starts with a byte from `0xc2` to `0xf4` that fixes how many there are. -/
theorem encode_wide {c : Char} (wide : 128 ≤ c.toNat) : ∃ lead more, String.utf8EncodeChar c = lead :: more ∧
    ((0xc2 ≤ lead.toNat ∧ lead.toNat ≤ 0xdf ∧ more.length = 1) ∨ (0xe0 ≤ lead.toNat ∧ lead.toNat ≤ 0xef ∧ more.length = 2) ∨
      (0xf0 ≤ lead.toNat ∧ lead.toNat ≤ 0xf4 ∧ more.length = 3)) := by
  have bound : c.toNat < 0x110000 := by
    have valid := c.valid
    show c.val.toNat < 0x110000
    omega
  have number : c.val.toNat = c.toNat := rfl
  unfold String.utf8EncodeChar
  simp only [number]
  split
  · omega
  split
  · refine ⟨_, _, rfl, .inl ?_⟩
    rw [UInt8.toNat_ofNat']
    simp only [length_singleton, and_true]
    omega
  split
  · refine ⟨_, _, rfl, .inr (.inl ?_)⟩
    rw [UInt8.toNat_ofNat']
    simp only [length_cons, length_nil, and_true]
    omega
  · refine ⟨_, _, rfl, .inr (.inr ?_)⟩
    rw [UInt8.toNat_ofNat']
    simp only [length_cons, length_nil, and_true]
    omega

/-- The first byte of a scalar is that of an ASCII scalar only when it is that one. -/
theorem encode_lead (c : Char) : ∃ lead more, String.utf8EncodeChar c = lead :: more ∧
    ∀ d : Char, d.toNat < 128 → lead = d.toUInt8 → c = d ∧ more = [] := by
  rcases Nat.lt_or_ge c.toNat 128 with small | wide
  · refine ⟨c.toUInt8, [], encode_ascii small, ?_⟩
    intro d ascii same
    exact ⟨toUInt8_inj small ascii same, rfl⟩
  · obtain ⟨lead, more, encoding, range⟩ := encode_wide wide
    refine ⟨lead, more, encoding, ?_⟩
    intro d ascii same
    have number := toNat_toUInt8 ascii
    rw [← same] at number
    omega

/-- An ASCII byte stands for its scalar wherever it is. -/
theorem mem_bytes_ascii {d : Char} (ascii : d.toNat < 128) {text : List Char} (member : d.toUInt8 ∈ bytes text) : d ∈ text := by
  induction text with
  | nil => contradiction
  | cons c rest ih =>
    rw [bytes_cons, mem_append] at member
    rcases member with here | later
    · obtain ⟨lead, more, encoded, only⟩ := encode_lead c
      obtain ⟨_, _, shape, _, continues⟩ := utf8EncodeChar_shape c
      rw [encoded, List.cons.injEq] at shape
      obtain ⟨rfl, rfl⟩ := shape
      rw [encoded] at here
      rcases mem_cons.mp here with same | inner
      · rw [(only d ascii same.symm).1]
        exact mem_cons_self
      · have high := (continues _ inner).1
        rw [toNat_toUInt8 ascii] at high
        omega
    · exact mem_cons_of_mem _ (ih later)

/-- The first byte of a text is an ASCII byte exactly when its first scalar is that one. -/
theorem head_bytes_eq {expected : Char} (ascii : expected.toNat < 128) {text : List Char} :
    (bytes text).head? = some expected.toUInt8 ↔ ∃ rest, text = expected :: rest := by
  constructor
  · intro head
    cases text with
    | nil => contradiction
    | cons c rest =>
      rcases Nat.lt_or_ge c.toNat 128 with small | wide
      · rw [bytes_ascii small, List.head?_cons, Option.some.injEq] at head
        exact ⟨rest, by rw [toUInt8_inj small ascii head]⟩
      · obtain ⟨lead, more, encoded, range⟩ := encode_wide wide
        rw [bytes_cons, encoded, cons_append, List.head?_cons, Option.some.injEq] at head
        have number := toNat_toUInt8 ascii
        rw [← head] at number
        omega
  · rintro ⟨rest, rfl⟩
    rw [bytes_ascii ascii, List.head?_cons]

end Opaal.Text
