import Opaal.Runtime.JsonDecoderReads

/-!
# Strings as the decoder reads them

Escapes, surrogate pairs and scalars of several bytes: on text the scanner over bytes
returns the characters that the reader of text returns, and none of its expectations about
validated bytes fails.
-/

namespace Opaal.Runtime.JsonDecoder

open Opaal.Machine
open Opaal.Text (bytes)
open Follows (gets modifies refuses returns)
open Json

variable {β γ : Type} {input : DecoderInput β} {decoder : JsonDecoder} {text : List Char}

/-! ## Escapes -/

theorem charFromU32_follows (number : Nat) (rest : decoder.rest = bytes text) :
    Follows input decoder (charFromU32 number) (encoded ((scalar number).map fun c => (c, text))) := by
  unfold charFromU32 scalar
  by_cases valid : number.isValidChar
  · rw [if_pos valid, if_pos valid]
    exact returns_text rest
  · rw [if_neg valid, if_neg valid]
    exact refuses

/-- The reader's match on two characters, one after the other. -/
theorem readUnicode_eq (text : List Char) : readUnicode text = (readHex4 text).bind fun (first, rest) =>
    if isHighSurrogate first then
      (readChar '\\' rest).bind fun (_, rest) => (readChar 'u' rest).bind fun (_, rest) =>
        (readHex4 rest).bind fun (second, rest) =>
          if isLowSurrogate second then (scalar (surrogatePair first second)).map fun c => (c, rest)
          else none
    else (scalar first).map fun c => (c, rest) := by
  unfold readUnicode
  cases readHex4 text with
  | none => rfl
  | some found =>
    obtain ⟨first, rest⟩ := found
    simp only [Option.bind_eq_bind, Option.bind_some]
    cases isHighSurrogate first with
    | false => rfl
    | true =>
      match rest with
      | [] => rfl
      | [c] =>
        by_cases slash : c = '\\'
        · subst slash
          rfl
        · simp [readChar, slash]
      | c :: d :: rest =>
        by_cases slash : c = '\\'
        · by_cases letter : d = 'u'
          · subst slash letter
            rfl
          · subst slash
            simp [readChar, letter]
        · simp [readChar, slash]

theorem unicodeEscape_follows (rest : decoder.rest = bytes text) :
    Follows input decoder unicodeEscape (encoded (readUnicode text)) := by
  rw [readUnicode_eq]
  apply (hex4_follows rest).chain
  intro first left after _ rest
  by_cases high : 0xd800 ≤ first ∧ first ≤ 0xdbff
  · have isHigh : isHighSurrogate first = true := by
      unfold isHighSurrogate
      simpa using high
    simp only [if_pos high, isHigh, ↓reduceIte]
    apply (expect_text (by decide) rest).chain
    intro _ left after _ rest
    apply (expect_text (by decide) rest).chain
    intro _ left after _ rest
    apply (hex4_follows rest).chain
    intro second left after _ rest
    by_cases low : 0xdc00 ≤ second ∧ second ≤ 0xdfff
    · have isLow : isLowSurrogate second = true := by
        unfold isLowSurrogate
        simpa using low
      have sum : 0x10000 + (first - 0xd800) <<< 10 + second - 0xdc00 = surrogatePair first second := by
        unfold surrogatePair
        omega
      rw [if_pos low, sum]
      simp only [isLow, ↓reduceIte]
      generalize surrogatePair first second = number
      exact charFromU32_follows number rest
    · have isLow : isLowSurrogate second = false := by
        unfold isLowSurrogate
        simpa using low
      simp only [if_neg low, isLow, Bool.false_eq_true, ↓reduceIte]
      exact refuses
  · have isHigh : isHighSurrogate first = false := by
      unfold isHighSurrogate
      simpa using high
    simp only [if_neg high, isHigh, Bool.false_eq_true, ↓reduceIte]
    exact charFromU32_follows _ rest

theorem readEscape_none {c : Char} {more : List Char} (unicode : c ≠ 'u')
    (short : c ≠ '"' ∧ c ≠ '\\' ∧ c ≠ '/' ∧ c ≠ 'b' ∧ c ≠ 'f' ∧ c ≠ 'n' ∧ c ≠ 'r' ∧ c ≠ 't') :
    readEscape (c :: more) = none := by
  have unknown : Json.shortEscape c = none := by
    unfold Json.shortEscape
    split <;> simp_all
  unfold readEscape
  split
  · next same =>
    cases same
    exact absurd rfl unicode
  · next same =>
    cases same
    rw [unknown]
    rfl
  · contradiction

theorem escape_follows (rest : decoder.rest = bytes text) :
    Follows input decoder escape (encoded (readEscape text)) := by
  cases text with
  | nil => exact follows_stops (bump_nil rest)
  | cons c more =>
    obtain ⟨lead, _, encoding, leads⟩ := Text.encode_lead c
    rw [Text.bytes_cons, encoding, List.cons_append] at rest
    apply (bump_cons rest).step
    intro after left
    -- A byte that is compared with equals it only as the whole scalar.
    have alone : ∀ d : Char, d.toNat < 128 → lead = d.toUInt8 → c = d ∧ after.rest = bytes more := by
      intro d ascii same
      obtain ⟨whole, ends⟩ := leads d ascii same
      rw [ends] at left
      exact ⟨whole, left⟩
    have apart : ∀ d : Char, d.toNat < 128 → ¬lead = d.toUInt8 → c ≠ d := by
      intro d ascii different same
      subst same
      rw [Text.encode_ascii ascii] at encoding
      exact different (List.cons.inj encoding).1.symm
    split_ifs with quote slash solidus back feed line carriage tab unicode
    · obtain ⟨rfl, rest⟩ := alone _ (by decide) quote
      exact returns_text rest
    · obtain ⟨rfl, rest⟩ := alone _ (by decide) slash
      exact returns_text rest
    · obtain ⟨rfl, rest⟩ := alone _ (by decide) solidus
      exact returns_text rest
    · obtain ⟨rfl, rest⟩ := alone _ (by decide) back
      exact returns_text rest
    · obtain ⟨rfl, rest⟩ := alone _ (by decide) feed
      exact returns_text rest
    · obtain ⟨rfl, rest⟩ := alone _ (by decide) line
      exact returns_text rest
    · obtain ⟨rfl, rest⟩ := alone _ (by decide) carriage
      exact returns_text rest
    · obtain ⟨rfl, rest⟩ := alone _ (by decide) tab
      exact returns_text rest
    · obtain ⟨rfl, rest⟩ := alone _ (by decide) unicode
      exact unicodeEscape_follows rest
    · rw [readEscape_none (apart _ (by decide) unicode) ⟨apart _ (by decide) quote, apart _ (by decide) slash,
        apart _ (by decide) solidus, apart _ (by decide) back, apart _ (by decide) feed, apart _ (by decide) line,
        apart _ (by decide) carriage, apart _ (by decide) tab⟩]
      exact refuses

/-! ## Scalars of several bytes -/

theorem bumpMany_follows {front back : List UInt8} (rest : decoder.rest = front ++ back) :
    Follows input decoder (bumpMany front.length) (some (front, back)) := by
  induction front generalizing decoder with
  | nil =>
    rw [List.nil_append] at rest
    rw [← rest]
    exact returns []
  | cons _ _ ih =>
    apply (bump_cons rest).step
    intro after left
    apply (ih left).step
    intro final left
    rw [← left]
    exact returns _

theorem scalarWidth_eq {c : Char} (wide : 128 ≤ c.toNat) : ∃ lead more, String.utf8EncodeChar c = lead :: more ∧
    128 ≤ lead.toNat ∧ scalarWidth lead = some (more.length + 1) := by
  obtain ⟨lead, more, encoding, range⟩ := Text.encode_wide wide
  refine ⟨lead, more, encoding, by omega, ?_⟩
  unfold scalarWidth
  simp only [UInt8.le_iff_toNat_le, UInt8.reduceToNat]
  rcases range with ⟨low, high, length⟩ | ⟨low, high, length⟩ | ⟨low, high, length⟩
  · rw [if_pos ⟨low, high⟩, length]
  · rw [if_neg (by omega), if_pos ⟨low, high⟩, length]
  · rw [if_neg (by omega), if_neg (by omega), if_pos ⟨low, high⟩, length]

theorem wideScalar_follows {c : Char} {more : List Char} {lead : UInt8} {others : List UInt8}
    (encoding : String.utf8EncodeChar c = lead :: others) (width : scalarWidth lead = some (others.length + 1))
    (rest : decoder.rest = others ++ bytes more) :
    Follows input decoder (wideScalar lead) (encoded (some (c, more))) := by
  unfold wideScalar
  rw [width]
  apply (bumpMany_follows rest).step
  intro after left
  have one : bytes [c] = lead :: others := by
    rw [Text.bytes_cons, encoding, Text.bytes_nil, List.append_nil]
  rw [← one, Text.decode_bytes]
  exact returns_text left

theorem pushChar_follows (output : List Char) (c : Char) (rest : decoder.rest = bytes text) :
    Follows input decoder (pushChar output c) (encoded (some (output ++ [c], text))) := by
  have refill : Follows input decoder (refillOutput c.utf8Size) (some ((), decoder.rest)) := by
    apply gets
    split
    · apply visit_follows.step
      intro visited left
      rw [← left]
      exact modifies ⟨.refl _, rfl⟩ (returns ())
    · exact returns ()
  apply refill.step
  intro refilled left
  rw [rest] at left
  refine modifies ⟨.refl _, rfl⟩ ?_
  apply (retainCollectionBytes_follows _).step
  intro retained same
  exact returns_text (same.trans left)

/-! ## Strings -/

/-- One character of a string, or its end. -/
def readTurn (output : List Char) : Json.Reader (Turn (List Char) (List Char))
  | [] => none
  | c :: rest =>
    if c = '"' then some (.done output, rest)
    else if c.toNat < 0x20 then none
    else if c = '\\' then (readEscape rest).bind fun (c, rest) => some (.again (output ++ [c]), rest)
    else some (.again (output ++ [c]), rest)

theorem readText_eq (bound : Nat) (output text : List Char) : readText (bound + 1) output text =
    (readTurn output text).bind fun (turn, rest) =>
      match turn with
      | .done result => some (result, rest)
      | .again output => readText bound output rest := by
  cases text with
  | nil => rfl
  | cons _ rest =>
    rw [readText, readTurn]
    split_ifs with quote control slash
    · rfl
    · rfl
    · cases readEscape rest with
      | none | some => rfl
    · rfl

/-- Every turn consumes something. -/
theorem readTurn_shorter {output text rest : List Char} {turn : Turn (List Char) (List Char)}
    (read : readTurn output text = some (turn, rest)) : Text.width rest < Text.width text := by
  cases text with
  | nil => contradiction
  | cons c more =>
    have positive := Char.utf8Size_pos c
    rw [Text.width_cons]
    rw [readTurn] at read
    split_ifs at read with quote control slash
    · cases read
      omega
    · obtain ⟨⟨d, after⟩, escape, same⟩ := Option.bind_eq_some_iff.mp read
      cases same
      obtain ⟨front, _, rfl⟩ := Json.readEscape_sound escape
      rw [Text.width_append]
      omega
    · cases read
      omega

theorem pushes_again (output : List Char) (c : Char) (rest : decoder.rest = bytes text) :
    Follows input decoder (do return .again (← pushChar output c) : DecodeM β (Turn (List Char) (List Char)))
      (encoded (some (.again (output ++ [c]), text))) := by
  apply (pushChar_follows output c rest).step
  intro after left
  exact returns_text left

theorem stringTurn_follows (output : List Char) (rest : decoder.rest = bytes text) :
    Follows input decoder (stringTurn output) (encoded (readTurn output text)) := by
  cases text with
  | nil => exact follows_stops (bump_nil rest)
  | cons c more =>
    rw [readTurn]
    rcases Nat.lt_or_ge c.toNat 128 with small | wide
    · apply (bump_ascii small rest).step
      intro after left
      have number := Text.toNat_toUInt8 small
      by_cases quote : c = '"'
      · subst quote
        exact returns_text left
      rw [if_neg (fun same => quote (Text.toUInt8_inj small (by decide) same)), if_neg quote]
      by_cases control : c.toNat < 0x20
      · rw [if_pos (by rw [UInt8.le_iff_toNat_le, number]; exact Nat.le_of_lt_succ control), if_pos control]
        exact refuses
      rw [if_neg (by rw [UInt8.le_iff_toNat_le, number]; exact fun below => control (Nat.lt_succ_of_le below)), if_neg control]
      by_cases slash : c = '\\'
      · subst slash
        apply (escape_follows left).chain
        intro d after' final _ left
        exact pushes_again output d left
      rw [if_neg (fun same => slash (Text.toUInt8_inj small (by decide) same)), if_neg slash,
        if_pos (by rw [UInt8.le_iff_toNat_le, number]; exact Nat.le_of_lt_succ small), number, Char.ofNat_toNat]
      exact pushes_again output c left
    · obtain ⟨lead, others, encoding, large, width⟩ := scalarWidth_eq wide
      rw [Text.bytes_cons, encoding, List.cons_append] at rest
      apply (bump_cons rest).step
      intro after left
      have apart : ∀ d : Char, d.toNat < 128 → lead ≠ d.toUInt8 ∧ c ≠ d := by
        intro d ascii
        have number := Text.toNat_toUInt8 ascii
        constructor
        all_goals
          rintro rfl
          omega
      have printable : ¬c.toNat < 0x20 := by omega
      have above : ∀ bound : UInt8, bound.toNat < 128 → ¬lead ≤ bound := by
        intro bound small below
        have order : lead.toNat ≤ bound.toNat := below
        omega
      rw [if_neg (apart '"' (by decide)).1, if_neg (apart '"' (by decide)).2, if_neg (above 0x1f (by decide)),
        if_neg printable, if_neg (apart '\\' (by decide)).1, if_neg (apart '\\' (by decide)).2,
        if_neg (above 0x7f (by decide))]
      apply (wideScalar_follows encoding width left).step
      intro final left
      exact pushes_again output c left

theorem stringTurns_follows (bound : Nat) (output : List Char) (enough : Text.width text < bound)
    (rest : decoder.rest = bytes text) :
    Follows input decoder (repeatFrom .unbounded stringTurn bound output) (encoded (readText bound output text)) := by
  induction bound generalizing decoder text output with
  | zero => omega
  | succ bound ih =>
    rw [readText_eq]
    apply (stringTurn_follows output rest).chain
    intro turn left after read rest
    have shorter := readTurn_shorter read
    cases turn with
    | done => exact returns_text rest
    | again output => exact ih output (by omega) rest

theorem string_follows (rest : decoder.rest = bytes text) :
    Follows input decoder string (encoded (readString text)) := by
  have split : readString text =
      (readChar '"' text).bind fun (_, rest) => readText (Text.width rest + 1) [] rest := by
    unfold readString
    split
    · rfl
    · next other =>
      cases text with
      | nil => rfl
      | cons c more =>
        have different : ¬c = '"' := fun same => other more (by rw [same])
        simp [readChar, different]
  rw [split]
  apply (expect_text (by decide) rest).chain
  intro _ left after _ rest
  apply gets
  rw [rest, Text.bytes_length]
  exact stringTurns_follows _ [] (Nat.lt_succ_self _) rest

end Opaal.Runtime.JsonDecoder
