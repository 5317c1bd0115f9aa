import Opaal.Runtime.Utf8Validation
import Opaal.Text.Pieces

/-!
# Matching one component

Every token of a component pattern denotes a language of native characters.  The rows of the
matcher compute the product of these languages, so a name is matched exactly when it can be divided
into pieces that the tokens denote; a name that starts with a dot needs one in front of the pattern.
-/

namespace Opaal.Runtime.Glob

open List

open Opaal.Text

/-! ## Native characters -/

theorem lossy_unfinished {rest : List UInt8} {α : Type} (scalar : Char → List α) (raw : UInt8 → List α)
    (stuck : nextScalar rest = none) {size : Nat} (part : size = 1 ∨ Text.Unfinished (rest.take size)) (some : 0 < size) :
    lossy scalar raw rest = (rest.take size).flatMap raw ++ lossy scalar raw (rest.drop size) := by
  cases rest with
  | nil => simp
  | cons b rest =>
    obtain ⟨more, rfl⟩ : ∃ more, size = more + 1 := ⟨size - 1, by omega⟩
    have continuations : ∀ inner ∈ rest.take more, Text.IsContinuation inner := by
      intro inner member
      rcases part with one | ⟨c, starts, _⟩
      · have none : more = 0 := by omega
        rw [none, take_zero] at member
        contradiction
      · obtain ⟨_, _, shape, _, each⟩ := Text.utf8EncodeChar_shape c
        rw [take_succ_cons, shape, cons_prefix_cons] at starts
        exact each inner (starts.2.subset member)
    have onward := Text.lossy_continuations scalar raw continuations (rest.drop more)
    rw [take_append_drop] at onward
    rw [Text.lossy_raw scalar raw stuck, onward, take_succ_cons, drop_succ_cons, flatMap_cons,
      append_assoc]

/-- The characters of a name are its scalars, and one by one the bytes that belong to none. -/
theorem nativeCharsFrom_eq (bound : Nat) (name : List UInt8) (enough : name.length < bound) :
    nativeCharsFrom bound name = lossy (fun c => [.unicode c]) (fun b => [.invalid b]) name := by
  induction bound generalizing name with
  | zero => omega
  | succ bound ih =>
    obtain ⟨front, rest, rfl, stuck⟩ := Text.exists_text name
    unfold nativeCharsFrom
    by_cases empty : rest = []
    · subst empty
      rw [append_nil, Text.decode_bytes]
      have read := Text.lossy_bytes (fun c => [NativeChar.unicode c]) (fun b => [.invalid b]) front []
      rw [append_nil, Text.lossy_nil, append_nil] at read
      rw [read, ← map_eq_flatMap]
      by_cases blank : front = []
      · rw [blank]
        rfl
      · rw [if_neg (Text.bytes_ne_nil blank)]
    · have positive := length_pos_iff.mpr empty
      obtain ⟨size, isSize, part, some⟩ : ∃ size, min ((errorLen rest).getD 1) rest.length = size ∧
          (size = 1 ∨ Text.Unfinished (rest.take size)) ∧ 0 < size := by
        by_cases unfinished : Text.Unfinished rest
        · rw [errorLen_unfinished unfinished, Option.getD_none]
          exact ⟨1, by omega, .inl rfl, Nat.one_pos⟩
        · rw [errorLen_finished unfinished empty, Option.getD_some, Nat.min_eq_left (Text.subpart_le empty)]
          exact ⟨_, rfl, Text.subpart_begins rest, Text.subpart_pos rest⟩
      rw [if_neg (fun none => empty (append_eq_nil_iff.mp none).2), decode_stuck stuck empty, validUpTo_stuck stuck]
      dsimp only
      have shorter : (rest.drop size).length < bound := by
        rw [length_append] at enough
        rw [length_drop]
        omega
      rw [take_left, Text.decode_bytes, Option.getD_some, drop_left, isSize, ih _ shorter, Text.lossy_bytes,
        lossy_unfinished _ _ stuck part some, map_eq_flatMap, map_eq_flatMap, append_assoc]

theorem nativeChars_eq (name : Name) : nativeChars name = lossy (fun c => [.unicode c]) (fun b => [.invalid b]) name :=
  nativeCharsFrom_eq _ name (Nat.lt_succ_self _)

/-! ## Tokens -/

/-- Some range of the class holds the character. -/
def CharacterClass.Contains (items : CharacterClass) (character : NativeChar) : Prop :=
  ∃ range ∈ items.ranges, nativeOrder range.1 ≤ nativeOrder character ∧ nativeOrder character ≤ nativeOrder range.2

/-- The pieces of a name that a token denotes. -/
def PatternAtom.Denotes : PatternAtom → List NativeChar → Prop
  | .literal expected, piece => piece = [expected]
  | .anyOne, piece => ∃ character, piece = [character]
  | .anyMany, _ => True
  | .characterClass items, piece => ∃ character, piece = [character] ∧ (items.Contains character ↔ items.negated = false)

def denoted (atom : PatternAtom) : Language NativeChar := {piece | atom.Denotes piece}

theorem CharacterClass.contained_iff (items : CharacterClass) (character : NativeChar) :
    (items.ranges.any fun (start, stop) =>
      nativeOrder start ≤ nativeOrder character && nativeOrder character ≤ nativeOrder stop) = true ↔
      items.Contains character := by
  unfold CharacterClass.Contains
  simp

theorem CharacterClass.matches_iff (items : CharacterClass) (character : NativeChar) :
    items.matches character = true ↔ (items.Contains character ↔ items.negated = false) := by
  unfold CharacterClass.matches
  rw [← items.contained_iff, bne_iff_ne]
  cases items.negated <;> cases List.any items.ranges _ <;> simp

theorem denoted_literal (expected : NativeChar) : denoted (.literal expected) = letters (· == expected) := by
  ext piece
  show piece = [expected] ↔ _
  constructor
  · rintro rfl
    exact ⟨expected, by simp, rfl⟩
  · rintro ⟨_, same, rfl⟩
    rw [beq_iff_eq.mp same]

theorem denoted_anyOne : denoted .anyOne = letters fun _ => true := by
  ext piece
  show (∃ character, piece = [character]) ↔ _
  rw [Text.mem_letters]
  simp

theorem denoted_characterClass (items : CharacterClass) : denoted (.characterClass items) = letters items.matches := by
  ext piece
  rw [Text.mem_letters]
  simp only [CharacterClass.matches_iff]
  exact exists_congr fun character => and_comm

/-! ## Rows -/

theorem prefixOr_length (seen : Bool) (row : List Bool) : (prefixOr seen row).length = row.length := by
  induction row generalizing seen with
  | nil => rfl
  | cons _ _ ih => rw [prefixOr, length_cons, length_cons, ih]

theorem prefixOr_getElem (seen : Bool) (row : List Bool) (place : Nat) (inside : place < row.length) :
    (prefixOr seen row)[place]? = some true ↔ seen = true ∨ ∃ before ≤ place, row[before]? = some true := by
  induction row generalizing seen place with
  | nil => simp at inside
  | cons here row ih =>
    rw [prefixOr]
    cases place with
    | zero => simp
    | succ place =>
      rw [length_cons, Nat.add_lt_add_iff_right] at inside
      rw [List.getElem?_cons_succ, ih _ place inside, Bool.or_eq_true, or_assoc]
      refine or_congr Iff.rfl ?_
      constructor
      · rintro (now | ⟨before, smaller, holds⟩)
        · exact ⟨0, Nat.zero_le _, by rw [List.getElem?_cons_zero, now]⟩
        · exact ⟨before + 1, by omega, holds⟩
      · rintro ⟨before, smaller, holds⟩
        cases before with
        | zero => exact .inl (by simpa using holds)
        | succ before => exact .inr ⟨before, by omega, holds⟩

variable {chars : List NativeChar} {language : Language NativeChar} {pattern : ComponentPattern}

/-- One token more. -/
theorem advance_row {row : List Bool} (known : Row chars language row) (atom : PatternAtom) : Row chars (language * denoted atom) (advance chars row atom) := by
  cases atom with
  | literal expected =>
    rw [denoted_literal]
    exact known.letter (· == expected)
  | anyOne =>
    have next := known.letter fun _ => true
    simp only [Bool.and_true] at next
    rw [denoted_anyOne]
    exact next
  | anyMany =>
    refine known.run (prefixOr_length false row) ?_
    intro place inside
    rw [advance, prefixOr_getElem false row place inside]
    simp
  | characterClass items =>
    rw [denoted_characterClass]
    exact known.letter items.matches

theorem rows (atoms : List PatternAtom) {row : List Bool} (known : Row chars language row) :
    Row chars (language * (atoms.map denoted).prod) (atoms.foldl (advance chars) row) := by
  induction atoms generalizing language row with
  | nil =>
    rw [map_nil, prod_nil, mul_one]
    exact known
  | cons atom _ ih =>
    rw [map_cons, prod_cons, ← mul_assoc]
    exact ih (advance_row known atom)

/-- The name can be divided into pieces that the tokens denote, in order. -/
def Divided (atoms : List PatternAtom) (chars : List NativeChar) : Prop :=
  ∃ pieces : List (List NativeChar), List.Forall₂ PatternAtom.Denotes atoms pieces ∧ pieces.flatten = chars

theorem divided_iff (atoms : List PatternAtom) (chars : List NativeChar) :
    Divided atoms chars ↔ InPieces (atoms.map denoted) chars := by
  unfold Divided InPieces
  simp only [List.forall₂_map_left_iff]
  rfl

/-- Only a dot in front of a pattern reaches hidden names. -/
def Visible (atoms : List PatternAtom) (chars : List NativeChar) : Prop :=
  chars.head? = some (.unicode '.') → atoms.head? = some (.literal (.unicode '.'))

theorem matches_iff (parsed : pattern.explicitHidden = (pattern.atoms.head? == some (.literal (.unicode '.')))) (name : Name) :
    pattern.matches name = true ↔ Visible pattern.atoms (nativeChars name) ∧ Divided pattern.atoms (nativeChars name) := by
  have last := (rows pattern.atoms (Row.start (nativeChars name))).last
  rw [one_mul, Text.mem_prod_iff, ← divided_iff] at last
  unfold ComponentPattern.matches Visible startsWithDot
  rw [parsed]
  by_cases hidden : (nativeChars name).head? = some (.unicode '.')
  · by_cases explicit : pattern.atoms.head? = some (.literal (.unicode '.'))
    · simp [hidden, explicit, last]
    · simp [hidden, explicit]
  · simp [hidden, beq_eq_false_iff_ne.mpr hidden, last]

theorem parse_explicitHidden (parsed : ComponentPattern.parse chars = .ok pattern) :
    pattern.explicitHidden = (pattern.atoms.head? == some (.literal (.unicode '.'))) := by
  unfold ComponentPattern.parse at parsed
  cases atoms : parseAtoms (chars.length + 1) chars [] with
  | error error =>
    rw [atoms] at parsed
    contradiction
  | ok =>
    rw [atoms] at parsed
    cases parsed
    rfl

/-! ## Escapes -/

/-- Characters that stand for something else than themselves. -/
def special (character : NativeChar) : Bool :=
  character == .unicode '\\' || character == .unicode '*' || character == .unicode '?' || character == .unicode '['

def NativeChar.encode : NativeChar → List UInt8
  | .unicode c => String.utf8EncodeChar c
  | .invalid b => [b]

def backslash : UInt8 := '\\'.toUInt8

section Escapes

variable (escape : NativeChar → Bool)

/-- The spelling of a name with a backslash in front of the characters that are escaped. -/
def escapedSpelling (name : Name) : Name :=
  (nativeChars name).flatMap fun character => (if escape character then [backslash] else []) ++ character.encode

/-- The same as characters. -/
def escapedChars (chars : List NativeChar) : List NativeChar :=
  chars.flatMap fun character => (if escape character then [.unicode '\\'] else []) ++ [character]

theorem escapedSpelling_nil : escapedSpelling escape [] = [] := by
  unfold escapedSpelling
  rw [nativeChars_eq, Text.lossy_nil, flatMap_nil]

theorem escapedSpelling_scalar (c : Char) (rest : Name) : escapedSpelling escape (String.utf8EncodeChar c ++ rest) =
    (if escape (.unicode c) then [backslash] else []) ++ (String.utf8EncodeChar c ++ escapedSpelling escape rest) := by
  unfold escapedSpelling
  rw [nativeChars_eq, nativeChars_eq, Text.lossy_scalar, flatMap_append, flatMap_singleton, append_assoc]
  rfl

theorem escapedSpelling_raw {b : UInt8} {rest : Name} (stuck : nextScalar (b :: rest) = none) : escapedSpelling escape (b :: rest) =
    (if escape (.invalid b) then [backslash] else []) ++ b :: escapedSpelling escape rest := by
  unfold escapedSpelling
  rw [nativeChars_eq, nativeChars_eq, Text.lossy_raw _ _ stuck, flatMap_append, flatMap_singleton, append_assoc]
  rfl

/-- A name is spelled by itself up to the first backslash that is put in. -/
theorem escapedSpelling_splits (name : Name) :
    escapedSpelling escape name = name ∨
      ∃ front back, escapedSpelling escape name = front ++ backslash :: back ∧ front <+: name := by
  have step : ∀ (here : NativeChar) (part rest : Name), (escapedSpelling escape rest = rest ∨
      ∃ front back, escapedSpelling escape rest = front ++ backslash :: back ∧ front <+: rest) →
      (if escape here then [backslash] else []) ++ (part ++ escapedSpelling escape rest) = part ++ rest ∨
        ∃ front back, (if escape here then [backslash] else []) ++ (part ++ escapedSpelling escape rest) =
          front ++ backslash :: back ∧ front <+: part ++ rest := by
    intro here part rest onward
    by_cases escaped : escape here
    · rw [if_pos escaped]
      exact .inr ⟨[], _, rfl, nil_prefix⟩
    · rw [if_neg escaped]
      rcases onward with same | ⟨front, back, split, starts⟩
      · rw [same]
        exact .inl rfl
      · rw [split]
        exact .inr ⟨part ++ front, back, by simp, (prefix_append_right_inj part).mpr starts⟩
  induction name using Text.scalars_induction with
  | nil => exact .inl (escapedSpelling_nil escape)
  | scalar c rest ih =>
    rw [escapedSpelling_scalar]
    exact step (.unicode c) (String.utf8EncodeChar c) rest ih
  | raw b rest stuck ih =>
    rw [escapedSpelling_raw escape stuck]
    exact step (.invalid b) [b] rest ih

/-- No scalar comes about between a byte and what is put behind it. -/
theorem stuck_spelled {b : UInt8} {rest : Name} (stuck : nextScalar (b :: rest) = none) :
    nextScalar (b :: escapedSpelling escape rest) = none := by
  rcases escapedSpelling_splits escape rest with same | ⟨front, back, split, starts⟩
  · rw [same]
    exact stuck
  · cases found : nextScalar (b :: escapedSpelling escape rest) with
    | none => rfl
    | some c =>
      obtain ⟨after, encoded⟩ := Text.nextScalar_eq_some found
      obtain ⟨lead, inner, shape, _, continuations⟩ := Text.utf8EncodeChar_shape c
      rw [split, shape, cons_append, List.cons.injEq] at encoded
      -- The scalar ends before the backslash, so the bytes of the name start with it.
      have before : inner <+: front := by
        rcases append_eq_append_iff.mp encoded.2 with ⟨inside, whole, behind⟩ | ⟨inside, whole, _⟩
        · cases inside with
          | nil => exact ⟨[], by rw [whole, append_nil, append_nil]⟩
          | cons byte =>
            rw [cons_append, List.cons.injEq] at behind
            have continuation := continuations byte (by rw [whole]; simp)
            rw [← behind.1] at continuation
            exact absurd continuation (by unfold Text.IsContinuation; decide)
        · exact ⟨inside, whole.symm⟩
      obtain ⟨more, continues⟩ := before.trans starts
      have known : nextScalar (b :: rest) = some c := by
        rw [encoded.1, ← continues, ← cons_append, ← shape]
        exact Text.nextScalar_encoded c more
      rw [stuck] at known
      contradiction

/-- The characters of a spelling. -/
theorem nativeChars_escapedSpelling (name : Name) :
    nativeChars (escapedSpelling escape name) = escapedChars escape (nativeChars name) := by
  have slash : ∀ more : Name, lossy (fun c => [NativeChar.unicode c]) (fun b => [.invalid b]) (backslash :: more) =
      .unicode '\\' :: lossy (fun c => [.unicode c]) (fun b => [.invalid b]) more := by
    intro more
    exact Text.lossy_scalar _ _ '\\' more
  have marked : ∀ (here : NativeChar) (more : Name), lossy (fun c => [NativeChar.unicode c]) (fun b => [.invalid b])
        ((if escape here then [backslash] else []) ++ more) =
      (if escape here then [.unicode '\\'] else []) ++ lossy (fun c => [.unicode c]) (fun b => [.invalid b]) more := by
    intro here more
    cases escape here with
    | false => rfl
    | true => exact slash more
  unfold escapedChars
  rw [nativeChars_eq, nativeChars_eq]
  induction name using Text.scalars_induction with
  | nil => rw [escapedSpelling_nil, Text.lossy_nil, flatMap_nil]
  | scalar _ _ ih =>
    rw [escapedSpelling_scalar, marked, Text.lossy_scalar, Text.lossy_scalar, ih, flatMap_append, flatMap_singleton,
      append_assoc]
  | raw _ _ stuck ih =>
    rw [escapedSpelling_raw escape stuck, marked, Text.lossy_raw _ _ (stuck_spelled escape stuck), Text.lossy_raw _ _ stuck, ih,
      flatMap_append, flatMap_singleton, append_assoc]

variable {escape} (escapes : ∀ character, special character = true → escape character = true)

include escapes

/-- A spelling is parsed as the characters of the name. -/
theorem parseAtoms_escaped (chars : List NativeChar) (bound : Nat) (enough : (escapedChars escape chars).length < bound)
    (atoms : List PatternAtom) :
    parseAtoms bound (escapedChars escape chars) atoms = .ok (atoms ++ chars.map .literal) := by
  induction chars generalizing bound atoms with
  | nil =>
    obtain ⟨more, rfl⟩ : ∃ more, bound = more + 1 := ⟨bound - 1, by omega⟩
    rw [escapedChars, flatMap_nil, parseAtoms, map_nil, append_nil]
  | cons character chars ih =>
    obtain ⟨more, rfl⟩ : ∃ more, bound = more + 1 := ⟨bound - 1, by omega⟩
    have whole : escapedChars escape (character :: chars) =
        (if escape character then [.unicode '\\'] else []) ++ character :: escapedChars escape chars := by
      unfold escapedChars
      rw [flatMap_cons, append_assoc]
      rfl
    rw [whole] at enough ⊢
    by_cases escaped : escape character
    · rw [if_pos escaped] at enough ⊢
      rw [singleton_append] at enough ⊢
      rw [parseAtoms, if_pos rfl, ih more (by simp only [length_cons] at enough; omega), map_cons, append_assoc, singleton_append]
    · rw [if_neg escaped, nil_append] at enough ⊢
      have plain : special character = false := by
        by_contra isSpecial
        exact escaped (escapes character (by simpa using isSpecial))
      unfold special at plain
      simp only [Bool.or_eq_false_iff, beq_eq_false_iff_ne] at plain
      unfold parseAtoms
      rw [if_neg plain.1.1.1, if_neg plain.1.1.2, if_neg plain.1.2, if_neg plain.2,
        ih more (by simp only [length_cons] at enough; omega), map_cons, append_assoc, singleton_append]

/-- No spelling recurses. -/
theorem escapedChars_ne_stars (chars : List NativeChar) : escapedChars escape chars ≠ [.unicode '*', .unicode '*'] := by
  cases chars with
  | nil => simp [escapedChars]
  | cons character =>
    intro same
    unfold escapedChars at same
    rw [flatMap_cons] at same
    by_cases escaped : escape character
    · rw [if_pos escaped] at same
      simp at same
    · rw [if_neg escaped, nil_append, singleton_append, List.cons.injEq] at same
      rw [same.1] at escaped
      exact escaped (escapes _ (by decide))

/-- The name is matched by its own spelling. -/
theorem escapedSpelling_matches (name : Name) :
    ∃ pattern, PatternSegment.parse (escapedSpelling escape name) = .ok (.component pattern) ∧ pattern.matches name = true := by
  obtain ⟨pattern, atoms, parsed⟩ : ∃ pattern : ComponentPattern, pattern.atoms = (nativeChars name).map .literal ∧
      ComponentPattern.parse (escapedChars escape (nativeChars name)) = .ok pattern := by
    unfold ComponentPattern.parse
    rw [parseAtoms_escaped escapes _ _ (Nat.lt_succ_self _), nil_append]
    exact ⟨_, rfl, rfl⟩
  refine ⟨pattern, ?_, ?_⟩
  · unfold PatternSegment.parse
    rw [nativeChars_escapedSpelling, if_neg (escapedChars_ne_stars escapes _), parsed]
    rfl
  · rw [matches_iff (parse_explicitHidden parsed), atoms]
    constructor
    · intro hidden
      rw [List.head?_map, hidden]
      rfl
    · refine ⟨(nativeChars name).map fun character => [character], ?_, ?_⟩
      · rw [List.forall₂_map_left_iff, List.forall₂_map_right_iff, List.forall₂_same]
        intro character _
        rfl
      · rw [← flatMap_def, flatMap_singleton']

omit escapes

end Escapes

/-! ## The matcher -/

/-- A parsed pattern matches the names that can be divided as its tokens say, and every name has
patterns that spell it. -/
theorem component_matching_correct :
    (∀ chars pattern, ComponentPattern.parse chars = .ok pattern → ∀ name, pattern.matches name = true ↔
      Visible pattern.atoms (nativeChars name) ∧ Divided pattern.atoms (nativeChars name)) ∧
    ∀ escape : NativeChar → Bool, (∀ character, special character = true → escape character = true) → ∀ name,
      ∃ pattern, PatternSegment.parse (escapedSpelling escape name) = .ok (.component pattern) ∧ pattern.matches name = true := by
  constructor
  · intro chars pattern parsed name
    exact matches_iff (parse_explicitHidden parsed) name
  · intro escape escapes name
    exact escapedSpelling_matches escapes name

/-- The pattern `[!a-c]*`. -/
def exceptFirstLetters : ComponentPattern :=
  ⟨[.characterClass ⟨true, [(.unicode 'a', .unicode 'c')]⟩, .anyMany], false⟩

theorem except_first_letters_matching : exceptFirstLetters.matches ['d'.toUInt8, 'a'.toUInt8] = true ↔
    Visible exceptFirstLetters.atoms (nativeChars ['d'.toUInt8, 'a'.toUInt8]) ∧
      Divided exceptFirstLetters.atoms (nativeChars ['d'.toUInt8, 'a'.toUInt8]) :=
  component_matching_correct.1 (['[', '!', 'a', '-', 'c', ']', '*'].map .unicode) exceptFirstLetters (by decide) _

end Opaal.Runtime.Glob
