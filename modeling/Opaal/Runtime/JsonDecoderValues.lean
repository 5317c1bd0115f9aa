import Opaal.Runtime.JsonDecoderKeys
import Opaal.Runtime.JsonDecoderStrings

/-!
# Values as the decoder reads them

Literals, numbers and containers.  On text the decoder returns what the reader of the
grammar returns when objects are built the way the visitor of the library builds them, level
by level.
-/

namespace Opaal.Runtime

open Opaal.Machine List
open Opaal.Text (bytes)
open Follows (asks gets peeks refuses rejected)
open Json

variable {F C : Type}

/-- The grammar's builder: a visitor, and the library for numbers. -/
def jsonBuilder {β : Type} (json : JsonLibrary β) (visitor : JsonVisitor β) : Json.Builder β where
  null := visitor.visitUnit
  bool := visitor.visitBool
  number token := (json.deserialize visitor (bytes token)).toOption
  string := visitor.visitStr
  array := visitor.visitSeq
  object := visitor.visitMap

namespace JsonDecoder

section Readers

variable {β γ : Type} {input : DecoderInput β} {decoder : JsonDecoder} {text : List Char}

theorem readLiteral_cons (c : Char) (expected text : List Char) :
    (if (c :: expected).isPrefixOf text then some ((), text.drop (c :: expected).length) else none) =
      (readChar c text).bind fun (_, rest) =>
        if expected.isPrefixOf rest then some ((), rest.drop expected.length) else none := by
  cases text with
  | nil => rfl
  | cons d =>
    by_cases same : d = c
    · subst same
      simp [readChar, List.isPrefixOf]
    · have apart : ¬c = d := fun equal => same equal.symm
      simp [readChar, List.isPrefixOf, same, apart]

theorem literal_follows (expected : List Char) (ascii : ∀ c ∈ expected, c.toNat < 128) (rest : decoder.rest = bytes text) :
    Follows input decoder (literal expected) (encoded (readLiteral expected () text)) := by
  unfold literal readLiteral
  induction expected generalizing decoder text with
  | nil => exact returns_text rest
  | cons c expected ih =>
    have small := ascii c mem_cons_self
    have others : ∀ d ∈ expected, d.toNat < 128 := fun d member => ascii d (mem_cons_of_mem c member)
    rw [readLiteral_cons]
    apply (expect_text small rest).chain
    intro _ left after _ rest
    exact ih others rest

/-- A reader never goes back. -/
def Shrinks (read : Json.Reader γ) : Prop := ∀ text value rest, read text = some (value, rest) → Text.width rest ≤ Text.width text

theorem shrinks_of_matches {read : Json.Reader γ} {spells : γ → List Char → Prop} (agrees : Json.Matches read spells) :
    Shrinks read := by
  intro text value rest found
  obtain ⟨before, core, _, _, rfl⟩ := agrees.sound _ _ _ found
  rw [Text.width_append]
  omega

theorem width_skipBlank (text : List Char) : Text.width (skipBlank text) ≤ Text.width text := by
  obtain ⟨before, _, split⟩ := Json.exists_blank text
  have widths := congrArg Text.width split
  rw [Text.width_append] at widths
  omega

variable {item : DecodeM β γ} {read : Json.Reader γ}

/-- What a program does on every text. -/
def Reads (input : DecoderInput β) (program : DecodeM β γ) (read : Json.Reader γ) : Prop :=
  ∀ (decoder : JsonDecoder) (text : List Char), decoder.rest = bytes text → Follows input decoder program (encoded (read text))

/-- The reader's match on a comma as a test of the next character. -/
theorem readItems_succ (bound : Nat) (items : List γ) (text : List Char) : readItems read (bound + 1) items text =
    (read text).bind fun (value, rest) =>
      if (skipBlank rest).head? = some ',' then readItems read bound (items ++ [value]) (skipBlank rest).tail
      else some (items ++ [value], skipBlank rest) := by
  rw [readItems]
  cases read text with
  | none => rfl
  | some =>
    simp only [Option.bind_eq_bind, Option.bind_some]
    split
    · next more comma => rw [comma, List.head?_cons, if_pos rfl, tail_cons]
    · next other =>
      rw [if_neg]
      intro head
      obtain ⟨more, comma⟩ := List.head?_eq_some_iff.mp head
      exact other more comma

theorem separated_follows (reads : Reads input item read) (shrinks : Shrinks read) (bound : Nat) (items : List γ)
    (enough : Text.width text < bound) (rest : decoder.rest = bytes text) :
    Follows input decoder (repeatFrom .unbounded (separatedTurn item) bound items)
      (encoded (readItems read bound items text)) := by
  induction bound generalizing decoder text items with
  | zero => omega
  | succ bound ih =>
    rw [readItems_succ]
    unfold repeatFrom separatedTurn
    rw [bind_assoc]
    apply (reads decoder text rest).chain
    intro value left after found rest
    rw [bind_assoc]
    apply (whitespace_follows rest).step
    intro skipped rest
    rw [bind_assoc]
    apply peeks
    have shorter := shrinks _ _ _ found
    have trimmed := width_skipBlank left
    by_cases comma : (skipBlank left).head? = some ','
    · obtain ⟨more, start⟩ := List.head?_eq_some_iff.mp comma
      simp only [start, List.head?_cons, ↓reduceIte, tail_cons]
      rw [start] at rest trimmed
      have head : (bytes (',' :: more)).head? = some ','.toUInt8 := (Text.head_bytes_eq (by decide)).mpr ⟨more, rfl⟩
      rw [rest, head, if_neg (by simp), bind_assoc]
      apply (bump_ascii (by decide) rest).step
      intro bumped rest
      have positive := Char.utf8Size_pos ','
      rw [Text.width_cons] at trimmed
      exact ih _ (by omega) rest
    · have head : (bytes (skipBlank left)).head? ≠ some ','.toUInt8 := by
        intro same
        obtain ⟨_, start⟩ := (Text.head_bytes_eq (by decide)).mp same
        exact comma (by rw [start]; rfl)
      rw [rest, if_pos head]
      simp only [if_neg comma]
      exact returns_text rest

/-- The closing bracket as one more character to read. -/
theorem readEnclosed_eq (close : Char) (text : List Char) : readEnclosed close read text =
    (if (skipBlank text).head? = some close then some ([], skipBlank text)
      else readItems read (Text.width (skipBlank text) + 1) [] (skipBlank text)).bind fun (items, rest) =>
        (readChar close rest).bind fun (_, rest) => some (items, rest) := by
  unfold readEnclosed
  simp only [Option.bind_eq_bind]
  split
  all_goals
    congr 1
    funext found
    obtain ⟨_, rest⟩ := found
    cases rest with
    | nil => rfl
    | cons c =>
      by_cases same : c = close
      · simp [readChar, same]
      · simp [readChar, same]

theorem enclosed_follows (reads : Reads input item read) (shrinks : Shrinks read) {first last : Char}
    (firstAscii : first.toNat < 128) (lastAscii : last.toNat < 128) (rest : decoder.rest = bytes text) :
    Follows input decoder (enclosed first last item)
      (encoded ((readChar first text).bind fun (_, rest) => readEnclosed last read rest)) := by
  apply (expect_text firstAscii rest).chain
  intro _ left opened _ rest
  show Follows input opened _ (encoded (readEnclosed last read left))
  rw [readEnclosed_eq]
  apply (whitespace_follows rest).step
  intro skipped rest
  apply peeks
  have closing : ∀ items left after, after.rest = bytes left →
      Follows input after (do expect last; return items : DecodeM β (List γ))
        (encoded ((readChar last left).bind fun (_, rest) => some (items, rest))) := by
    intro items left after rest
    apply (expect_text lastAscii rest).chain
    intro _ left after _ rest
    exact returns_text rest
  have same : skipped.rest.head? = some last.toUInt8 ↔ (skipBlank left).head? = some last := by
    rw [rest, Text.head_bytes_eq lastAscii, List.head?_eq_some_iff]
  by_cases empty : (skipBlank left).head? = some last
  · have found := same.mpr empty
    simp only [found, ne_eq, not_true_eq_false, ↓reduceIte, empty, Option.bind_some]
    exact closing [] _ _ rest
  · have found : skipped.rest.head? ≠ some last.toUInt8 := fun head => empty (same.mp head)
    simp only [ne_eq, found, not_false_eq_true, ↓reduceIte, empty]
    have length : skipped.rest.length + 1 = Text.width (skipBlank left) + 1 := by rw [rest, Text.bytes_length]
    apply gets
    rw [length]
    apply (separated_follows reads shrinks _ [] (Nat.lt_succ_self _) rest).chain
    intro items left after _ rest
    exact closing items left after rest

/-! ## Calls -/

/-- A container does what its inside does, and leaves no call open. -/
theorem container_follows {inner : DecodeM β γ} {answer : Option (γ × List UInt8)}
    (inside : ∀ opened : JsonDecoder, opened.rest = decoder.rest → Follows input opened inner answer) :
    Follows input decoder (container inner) answer := by
  cases entered : decoder.budget.enterCall with
  | none =>
    have refused : (spend ResourceBudget.enterCall : DecodeM β Unit) input decoder = .error .budgetExceeded decoder := by
      unfold spend
      rw [entered]
    unfold Follows container
    rw [error_bind refused]
    refine ⟨Keeps.refl decoder, .inl ⟨.inr rfl, ?_⟩⟩
    intro free
    exact ResourceBudget.enterCall_afforded free.budget entered
  | some budget =>
    have unlimited : decoder.budget.Unlimited → budget.Unlimited :=
      fun free => free.of_limits (ResourceBudget.enterCall_cases entered).1
    have spent : (spend ResourceBudget.enterCall : DecodeM β Unit) input decoder = .ok () { decoder with budget } := by
      unfold spend
      rw [entered]
    have follows := inside { decoder with budget } rfl
    -- The inside keeps the depth it was given, so leaving restores the one from before.
    have closes : ∀ after, Keeps { decoder with budget } after → ∃ closed : ResourceBudget,
        (leaveCall : DecodeM β Unit) input after = .ok () { after with budget := closed } ∧
          Keeps decoder { after with budget := closed } := by
      intro after keeps
      obtain ⟨closed, leaves, balanced⟩ := keeps.balanced.around entered
      refine ⟨closed, ?_, balanced, keeps.position⟩
      unfold leaveCall
      rw [leaves]
    unfold Follows at follows ⊢
    unfold container
    rw [ok_bind spent]
    cases result : inner input { decoder with budget } with
    | ok value after =>
      rw [result] at follows
      obtain ⟨closed, left, keeps⟩ := closes after follows.1
      have seen : observed inner input { decoder with budget } = .ok (.ok value) after := by
        unfold observed
        rw [result]
      rw [ok_bind seen, ok_bind left]
      exact ⟨keeps, follows.2⟩
    | error abort after =>
      rw [result] at follows
      obtain ⟨_, left, keeps⟩ := closes after follows.1
      have seen : observed inner input { decoder with budget } = .ok (.error abort) after := by
        unfold observed
        rw [result]
      rw [ok_bind seen, ok_bind left]
      refine ⟨keeps, ?_⟩
      rcases follows.2 with ⟨interruption, limited⟩ | refused
      · exact .inl ⟨interruption, fun free => limited ⟨free.cancel, unlimited free.budget⟩⟩
      · exact .inr refused

end Readers

/-! ## Values -/

section Values

variable {input : DecoderInput (Value F C)} {decoder : JsonDecoder} {text : List Char}
  {value : DecodeM (Value F C) (Value F C)} {reader : Json.Reader (Value F C)}

theorem isNumberByte_classifies : Classifies isNumberByte isNumeral where
  ascii c small := by
    have all := @Text.forall_ascii (fun c => isNumberByte c.toUInt8 == isNumeral c) (by decide +kernel) c small
    exact beq_iff_eq.mp all
  wide byte large := by
    have all := @Text.forall_wide_byte (fun byte => !isNumberByte byte) (by decide +kernel) byte large
    simpa using all
  wideClass c large := by
    unfold isNumeral
    have above : ∀ d : Char, d.toNat < 128 → (c == d) = false := by
      intro d small
      rw [beq_eq_false_iff_ne]
      rintro rfl
      omega
    have digit : c.isDigit = false := by
      unfold Char.isDigit
      rw [Bool.and_eq_false_iff]
      right
      rw [decide_eq_false_iff_not]
      intro below
      have order : c.toNat ≤ 57 := below
      omega
    simp [digit, above]

theorem number_follows (rest : decoder.rest = bytes text) : Follows input decoder number
    (encoded (((jsonBuilder input.json valueVisitor).number (text.takeWhile isNumeral)).map
      fun value => (value, text.dropWhile isNumeral))) := by
  apply gets
  apply (skipWhile_follows isNumberByte).keeping
  intro after keeps left
  apply gets
  rw [rest, dropWhile_bytes isNumberByte_classifies] at left
  -- The cursor tells how many bytes were numerals.
  have token : decoder.rest.take (after.cursor - decoder.cursor) = bytes (text.takeWhile isNumeral) := by
    have parts : decoder.rest = bytes (text.takeWhile isNumeral) ++ bytes (text.dropWhile isNumeral) := by
      rw [rest, ← Text.bytes_append, takeWhile_append_dropWhile]
    have position := keeps.position
    rw [left, parts, length_append] at position
    rw [parts, take_left']
    omega
  apply asks
  simp only [token]
  apply (forM_visit_follows _).step
  intro visited same
  rw [left] at same
  have built : (jsonBuilder input.json valueVisitor).number (text.takeWhile isNumeral) =
      (input.json.deserialize valueVisitor (bytes (text.takeWhile isNumeral))).toOption := rfl
  rw [built]
  cases input.json.deserialize valueVisitor (bytes (text.takeWhile isNumeral)) with
  | ok => exact returns_text same
  | error => exact rejected

/-- A member is its key, a colon and its value. -/
theorem readMember_steps {β : Type} (reader : Json.Reader β) (text : List Char) :
    readMember reader text = (readString (skipBlank text)).bind fun (key, rest) =>
      (readChar ':' (skipBlank rest)).bind fun (_, rest) => (reader rest).bind fun (value, rest) =>
        some ((key, value), rest) := by
  unfold readMember
  cases readString (skipBlank text) with
  | none => rfl
  | some found =>
    obtain ⟨key, after⟩ := found
    simp only [Option.bind_eq_bind, Option.bind_some]
    split
    · next more colon =>
      rw [colon]
      rfl
    · next other =>
      cases start : skipBlank after with
      | nil => rfl
      | cons c more =>
        have different : ¬c = ':' := fun same => other more (by rw [start, same])
        simp [readChar, different]

section

variable (reads : Reads input value reader)
include reads

theorem member_reads : Reads input (member value) (readMember reader) := by
  intro decoder text rest
  rw [readMember_steps]
  apply asks
  apply (retainItem_follows _).step
  intro retained same
  rw [rest] at same
  apply (whitespace_follows same).step
  intro skipped rest
  apply (string_follows rest).chain
  intro key left after _ rest
  apply (whitespace_follows rest).step
  intro skipped rest
  apply (expect_text (by decide) rest).chain
  intro _ left after _ rest
  apply (reads after left rest).chain
  intro value left after _ rest
  exact returns_text rest

theorem element_reads :
    Reads input (do retainItem (← read).sizeOfValue; value) reader := by
  intro decoder text rest
  apply asks
  apply (retainItem_follows _).step
  intro retained same
  exact reads retained text (same.trans rest)

theorem array_follows (shrinks : Shrinks reader)
    (rest : decoder.rest = bytes ('[' :: text)) : Follows input decoder (array value) (encoded ((readEnclosed ']' reader text).map fun (items, rest) => (.list items, rest))) := by
  have split : ((readEnclosed ']' reader text).map fun (items, rest) => ((.list items : Value F C), rest)) =
      ((readChar '[' ('[' :: text)).bind fun (_, rest) => readEnclosed ']' reader rest).bind
        fun (items, rest) => some (.list items, rest) := by
    show _ = (readEnclosed ']' reader text).bind _
    cases readEnclosed ']' reader text <;> rfl
  rw [split]
  apply (enclosed_follows (element_reads reads) shrinks (by decide) (by decide) rest).chain
  intro items left after _ rest
  exact returns_text rest

omit reads in
theorem visitMap_distinct {members : List (List Char × Value F C)} (unique : (members.map Prod.fst).Nodup) :
    (valueVisitor : JsonVisitor (Value F C)).visitMap members =
      some (.record (members.map fun (key, value) => (String.ofList key, value))) := by
  simp [valueVisitor, recordKeysDistinct, unique]

theorem object_follows (shrinks : Shrinks (readMember reader)) (rest : decoder.rest = bytes ('\x7b' :: text)) : Follows input decoder (object value)
      (encoded ((readEnclosed '\x7d' (readMember reader) text).bind fun (members, rest) =>
        (valueVisitor.visitMap members).map fun value => (value, rest))) := by
  have split : ((readEnclosed '\x7d' (readMember reader) text).bind fun (members, rest) =>
        ((valueVisitor : JsonVisitor (Value F C)).visitMap members).map fun value => (value, rest)) =
      ((readChar '\x7b' ('\x7b' :: text)).bind fun (_, rest) => readEnclosed '\x7d' (readMember reader) rest).bind
        fun (members, rest) => (valueVisitor.visitMap members).map fun value => (value, rest) := rfl
  rw [split]
  apply (enclosed_follows (member_reads reads) shrinks (by decide) (by decide) rest).chain
  intro members left after _ rest
  have distinct := @distinctKeys_follows _ input after (members.map Prod.fst)
  rw [length_map] at distinct
  rw [← bind_assoc]
  by_cases unique : (members.map Prod.fst).Nodup
  · rw [if_pos unique] at distinct
    simp only [visitMap_distinct unique]
    apply distinct.step
    intro final same
    exact returns_text (same.trans rest)
  · rw [if_neg unique] at distinct
    have built : (valueVisitor : JsonVisitor (Value F C)).visitMap members = none := by
      simp [valueVisitor, recordKeysDistinct, unique]
    simp only [built]
    exact follows_stops distinct

end

theorem literal_returns (expected : List Char) (ascii : ∀ c ∈ expected, c.toNat < 128) (held : Value F C)
    (rest : decoder.rest = bytes text) : Follows input decoder (do literal expected; return held)
      (encoded (readLiteral expected held text)) := by
  have split : readLiteral expected held text =
      (readLiteral expected () text).bind fun (_, rest) => some (held, rest) := by
    unfold readLiteral
    split <;> rfl
  rw [split]
  apply (literal_follows expected ascii rest).chain
  intro _ left after _ rest
  exact returns_text rest

/-- What the first byte of a value says about its first character. -/
structure LeadsLike (lead : UInt8) (c : Char) : Prop where
  equal : ∀ d : Char, d.toNat < 128 → (lead = d.toUInt8 ↔ c = d)
  number : (lead = '-'.toUInt8 ∨ ('0'.toUInt8 ≤ lead ∧ lead ≤ '9'.toUInt8)) ↔ startsNumber c = true

theorem leadsLike (c : Char) (more : List Char) : ∃ lead, (bytes (c :: more)).head? = some lead ∧ LeadsLike lead c := by
  obtain ⟨lead, others, encoding, leads⟩ := Text.encode_lead c
  have equal : ∀ d : Char, d.toNat < 128 → (lead = d.toUInt8 ↔ c = d) := by
    intro d ascii
    constructor
    · intro same
      exact (leads d ascii same).1
    · rintro rfl
      rw [Text.encode_ascii ascii] at encoding
      exact (List.cons.inj encoding).1.symm
  refine ⟨lead, by rw [Text.bytes_cons, encoding]; rfl, equal, ?_⟩
  rcases Nat.lt_or_ge c.toNat 128 with small | wide
  · have all := @Text.forall_ascii (fun c =>
      decide ((c.toUInt8 = '-'.toUInt8 ∨ ('0'.toUInt8 ≤ c.toUInt8 ∧ c.toUInt8 ≤ '9'.toUInt8)) ↔ startsNumber c = true))
      (by decide +kernel) c small
    rw [(equal c small).mpr rfl]
    exact of_decide_eq_true all
  · obtain ⟨lead', others', encoding', range⟩ := Text.encode_wide wide
    rw [encoding] at encoding'
    obtain ⟨rfl, _⟩ := List.cons.inj encoding'
    have other := isNumberByte_classifies.wideClass c wide
    unfold isNumeral at other
    simp only [Bool.or_eq_false_iff] at other
    have digit : c.isDigit = false := other.1.1.1.1.1
    constructor
    · rintro (minus | ⟨_, below⟩)
      · have same := (equal '-' (by decide)).mp minus
        rw [same] at wide
        exact absurd wide (by decide)
      · have order : lead.toNat ≤ 57 := below
        omega
    · intro starts
      unfold startsNumber at starts
      rw [digit, Bool.or_false, beq_iff_eq] at starts
      rw [starts] at wide
      exact absurd wide (by decide)

/-- Level by level the decoder reads what the grammar's reader reads. -/
theorem builtString_steps (input : DecoderInput (Value F C)) (text : List Char) :
    ((readString text).map fun (text, rest) => ((jsonBuilder input.json valueVisitor).string text, rest)) =
      (readString text).bind fun (text, rest) => some (.string (String.ofList text), rest) := by
  cases readString text <;> rfl

theorem valueAt_reads (input : DecoderInput (Value F C)) (levels : Nat) :
    Reads input (valueAt levels) (Json.readValue (jsonBuilder input.json valueVisitor) levels) := by
  induction levels with
  | zero =>
    intro decoder text rest
    apply visit_follows.step
    intro visited same
    apply (whitespace_follows (same.trans rest)).step
    intro skipped _
    exact rejected
  | succ levels ih =>
    intro decoder text rest
    unfold valueAt Json.readValue Json.readForm
    apply visit_follows.step
    intro visited same
    apply (whitespace_follows (same.trans rest)).step
    intro skipped rest
    apply peeks
    cases start : skipBlank text with
    | nil =>
      rw [rest, start]
      exact refuses
    | cons c more =>
      rw [start] at rest
      obtain ⟨_, head, leads⟩ := leadsLike c more
      obtain ⟨agrees, _⟩ := Json.matches_value (jsonBuilder input.json valueVisitor) levels
      rw [rest, head]
      simp only [leads.equal 'n' (by decide), leads.equal 't' (by decide), leads.equal 'f' (by decide),
        leads.equal '"' (by decide), leads.equal '[' (by decide), leads.equal '\x7b' (by decide), leads.number]
      split_ifs with isN isT isF isQuote isBracket isBrace isNumber
      · exact literal_returns _ (by simp) _ rest
      · exact literal_returns _ (by simp) _ rest
      · exact literal_returns _ (by simp) _ rest
      · rw [builtString_steps]
        apply (string_follows rest).chain
        intro text left after _ rest
        exact returns_text rest
      · subst isBracket
        apply container_follows
        intro opened same
        exact array_follows ih (shrinks_of_matches agrees) (same.trans rest)
      · subst isBrace
        apply container_follows
        intro opened same
        exact object_follows ih (shrinks_of_matches (Json.matches_member agrees)) (same.trans rest)
      · exact number_follows rest
      · exact refuses

end Values

end JsonDecoder

end Opaal.Runtime
