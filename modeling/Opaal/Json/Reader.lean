import Mathlib.Data.List.DropRight
import Mathlib.Data.List.TakeWhile
import Opaal.Json.Grammar
import Opaal.Text.Utf8

/-!
# Reading JSON by recursive descent

A reader takes a text and returns what it read with the rest of the text.  `Matches`
says that a reader and a notion of spelling agree: whatever it reads is spelled by what it
consumed, and whatever is spelled is read when the text goes on in a way that ends it.
-/

namespace Opaal.Json

open List
open Option (bind_eq_bind bind_some map_eq_some_iff)

/-! ## Readers -/

abbrev Reader (α : Type) := List Char → Option (α × List Char)

def readHex4 : Reader Nat
  | a :: b :: c :: d :: rest => (hexValue a b c d).map fun n => (n, rest)
  | _ => none

/-- After `\u`. -/
def readUnicode : Reader Char := fun text => do
  let (first, rest) ← readHex4 text
  if isHighSurrogate first then
    match rest with
    | '\\' :: 'u' :: rest => do
      let (second, rest) ← readHex4 rest
      if isLowSurrogate second then (scalar (surrogatePair first second)).map fun c => (c, rest) else none
    | _ => none
  else (scalar first).map fun c => (c, rest)

/-- After a backslash. -/
def readEscape : Reader Char
  | 'u' :: rest => readUnicode rest
  | e :: rest => (shortEscape e).map fun c => (c, rest)
  | [] => none

/-- The text up to the closing quote, in at most `bound` characters. -/
def readText : Nat → List Char → Reader (List Char)
  | 0, _, _ => none
  | _ + 1, _, [] => none
  | bound + 1, output, c :: rest =>
    if c = '"' then some (output, rest)
    else if c.toNat < 0x20 then none
    else if c = '\\' then do
      let (c, rest) ← readEscape rest
      readText bound (output ++ [c]) rest
    else readText bound (output ++ [c]) rest

def readString : Reader (List Char)
  | '"' :: rest => readText (Text.width rest + 1) [] rest
  | _ => none

def skipBlank (text : List Char) : List Char := text.dropWhile isBlank

section Values

variable {β γ : Type}

/-- Items and the commas between them. -/
def readItems (item : Reader γ) : Nat → List γ → Reader (List γ)
  | 0, _, _ => none
  | bound + 1, items, text => do
    let (value, rest) ← item text
    match skipBlank rest with
    | ',' :: rest => readItems item bound (items ++ [value]) rest
    | rest => some (items ++ [value], rest)

/-- What follows the opening bracket, up to and with the closing one. -/
def readEnclosed (close : Char) (item : Reader γ) : Reader (List γ) := fun text => do
  let text := skipBlank text
  let (items, rest) ← if text.head? = some close then some ([], text) else readItems item (Text.width text + 1) [] text
  match rest with
  | c :: rest => if c = close then some (items, rest) else none
  | [] => none

def readMember (value : Reader β) : Reader (List Char × β) := fun text => do
  let (key, rest) ← readString (skipBlank text)
  match skipBlank rest with
  | ':' :: rest => do
    let (value, rest) ← value rest
    return ((key, value), rest)
  | _ => none

def readLiteral (literal : List Char) (value : β) : Reader β := fun text =>
  if literal.isPrefixOf text then some (value, text.drop literal.length) else none

/-- One value, over a reader for the values it contains. -/
def readForm (builder : Builder β) (inner : Reader β) : Reader β := fun text =>
  match skipBlank text with
  | [] => none
  | c :: rest =>
    if c = 'n' then readLiteral ['n', 'u', 'l', 'l'] builder.null (c :: rest)
    else if c = 't' then readLiteral ['t', 'r', 'u', 'e'] (builder.bool true) (c :: rest)
    else if c = 'f' then readLiteral ['f', 'a', 'l', 's', 'e'] (builder.bool false) (c :: rest)
    else if c = '"' then (readString (c :: rest)).map fun (text, rest) => (builder.string text, rest)
    else if c = '[' then (readEnclosed ']' inner rest).map fun (items, rest) => (builder.array items, rest)
    else if c = '\x7b' then do
      let (members, rest) ← readEnclosed '\x7d' (readMember inner) rest
      (builder.object members).map fun value => (value, rest)
    else if startsNumber c then
      (builder.number ((c :: rest).takeWhile isNumeral)).map fun value => (value, (c :: rest).dropWhile isNumeral)
    else none

def readValue (builder : Builder β) : Nat → Reader β
  | 0 => fun _ => none
  | levels + 1 => readForm builder (readValue builder levels)

def readDocument (builder : Builder β) (levels : Nat) (text : List Char) : Option β := do
  let (value, rest) ← readValue builder levels text
  if skipBlank rest = [] then some value else none

end Values

/-! ## Blanks -/

theorem skipBlank_append {before rest : List Char} (blank : Blank before) :
    skipBlank (before ++ rest) = skipBlank rest := by
  unfold skipBlank
  rw [dropWhile_append_of_pos blank]

theorem skipBlank_cons {c : Char} {rest : List Char} (solid : isBlank c = false) : skipBlank (c :: rest) = c :: rest := by
  unfold skipBlank
  simp [solid]

/-- What is skipped is blank. -/
theorem exists_blank (text : List Char) : ∃ before, Blank before ∧ text = before ++ skipBlank text := by
  refine ⟨text.takeWhile isBlank, ?_, takeWhile_append_dropWhile.symm⟩
  intro c member
  exact mem_takeWhile_imp member

theorem skipBlank_eq_nil {text : List Char} (blank : Blank text) : skipBlank text = [] := by
  have all := @skipBlank_append text [] blank
  rw [append_nil] at all
  rw [all]
  rfl

/-! ## Strings -/

theorem readHex4_some {text rest : List Char} {n : Nat} (read : readHex4 text = some (n, rest)) :
    ∃ a b c d, text = a :: b :: c :: d :: rest ∧ hexValue a b c d = some n := by
  unfold readHex4 at read
  split at read
  · next a b c d more =>
    obtain ⟨_, digits, same⟩ := Option.map_eq_some_iff.mp read
    cases same
    exact ⟨a, b, c, d, rfl, digits⟩
  · contradiction

/-- What an escape stands for, and how much of the text it is. -/
theorem readEscape_sound {text rest : List Char} {c : Char} (read : readEscape text = some (c, rest)) :
    ∃ front, SpellsChar c ('\\' :: front) ∧ text = front ++ rest := by
  unfold readEscape at read
  split at read
  · next more =>
    unfold readUnicode at read
    obtain ⟨⟨n, after⟩, first, found⟩ := Option.bind_eq_some_iff.mp read
    obtain ⟨a, b, d, e, rfl, digits⟩ := readHex4_some first
    dsimp only at found
    split at found
    · next isHigh =>
      split at found
      · next after' =>
        obtain ⟨⟨m, last⟩, second, paired⟩ := Option.bind_eq_some_iff.mp found
        obtain ⟨a', b', d', e', rfl, digits'⟩ := readHex4_some second
        dsimp only at paired
        split at paired
        · next isLow =>
          obtain ⟨_, valid, same⟩ := map_eq_some_iff.mp paired
          cases same
          exact ⟨_, .pair a b d e a' b' d' e' c n m digits digits' isHigh isLow valid, rfl⟩
        · contradiction
      · contradiction
    · next isPlain =>
      obtain ⟨_, valid, same⟩ := map_eq_some_iff.mp found
      cases same
      exact ⟨_, .unit a b d e c n digits (Bool.eq_false_iff.mpr isPlain) valid, rfl⟩
  · next e more _ =>
    obtain ⟨_, short, same⟩ := map_eq_some_iff.mp read
    cases same
    exact ⟨[e], .escaped e c short, rfl⟩
  · contradiction

theorem readEscape_complete {c : Char} {front : List Char} (spelled : SpellsChar c ('\\' :: front)) (rest : List Char) :
    readEscape (front ++ rest) = some (c, rest) := by
  cases spelled with
  | raw _ _ _ unescaped => exact absurd rfl unescaped
  | escaped e _ short =>
    have different : e ≠ 'u' := by
      rintro rfl
      contradiction
    unfold readEscape
    split
    · next same =>
      cases same
      exact absurd rfl different
    · next same =>
      cases same
      rw [short]
      rfl
    · contradiction
  | unit a b d e _ _ digits plain valid =>
    show readUnicode (a :: b :: d :: e :: rest) = _
    unfold readUnicode readHex4
    simp [digits, plain, valid]
  | pair a b d e a' b' d' e' _ _ _ digits digits' isHigh isLow valid =>
    show readUnicode (a :: b :: d :: e :: '\\' :: 'u' :: a' :: b' :: d' :: e' :: rest) = _
    unfold readUnicode readHex4
    simp [digits, isHigh, digits', isLow, valid]

theorem readText_sound {bound : Nat} {output text result rest : List Char}
    (read : readText bound output text = some (result, rest)) :
    ∃ inner body, result = output ++ inner ∧ SpellsText inner body ∧ text = body ++ '"' :: rest := by
  induction bound generalizing output text with
  | zero => contradiction
  | succ bound ih =>
    cases text with
    | nil => contradiction
    | cons c more =>
      unfold readText at read
      split_ifs at read with quoted control escaped
      · cases read
        subst quoted
        exact ⟨[], [], by simp, .nil, rfl⟩
      · subst escaped
        obtain ⟨⟨c, after⟩, first, read⟩ := Option.bind_eq_some_iff.mp read
        obtain ⟨front, spelled, split⟩ := readEscape_sound first
        obtain ⟨inner, body, result, spells, onward⟩ := ih read
        subst split onward result
        exact ⟨c :: inner, '\\' :: front ++ body, by simp, .cons spelled spells, by simp⟩
      · obtain ⟨inner, body, result, spells, onward⟩ := ih read
        subst onward result
        have printable : 0x20 ≤ c.toNat := by omega
        exact ⟨c :: inner, [c] ++ body, by simp, .cons (.raw c printable quoted escaped) spells, by simp⟩

/-- Every character of a string leaves something in its body. -/
theorem SpellsChar.ne_nil {c : Char} {front : List Char} (spelled : SpellsChar c front) : front ≠ [] := by
  cases spelled <;> simp

theorem SpellsText.length_le {text body : List Char} (spelled : SpellsText text body) : text.length ≤ body.length := by
  induction spelled with
  | nil => simp
  | cons first _ ih =>
    have positive := length_pos_iff.mpr first.ne_nil
    rw [length_cons, length_append]
    omega

theorem readText_complete {text body : List Char} (spelled : SpellsText text body) {bound : Nat}
    (enough : text.length < bound) (output rest : List Char) :
    readText bound output (body ++ '"' :: rest) = some (output ++ text, rest) := by
  induction spelled generalizing bound output with
  | nil =>
    obtain ⟨left, rfl⟩ := Nat.exists_eq_succ_of_ne_zero (Nat.ne_of_gt enough)
    simp [readText]
  | @cons c front text body first more ih =>
    obtain ⟨left, rfl⟩ := Nat.exists_eq_succ_of_ne_zero (Nat.ne_of_gt (Nat.zero_lt_of_lt enough))
    rw [length_cons] at enough
    have onward := @ih left (by omega) (output ++ [c])
    rw [append_assoc, singleton_append] at onward
    -- An escape starts with a backslash; anything else stands for itself.
    have escape : ∀ inner, front = '\\' :: inner →
        readText (left + 1) output (front ++ body ++ '"' :: rest) = some (output ++ c :: text, rest) := by
      rintro inner rfl
      show readText (left + 1) output ('\\' :: (inner ++ body ++ '"' :: rest)) = _
      unfold readText
      rw [if_neg (by decide), if_neg (by decide), if_pos rfl, append_assoc, readEscape_complete first]
      exact onward
    cases first with
    | raw _ printable unquoted unescaped =>
      show readText (left + 1) output (c :: (body ++ '"' :: rest)) = _
      unfold readText
      rw [if_neg unquoted, if_neg (by omega), if_neg unescaped]
      exact onward
    | escaped | unit | pair => exact escape _ rfl

theorem readString_sound {text key rest : List Char} (read : readString text = some (key, rest)) :
    ∃ core, SpellsString key core ∧ text = core ++ rest := by
  unfold readString at read
  split at read
  · obtain ⟨inner, body, result, spelled, split⟩ := readText_sound read
    subst result split
    exact ⟨_, .quoted spelled, by simp⟩
  · contradiction

theorem readString_complete {key core : List Char} (spelled : SpellsString key core) (rest : List Char) :
    readString (core ++ rest) = some (key, rest) := by
  obtain ⟨inner⟩ := spelled
  next body =>
  have length := inner.length_le
  have wide := Text.length_le_width body
  have enough : key.length < Text.width (body ++ ['"'] ++ rest) + 1 := by
    rw [Text.width_append, Text.width_append]
    omega
  show readText (Text.width (body ++ ['"'] ++ rest) + 1) [] (body ++ ['"'] ++ rest) = _
  have read := readText_complete inner enough [] rest
  rw [append_assoc, singleton_append] at read ⊢
  exact read

/-! ## Values -/

section Values

variable {β γ : Type}

/-- The text does not go on with a number. -/
def Stops (rest : List Char) : Prop := ∀ c more, rest = c :: more → isNumeral c = false

/-- A reader and a notion of spelling agree. -/
structure Matches (read : Reader γ) (spells : γ → List Char → Prop) : Prop where
  sound : ∀ text value rest, read text = some (value, rest) →
    ∃ before core, Blank before ∧ spells value core ∧ text = before ++ core ++ rest
  complete : ∀ before core value rest, Blank before → spells value core → Stops rest →
    read (before ++ core ++ rest) = some (value, rest)

theorem isNumeral_of_isBlank {c : Char} (blank : isBlank c = true) : isNumeral c = false := by
  unfold isBlank at blank
  simp only [Bool.or_eq_true, beq_iff_eq] at blank
  rcases blank with ((rfl | rfl) | rfl) | rfl <;> decide

/-- Blanks and something that stops a number stop it, too. -/
theorem Stops.blank {after rest : List Char} (blank : Blank after) (stops : Stops rest) : Stops (after ++ rest) := by
  intro c more split
  cases after with
  | nil => exact stops c more split
  | cons =>
    cases split
    exact isNumeral_of_isBlank (blank c mem_cons_self)

theorem stops_cons {c : Char} {rest : List Char} (other : isNumeral c = false) : Stops (c :: rest) := by
  intro d more split
  cases split
  exact other

variable {text : List Char}

/-- Blanks are taken with what follows them. -/
theorem Padded.split {spells : γ → List Char → Prop} {item : γ} (padded : Padded spells item text) :
    ∃ before core after, text = before ++ core ++ after ∧ Blank before ∧ spells item core ∧ Blank after := by
  obtain ⟨leading, inner, trailing⟩ := padded
  exact ⟨_, _, _, rfl, leading, inner, trailing⟩

variable {item : Reader γ} {spells : γ → List Char → Prop}

/-- One item, and the blanks up to what follows it. -/
theorem Matches.padded (agrees : Matches item spells) {value : γ} (padded : Padded spells value text) {rest : List Char}
    (stops : Stops rest) :
    ∃ after, Blank after ∧ item (text ++ rest) = some (value, after ++ rest) := by
  obtain ⟨before, core, after, rfl, leading, inner, trailing⟩ := padded.split
  refine ⟨after, trailing, ?_⟩
  rw [append_assoc]
  exact agrees.complete before core value (after ++ rest) leading inner (stops.blank trailing)

theorem readItems_sound (agrees : Matches item spells) {bound : Nat} {items result : List γ} {rest : List Char}
    (read : readItems item bound items text = some (result, rest)) :
    ∃ found body, result = items ++ found ∧ Separated spells found body ∧ text = body ++ rest := by
  induction bound generalizing items text with
  | zero => contradiction
  | succ bound ih =>
    unfold readItems at read
    obtain ⟨⟨value, after⟩, first, read⟩ := Option.bind_eq_some_iff.mp read
    obtain ⟨before, core, blank, spelled, split⟩ := agrees.sound _ _ _ first
    obtain ⟨gap, gapBlank, skipped⟩ := exists_blank after
    dsimp only at read
    have padded : Padded spells value (before ++ core ++ gap) := .intro blank spelled gapBlank
    split at read
    · next more comma =>
      obtain ⟨others, body, result, separated, onward⟩ := ih read
      refine ⟨value :: others, (before ++ core ++ gap) ++ ',' :: body, by simp [result], .more padded separated, ?_⟩
      rw [split, skipped, comma, onward]
      simp
    · cases read
      refine ⟨[value], before ++ core ++ gap, rfl, .last padded, ?_⟩
      rw [split, append_assoc, append_assoc, append_assoc, ← skipped]

/-- Commas bound the number of items. -/
theorem Separated.length_le {items : List γ} (separated : Separated spells items text) :
    items.length ≤ text.length + 1 := by
  induction separated with
  | last => simp
  | more _ _ ih =>
    rw [length_cons, length_append, length_cons]
    omega

theorem readItems_complete (agrees : Matches item spells) {found : List γ} {body : List Char}
    (separated : Separated spells found body) {bound : Nat} (enough : found.length ≤ bound) (items : List γ)
    {c : Char} {rest : List Char} (solid : isBlank c = false) (closes : c ≠ ',') (stops : isNumeral c = false) :
    readItems item bound items (body ++ c :: rest) = some (items ++ found, c :: rest) := by
  induction separated generalizing bound items with
  | @last _ _ only =>
    obtain ⟨left, rfl⟩ := Nat.exists_eq_succ_of_ne_zero (Nat.ne_of_gt enough)
    have ends : Stops (c :: rest) := stops_cons stops
    obtain ⟨after, blank, read⟩ := agrees.padded only ends
    unfold readItems
    simp only [read, bind_eq_bind, bind_some, skipBlank_append blank, skipBlank_cons solid]
    split
    · next same =>
      cases same
      exact absurd rfl closes
    · rfl
  | @more value others front back first separated ih =>
    obtain ⟨left, rfl⟩ := Nat.exists_eq_succ_of_ne_zero (Nat.ne_of_gt (Nat.zero_lt_of_lt enough))
    rw [length_cons] at enough
    have comma : Stops (',' :: (back ++ c :: rest)) := stops_cons (by decide)
    obtain ⟨after, blank, read⟩ := agrees.padded first comma
    rw [append_assoc, cons_append]
    unfold readItems
    simp only [read, bind_eq_bind, bind_some, skipBlank_append blank,
      skipBlank_cons (show isBlank ',' = false by decide)]
    rw [ih (by omega)]
    simp

/-- Further blanks in front. -/
theorem Separated.lead {items : List γ} {before : List Char} (blank : Blank before) (separated : Separated spells items text) : Separated spells items (before ++ text) := by
  have wider : ∀ {value : γ} {text : List Char}, Padded spells value text → Padded spells value (before ++ text) := by
    intro value text padded
    obtain ⟨inner, core, after, rfl, leading, spelled, trailing⟩ := padded.split
    have all : Blank (before ++ inner) := by
      intro c member
      rcases mem_append.mp member with first | second
      · exact blank c first
      · exact leading c second
    have together : Padded spells value (before ++ inner ++ core ++ after) := .intro all spelled trailing
    simpa using together
  cases separated with
  | last only => exact .last (wider only)
  | more first others =>
    rw [← append_assoc]
    exact .more (wider first) others

/-- Items start with a character that is neither blank nor the closing bracket. -/
def StartsApart (spells : γ → List Char → Prop) (close : Char) : Prop :=
  ∀ value core, spells value core → ∃ c more, core = c :: more ∧ isBlank c = false ∧ c ≠ close

/-- The blanks before the first item. -/
theorem Separated.trim {close : Char} (apart : StartsApart spells close) {items : List γ}
    (separated : Separated spells items text) :
    ∃ before c more, Blank before ∧ text = before ++ c :: more ∧ isBlank c = false ∧ c ≠ close ∧
      Separated spells items (c :: more) := by
  have start : ∀ {value : γ} {text : List Char}, Padded spells value text → ∃ before c more, Blank before ∧
      text = before ++ c :: more ∧ isBlank c = false ∧ c ≠ close ∧ Padded spells value (c :: more) := by
    intro value text padded
    obtain ⟨before, core, after, rfl, leading, spelled, trailing⟩ := padded.split
    obtain ⟨c, more, rfl, solid, different⟩ := apart value core spelled
    have rest : Padded spells value ([] ++ (c :: more) ++ after) := .intro (by simp [Blank]) spelled trailing
    exact ⟨before, c, more ++ after, leading, by simp, solid, different, rest⟩
  cases separated with
  | last only =>
    obtain ⟨before, c, more, blank, rfl, solid, different, rest⟩ := start only
    exact ⟨before, c, more, blank, rfl, solid, different, .last rest⟩
  | @more _ _ _ back first others =>
    obtain ⟨before, c, more, blank, rfl, solid, different, rest⟩ := start first
    exact ⟨before, c, more ++ ',' :: back, blank, by simp, solid, different, .more rest others⟩

theorem readEnclosed_sound (agrees : Matches item spells) {close : Char} {items : List γ} {rest : List Char}
    (read : readEnclosed close item text = some (items, rest)) :
    ∃ body, Enclosed spells items body ∧ text = body ++ close :: rest := by
  obtain ⟨gap, blank, skipped⟩ := exists_blank text
  unfold readEnclosed at read
  simp only [bind_eq_bind] at read
  by_cases empty : (skipBlank text).head? = some close
  · rw [if_pos empty, bind_some] at read
    cases start : skipBlank text with
    | nil =>
      rw [start] at empty
      contradiction
    | cons =>
      rw [start] at empty skipped read
      cases empty
      simp only [↓reduceIte, Option.some.injEq, Prod.mk.injEq] at read
      obtain ⟨rfl, rfl⟩ := read
      exact ⟨gap, .none blank, skipped⟩
  · rw [if_neg empty] at read
    obtain ⟨⟨all, after⟩, found, read⟩ := Option.bind_eq_some_iff.mp read
    obtain ⟨others, body, result, separated, split⟩ := readItems_sound agrees found
    subst result
    cases after with
    | nil => contradiction
    | cons c more =>
      simp only at read
      split at read
      · next closes =>
        cases read
        subst closes
        refine ⟨gap ++ body, .some (separated.lead blank), ?_⟩
        rw [skipped, split, append_assoc]
      · contradiction

theorem readEnclosed_complete (agrees : Matches item spells) {close : Char} (apart : StartsApart spells close)
    (solid : isBlank close = false) (closes : close ≠ ',') (stops : isNumeral close = false) {items : List γ}
    {body : List Char} (enclosed : Enclosed spells items body) (rest : List Char) :
    readEnclosed close item (body ++ close :: rest) = some (items, rest) := by
  unfold readEnclosed
  cases enclosed with
  | none blank =>
    rw [skipBlank_append blank, skipBlank_cons solid]
    simp
  | some separated =>
    obtain ⟨before, c, more, blank, rfl, start, different, trimmed⟩ := separated.trim apart
    rw [append_assoc, skipBlank_append blank, cons_append, skipBlank_cons start]
    have few := trimmed.length_le
    have wide := Text.length_le_width (c :: (more ++ close :: rest))
    have enough : items.length ≤ Text.width (c :: (more ++ close :: rest)) + 1 := by
      rw [length_cons] at few
      rw [length_cons, length_append] at wide
      omega
    have read := @readItems_complete _ item spells agrees _ _ trimmed _ enough [] close rest solid closes stops
    rw [cons_append, nil_append] at read
    have open' : ¬(c :: (more ++ close :: rest)).head? = some close := by simpa using different
    simp only [if_neg open', read, bind_eq_bind, bind_some, ↓reduceIte]

variable {value : Reader β} {denotes : β → List Char → Prop}

theorem SpellsString.starts {key core : List Char} (spelled : SpellsString key core) : ∃ more, core = '"' :: more := by
  obtain ⟨_⟩ := spelled
  exact ⟨_, rfl⟩

theorem matches_member (agrees : Matches value denotes) : Matches (readMember value) (Member denotes) where
  sound := by
    rintro text ⟨key, held⟩ rest read
    obtain ⟨gap, blank, skipped⟩ := exists_blank text
    unfold readMember at read
    obtain ⟨⟨name, after⟩, named, found⟩ := Option.bind_eq_some_iff.mp read
    obtain ⟨core, spelled, split⟩ := readString_sound named
    obtain ⟨gap', blank', skipped'⟩ := exists_blank after
    dsimp only at found
    split at found
    · next more colon =>
      obtain ⟨_, valued, same⟩ := Option.bind_eq_some_iff.mp found
      cases same
      obtain ⟨before, body, leading, holds, onward⟩ := agrees.sound _ _ _ valued
      refine ⟨gap, core ++ gap' ++ ':' :: (before ++ body), blank, .intro spelled blank' leading holds, ?_⟩
      rw [skipped, split, skipped', colon, onward]
      simp
    · contradiction
  complete := by
    rintro before core ⟨_, held⟩ rest blank ⟨named, leading, trailing, valued⟩ stops
    next name gap gap' body =>
    obtain ⟨_, rfl⟩ := named.starts
    unfold readMember
    rw [append_assoc, skipBlank_append blank, append_assoc, append_assoc, cons_append,
      skipBlank_cons (show isBlank '"' = false by decide), ← cons_append, readString_complete named]
    simp only [bind_eq_bind, bind_some, cons_append, skipBlank_append leading,
      skipBlank_cons (show isBlank ':' = false by decide), agrees.complete gap' body held rest trailing valued stops]
    rfl

theorem member_apart (denotes : β → List Char → Prop) : StartsApart (Member denotes) '\x7d' := by
  rintro _ _ ⟨named, _, _, _⟩
  obtain ⟨_, rfl⟩ := named.starts
  exact ⟨'"', _, rfl, by decide, by decide⟩

/-- The first characters of values. -/
theorem Form.starts {builder : Builder β} {held : β} {core : List Char} (form : Form builder denotes held core) :
    ∃ c more, core = c :: more ∧ isBlank c = false ∧ c ≠ ']' := by
  cases form with
  | literalNull | literalTrue | literalFalse | array | object => exact ⟨_, _, rfl, by decide, by decide⟩
  | number isToken _ =>
    obtain ⟨c, more, rfl, starts⟩ := isToken.starts
    have numeral := isToken.numerals c mem_cons_self
    refine ⟨c, more, rfl, ?_, ?_⟩
    · rw [Bool.eq_false_iff]
      intro blank
      rw [isNumeral_of_isBlank blank] at numeral
      contradiction
    · rintro rfl
      contradiction
  | string spelled =>
    obtain ⟨_, rfl⟩ := spelled.starts
    exact ⟨_, _, rfl, by decide, by decide⟩

theorem readLiteral_eq {held result : β} {literal rest : List Char} :
    readLiteral literal held text = some (result, rest) ↔ result = held ∧ text = literal ++ rest := by
  unfold readLiteral
  constructor
  · intro read
    split at read
    · next starts =>
      obtain ⟨more, rfl⟩ := isPrefixOf_iff_prefix.mp starts
      rw [drop_left] at read
      cases read
      exact ⟨rfl, rfl⟩
    · contradiction
  · rintro ⟨rfl, rfl⟩
    rw [if_pos (List.isPrefixOf_iff_prefix.mpr (prefix_append literal rest)), drop_left]

/-- A number ends where the numerals do. -/
theorem takeWhile_numerals {token rest : List Char} (isToken : NumberToken token) (stops : Stops rest) :
    (token ++ rest).takeWhile isNumeral = token ∧ (token ++ rest).dropWhile isNumeral = rest := by
  rw [takeWhile_append_of_pos isToken.numerals, dropWhile_append_of_pos isToken.numerals]
  cases rest with
  | nil => simp
  | cons c more =>
    have other := stops c more rfl
    rw [takeWhile_cons_of_neg (by simp [other]), dropWhile_cons_of_neg (by simp [other])]
    simp

theorem readForm_sound {builder : Builder β} (agrees : Matches value denotes) {rest : List Char} {result : β}
    (read : readForm builder value text = some (result, rest)) :
    ∃ before core, Blank before ∧ Form builder denotes result core ∧ text = before ++ core ++ rest := by
  obtain ⟨gap, blank, skipped⟩ := exists_blank text
  suffices found : ∃ core, Form builder denotes result core ∧ skipBlank text = core ++ rest by
    obtain ⟨core, form, split⟩ := found
    exact ⟨gap, core, blank, form, by rw [append_assoc, ← split, ← skipped]⟩
  unfold readForm at read
  cases start : skipBlank text with
  | nil =>
    rw [start] at read
    contradiction
  | cons c more =>
    rw [start] at read
    simp only at read
    split_ifs at read with isN isT isF isQuote isBracket isBrace isNumber
    · obtain ⟨rfl, split⟩ := readLiteral_eq.mp read
      exact ⟨_, .literalNull, split⟩
    · obtain ⟨rfl, split⟩ := readLiteral_eq.mp read
      exact ⟨_, .literalTrue, split⟩
    · obtain ⟨rfl, split⟩ := readLiteral_eq.mp read
      exact ⟨_, .literalFalse, split⟩
    · obtain ⟨⟨_, after⟩, named, same⟩ := map_eq_some_iff.mp read
      cases same
      obtain ⟨core, spelled, split⟩ := readString_sound named
      exact ⟨core, .string spelled, split⟩
    · obtain ⟨⟨_, after⟩, enclosed, same⟩ := map_eq_some_iff.mp read
      cases same
      subst isBracket
      obtain ⟨body, holds, split⟩ := readEnclosed_sound agrees enclosed
      exact ⟨_, .array holds, by simp [split]⟩
    · obtain ⟨⟨_, _⟩, enclosed, built⟩ := Option.bind_eq_some_iff.mp read
      obtain ⟨held, object, same⟩ := map_eq_some_iff.mp built
      cases same
      subst isBrace
      obtain ⟨_, holds, split⟩ := readEnclosed_sound (matches_member agrees) enclosed
      exact ⟨_, .object holds object, by simp [split]⟩
    · obtain ⟨_, built, same⟩ := map_eq_some_iff.mp read
      cases same
      have numeral : isNumeral c = true := by
        unfold startsNumber at isNumber
        unfold isNumeral
        revert isNumber
        cases c.isDigit <;> cases c == '-' <;> simp
      refine ⟨_, .number ⟨⟨c, more.takeWhile isNumeral, ?_, isNumber⟩, ?_⟩ built, takeWhile_append_dropWhile.symm⟩
      · rw [takeWhile_cons_of_pos numeral]
      · intro d member
        exact mem_takeWhile_imp member

theorem readForm_complete {builder : Builder β} (agrees : Matches value denotes) (apart : StartsApart denotes ']')
    {before core rest : List Char} {held : β} (blank : Blank before) (form : Form builder denotes held core)
    (stops : Stops rest) : readForm builder value (before ++ core ++ rest) = some (held, rest) := by
  unfold readForm
  obtain ⟨c, more, start, solid, _⟩ := form.starts
  rw [append_assoc, skipBlank_append blank]
  have skipped : skipBlank (core ++ rest) = core ++ rest := by
    rw [start, cons_append, skipBlank_cons solid]
  rw [skipped]
  cases form with
  | literalNull =>
    rw [cons_append]
    simp only [↓reduceIte]
    exact readLiteral_eq.mpr ⟨rfl, rfl⟩
  | literalTrue =>
    rw [cons_append]
    simp only [show 't' ≠ 'n' by decide, ↓reduceIte]
    exact readLiteral_eq.mpr ⟨rfl, rfl⟩
  | literalFalse =>
    rw [cons_append]
    simp only [show 'f' ≠ 'n' by decide, show 'f' ≠ 't' by decide, ↓reduceIte]
    exact readLiteral_eq.mpr ⟨rfl, rfl⟩
  | string spelled =>
    obtain ⟨after, rfl⟩ := spelled.starts
    have read := readString_complete spelled rest
    rw [cons_append] at read ⊢
    simp [read]
  | array enclosed =>
    next items body =>
    have read := @readEnclosed_complete _ value denotes agrees ']' apart (by decide) (by decide) (by decide) _ _ enclosed rest
    simp [read]
  | object enclosed built =>
    next members body =>
    have read := @readEnclosed_complete _ _ _ (matches_member agrees) '\x7d' (member_apart denotes) (by decide)
      (by decide) (by decide) _ _ enclosed rest
    simp [read, built]
  | number isToken built =>
    obtain ⟨taken, dropped⟩ := takeWhile_numerals isToken stops
    obtain ⟨d, others, rfl, starts⟩ := isToken.starts
    rw [cons_append] at taken dropped ⊢
    have letters : d ≠ 'n' ∧ d ≠ 't' ∧ d ≠ 'f' ∧ d ≠ '"' ∧ d ≠ '[' ∧ d ≠ '\x7b' := by
      refine ⟨?_, ?_, ?_, ?_, ?_, ?_⟩ <;> (rintro rfl; contradiction)
    simp [letters, starts, taken, dropped, built]

theorem matches_form {builder : Builder β} (agrees : Matches value denotes) (apart : StartsApart denotes ']') :
    Matches (readForm builder value) (Form builder denotes) where
  sound _ _ _ read := readForm_sound agrees read
  complete _ _ _ _ blank form stops := readForm_complete agrees apart blank form stops

variable (builder : Builder β) (levels : Nat)

/-- The reader and the grammar agree, level by level. -/
theorem matches_value :
    Matches (readValue builder levels) (Denotes builder levels) ∧ StartsApart (Denotes builder levels) ']' := by
  induction levels with
  | zero =>
    refine ⟨⟨?_, ?_⟩, ?_⟩
    · intro _ _ _ read
      contradiction
    · intro _ _ _ _ _ impossible
      exact impossible.elim
    · intro _ _ impossible
      exact impossible.elim
  | succ _ ih =>
    refine ⟨matches_form ih.1 ih.2, ?_⟩
    intro held core form
    exact Form.starts form

/-- A document is read exactly when it is one. -/
theorem readDocument_eq_some (text : List Char) (held : β) :
    readDocument builder levels text = some held ↔ Document builder levels held text := by
  have agrees := (matches_value builder levels).1
  unfold readDocument Document
  constructor
  · intro read
    obtain ⟨⟨result, rest⟩, first, last⟩ := Option.bind_eq_some_iff.mp read
    obtain ⟨before, core, blank, denotes, split⟩ := agrees.sound _ _ _ first
    obtain ⟨gap, trailing, skipped⟩ := exists_blank rest
    simp only at last
    split at last
    · next ends =>
      cases last
      rw [ends, append_nil] at skipped
      subst skipped split
      exact .intro blank denotes trailing
    · contradiction
  · intro padded
    obtain ⟨before, core, after, rfl, blank, denotes, trailing⟩ := padded.split
    have none : Stops [] := by
      intro c more impossible
      contradiction
    have stops := none.blank trailing
    rw [append_nil] at stops
    rw [agrees.complete before core held after blank denotes stops]
    simp [skipBlank_eq_nil trailing]

/-- A number that is the whole document is read as the builder reads it. -/
theorem readDocument_number {token : List Char} (isToken : NumberToken token) :
    readDocument builder (levels + 1) token = builder.number token := by
  obtain ⟨c, rest, split, starts⟩ := isToken.starts
  have numeral := isToken.numerals
  have ends : Stops [] := by
    intro c more impossible
    contradiction
  have whole := takeWhile_numerals isToken ends
  rw [append_nil] at whole
  have solid : skipBlank token = token := by
    rw [split]
    apply skipBlank_cons
    rw [Bool.eq_false_iff]
    intro blank
    have other := isNumeral_of_isBlank blank
    rw [numeral c (by rw [split]; exact mem_cons_self)] at other
    contradiction
  have letters : c ≠ 'n' ∧ c ≠ 't' ∧ c ≠ 'f' ∧ c ≠ '"' ∧ c ≠ '[' ∧ c ≠ '\x7b' := by
    refine ⟨?_, ?_, ?_, ?_, ?_, ?_⟩ <;> (rintro rfl; contradiction)
  have read : readValue builder (levels + 1) token = (builder.number token).map fun value => (value, []) := by
    show readForm builder (readValue builder levels) token = _
    unfold readForm
    rw [solid, split]
    simp only [letters, ↓reduceIte, starts]
    rw [← split, whole.1, whole.2]
  unfold readDocument
  rw [read]
  cases builder.number token with
  | none | some => rfl

end Values

end Opaal.Json
