import Mathlib.Data.List.Basic

/-!
# The JSON grammar

What a text denotes, with the meaning of values left open: a builder says how values are
made from their parts and which numbers and objects there are.  Nesting is counted: a
text denotes at level `n` when its values nest at most `n` deep.
-/

namespace Opaal.Json

/-! ## Characters -/

def isBlank (c : Char) : Bool := c == ' ' || c == '\n' || c == '\r' || c == '\t'

/-- A character that may stand in a number. -/
def isNumeral (c : Char) : Bool := c.isDigit || c == '-' || c == '+' || c == '.' || c == 'e' || c == 'E'

def startsNumber (c : Char) : Bool := c == '-' || c.isDigit

def hexDigit (c : Char) : Option Nat :=
  if '0' ≤ c ∧ c ≤ '9' then some (c.toNat - '0'.toNat)
  else if 'a' ≤ c ∧ c ≤ 'f' then some (c.toNat - 'a'.toNat + 10)
  else if 'A' ≤ c ∧ c ≤ 'F' then some (c.toNat - 'A'.toNat + 10)
  else none

/-- The number that four hexadecimal digits write. -/
def hexValue (a b c d : Char) : Option Nat := do
  let a ← hexDigit a
  let b ← hexDigit b
  let c ← hexDigit c
  let d ← hexDigit d
  return ((a * 16 + b) * 16 + c) * 16 + d

def shortEscape (c : Char) : Option Char :=
  match c with
  | '"' => some '"'
  | '\\' => some '\\'
  | '/' => some '/'
  | 'b' => some '\x08'
  | 'f' => some '\x0c'
  | 'n' => some '\n'
  | 'r' => some '\r'
  | 't' => some '\t'
  | _ => none

/-- The scalar value with a number; surrogates have none. -/
def scalar (n : Nat) : Option Char := if n.isValidChar then some (Char.ofNat n) else none

def isHighSurrogate (n : Nat) : Bool := 0xd800 ≤ n && n ≤ 0xdbff

def isLowSurrogate (n : Nat) : Bool := 0xdc00 ≤ n && n ≤ 0xdfff

/-- The number of the scalar that two surrogates write. -/
def surrogatePair (high low : Nat) : Nat := 0x10000 + (high - 0xd800) * 1024 + (low - 0xdc00)

/-! ## Strings -/

/-- One character of a string and how it may be written. -/
inductive SpellsChar : Char → List Char → Prop where
  | raw (c : Char) (printable : 0x20 ≤ c.toNat) (unquoted : c ≠ '"') (unescaped : c ≠ '\\') : SpellsChar c [c]
  | escaped (e c : Char) (short : shortEscape e = some c) : SpellsChar c ['\\', e]
  | unit (a b d e c : Char) (n : Nat) (digits : hexValue a b d e = some n) (plain : isHighSurrogate n = false)
      (valid : scalar n = some c) : SpellsChar c ['\\', 'u', a, b, d, e]
  | pair (a b d e a' b' d' e' c : Char) (high low : Nat) (digits : hexValue a b d e = some high)
      (digits' : hexValue a' b' d' e' = some low) (isHigh : isHighSurrogate high = true)
      (isLow : isLowSurrogate low = true) (valid : scalar (surrogatePair high low) = some c) :
      SpellsChar c ['\\', 'u', a, b, d, e, '\\', 'u', a', b', d', e']

/-- The text between the quotes of a string. -/
inductive SpellsText : List Char → List Char → Prop where
  | nil : SpellsText [] []
  | cons {c : Char} {front text rest : List Char} (first : SpellsChar c front) (more : SpellsText text rest) :
      SpellsText (c :: text) (front ++ rest)

inductive SpellsString : List Char → List Char → Prop where
  | quoted {text body : List Char} (inner : SpellsText text body) : SpellsString text ('"' :: (body ++ ['"']))

/-! ## Values -/

def Blank (text : List Char) : Prop := ∀ c ∈ text, isBlank c = true

/-- Numbers are the longest runs of numerals. -/
structure NumberToken (token : List Char) : Prop where
  starts : ∃ c rest, token = c :: rest ∧ startsNumber c = true
  numerals : ∀ c ∈ token, isNumeral c = true

/-- How values are made of their parts; numbers and objects may be refused. -/
structure Builder (β : Type) where
  null : β
  bool : Bool → β
  number : List Char → Option β
  string : List Char → β
  array : List β → β
  object : List (List Char × β) → Option β

section Values

variable {β : Type}

/-- Something with blanks around it. -/
inductive Padded {γ : Type} (spells : γ → List Char → Prop) (item : γ) : List Char → Prop where
  | intro {before core after : List Char} (leading : Blank before) (inner : spells item core)
      (trailing : Blank after) : Padded spells item (before ++ core ++ after)

/-- One or more padded items with commas between them. -/
inductive Separated {γ : Type} (spells : γ → List Char → Prop) : List γ → List Char → Prop where
  | last {item : γ} {text : List Char} (only : Padded spells item text) : Separated spells [item] text
  | more {item : γ} {items : List γ} {front back : List Char} (first : Padded spells item front)
      (others : Separated spells items back) : Separated spells (item :: items) (front ++ ',' :: back)

/-- What stands between brackets. -/
inductive Enclosed {γ : Type} (spells : γ → List Char → Prop) : List γ → List Char → Prop where
  | none {text : List Char} (blank : Blank text) : Enclosed spells [] text
  | some {items : List γ} {text : List Char} (separated : Separated spells items text) : Enclosed spells items text

/-- A key, a colon and a value. -/
inductive Member (denotes : β → List Char → Prop) : List Char × β → List Char → Prop where
  | intro {key : List Char} {value : β} {name before after core : List Char} (named : SpellsString key name)
      (leading : Blank before) (trailing : Blank after) (valued : denotes value core) :
      Member denotes (key, value) (name ++ before ++ ':' :: (after ++ core))

/-- The forms of a value over the values it contains. -/
inductive Form (builder : Builder β) (denotes : β → List Char → Prop) : β → List Char → Prop where
  | literalNull : Form builder denotes builder.null ['n', 'u', 'l', 'l']
  | literalTrue : Form builder denotes (builder.bool true) ['t', 'r', 'u', 'e']
  | literalFalse : Form builder denotes (builder.bool false) ['f', 'a', 'l', 's', 'e']
  | number {token : List Char} {value : β} (isToken : NumberToken token) (built : builder.number token = some value) :
      Form builder denotes value token
  | string {text quoted : List Char} (spelled : SpellsString text quoted) :
      Form builder denotes (builder.string text) quoted
  | array {items : List β} {body : List Char} (enclosed : Enclosed denotes items body) :
      Form builder denotes (builder.array items) ('[' :: (body ++ [']']))
  | object {members : List (List Char × β)} {body : List Char} {value : β}
      (enclosed : Enclosed (Member denotes) members body) (built : builder.object members = some value) :
      Form builder denotes value ('\x7b' :: (body ++ ['\x7d']))

/-- What a text denotes when its values nest at most so deep. -/
def Denotes (builder : Builder β) : Nat → β → List Char → Prop
  | 0 => fun _ _ => False
  | levels + 1 => Form builder (Denotes builder levels)

/-- A whole document. -/
def Document (builder : Builder β) (levels : Nat) (value : β) (text : List Char) : Prop :=
  Padded (Denotes builder levels) value text

/-! ## Monotonicity -/

section Monotone

variable {γ : Type} {spells wider : γ → List Char → Prop}

variable {text : List Char} {denotes : β → List Char → Prop}

theorem Padded.imp (implies : ∀ item text, spells item text → wider item text) {item : γ} (padded : Padded spells item text) : Padded wider item text := by
  obtain ⟨leading, inner, trailing⟩ := padded
  exact .intro leading (implies _ _ inner) trailing

theorem Enclosed.imp (implies : ∀ item text, spells item text → wider item text) {items : List γ}
    (enclosed : Enclosed spells items text) : Enclosed wider items text := by
  have separated : ∀ {items text}, Separated spells items text → Separated wider items text := by
    intro items text separated
    induction separated with
    | last only => exact .last (only.imp implies)
    | more first _ ih => exact .more (first.imp implies) ih
  cases enclosed with
  | none blank => exact .none blank
  | some inner => exact .some (separated inner)

theorem Member.imp {wider : β → List Char → Prop} (implies : ∀ value text, denotes value text → wider value text)
    {entry : List Char × β} (member : Member denotes entry text) : Member wider entry text := by
  obtain ⟨named, leading, trailing, valued⟩ := member
  exact .intro named leading trailing (implies _ _ valued)

/-- A number is only asked for by its token. -/
theorem Form.imp {builder : Builder β} {number : List Char → Option β} {wider : β → List Char → Prop}
    (numbers : ∀ token, NumberToken token → builder.number token = number token)
    (implies : ∀ value text, denotes value text → wider value text) {value : β} (form : Form builder denotes value text) : Form { builder with number } wider value text := by
  cases form with
  | literalNull => exact @Form.literalNull _ { builder with number } wider
  | literalTrue => exact @Form.literalTrue _ { builder with number } wider
  | literalFalse => exact @Form.literalFalse _ { builder with number } wider
  | number isToken built => exact .number isToken ((numbers _ isToken).symm.trans built)
  | string spelled => exact @Form.string _ { builder with number } wider _ _ spelled
  | array enclosed => exact @Form.array _ { builder with number } wider _ _ (enclosed.imp implies)
  | object enclosed built => exact .object (enclosed.imp fun _ _ => Member.imp implies) built

end Monotone

/-- More levels denote more, and numbers may be read in another way that agrees on tokens. -/
theorem Denotes.imp {builder : Builder β} {number : List Char → Option β}
    (numbers : ∀ token, NumberToken token → builder.number token = number token) {levels deeper : Nat}
    (bound : levels ≤ deeper) {value : β} {text : List Char} (denotes : Denotes builder levels value text) :
    Denotes { builder with number } deeper value text := by
  induction levels generalizing deeper value text with
  | zero => exact denotes.elim
  | succ levels ih =>
    obtain ⟨more, rfl⟩ : ∃ more, deeper = more + 1 := ⟨deeper - 1, by omega⟩
    exact Form.imp numbers (fun _ _ inner => ih (by omega) inner) denotes

theorem Document.imp {builder : Builder β} {number : List Char → Option β}
    (numbers : ∀ token, NumberToken token → builder.number token = number token) {levels deeper : Nat}
    (bound : levels ≤ deeper) {value : β} {text : List Char} (document : Document builder levels value text) :
    Document { builder with number } deeper value text :=
  Padded.imp (fun _ _ => Denotes.imp numbers bound) document

end Values

end Opaal.Json
