import Opaal.Runtime.JsonDecoderDocument

/-!
# Reading JSON at the format boundary

`from json` drains its byte source under a budget and hands the whole input to the JSON
library, which builds values through the visitor.  Within the limits of both it decides every
input as the budgeted decoder does.
-/

namespace Opaal.Runtime

open Opaal.Machine List
open Opaal.Text (bytes decode)
open Json.Document (imp)

variable {F C : Type}

/-! ## The reader -/

inductive JsonMode where
  | document
  | array
deriving DecidableEq

/-- One step of turning bytes into values. -/
inductive FromJsonStep (F C : Type) where
  | value (value : Value F C)
  | ended
  | malformed (offset : Nat)
  | notArray (actual : String)
  | duplicateKey (key : List Char)
  | limitExceeded (limit : Nat)

/-- A pull-driven reader: the chunks its source still yields, and parsed values still to hand
out, the next one last. -/
structure FromJson (F C : Type) where
  mode : JsonMode
  chunks : List (List UInt8)
  limit : Nat
  pending : List (Value F C)
  done : Bool
  parsed : Bool

def fromJson (mode : JsonMode) (chunks : List (List UInt8)) (limit : Nat) : FromJson F C :=
  ⟨mode, chunks, limit, [], false, false⟩

/-- Where a line starts, the given number of lines further on. -/
def lineStart (input : List UInt8) : Nat → Option Nat
  | 0 => some 0
  | lines + 1 => do
    let index ← input.findIdx? (· == '\n'.toUInt8)
    let further ← lineStart (input.drop (index + 1)) lines
    return index + 1 + further

/-- The byte of a one-based line and column; a column past its line stays at the line's end. -/
def byteOffset (input : List UInt8) (line column : Nat) : Nat :=
  if line = 0 then 0
  else
    match lineStart input (line - 1) with
    | none => input.length
    | some start =>
      let lineEnd := ((input.drop start).findIdx? (· == '\n'.toUInt8)).elim input.length (start + ·)
      min (start + (column - 1)) lineEnd

/-- A repeated key is no syntax error. -/
def parseError (input : List UInt8) (error : JsonError) : FromJsonStep F C :=
  match error.duplicate with
  | some key => .duplicateKey key
  | none => .malformed (byteOffset input error.line error.column)

theorem parseError_refuses (input : List UInt8) (error : JsonError) :
    (∃ offset, (parseError input error : FromJsonStep F C) = .malformed offset) ∨
      ∃ key, (parseError input error : FromJsonStep F C) = .duplicateKey key := by
  unfold parseError
  cases error.duplicate with
  | none => exact .inl ⟨_, rfl⟩
  | some key => exact .inr ⟨key, rfl⟩

/-- The whole input, unless it would exceed the limit; what the source still has is left in it. -/
def drain (limit : Nat) (input : List UInt8) : List (List UInt8) → Option (List UInt8) × List (List UInt8)
  | [] => (some input, [])
  | chunk :: chunks => if limit < input.length + chunk.length then (none, chunks) else drain limit (input ++ chunk) chunks

namespace FromJson

variable (json : JsonLibrary (Value F C))

/-- Fills the pending values, or returns the step that ends the reader. -/
def drainAndParse (reader : FromJson F C) : Option (FromJsonStep F C) × FromJson F C :=
  let (drained, chunks) := drain reader.limit [] reader.chunks
  let reader := { reader with chunks }
  match drained with
  | none => (some (.limitExceeded reader.limit), reader)
  | some input =>
    match json.deserialize valueVisitor input with
    | .error error => (some (parseError input error), reader)
    | .ok parsed =>
      match reader.mode, parsed with
      | .document, parsed => (none, { reader with pending := reader.pending ++ [parsed] })
      | .array, .list items => (none, { reader with pending := reader.pending ++ items.reverse })
      | .array, other => (some (.notArray other.familyName), reader)

/-- Hands out the last of the pending values. -/
def pop (reader : FromJson F C) : FromJsonStep F C × FromJson F C :=
  match reader.pending.getLast? with
  | some value => (.value value, { reader with pending := reader.pending.dropLast })
  | none => (.ended, { reader with done := true })

def pull (reader : FromJson F C) : FromJsonStep F C × FromJson F C :=
  if reader.done then (.ended, reader)
  else if reader.parsed then pop reader
  else
    match drainAndParse json { reader with parsed := true } with
    | (some step, reader) => (step, { reader with done := true })
    | (none, reader) => pop reader

end FromJson

/-! ## What the library documents -/

/-- The library reads the JSON grammar through a visitor: it accepts every document that nests
less than its recursion limit of 128, and nothing that is no document.  Numbers are read
as they are when they are the whole document. -/
structure Documented {β : Type} (json : JsonLibrary β) (visitor : JsonVisitor β) : Prop where
  complete : ∀ levels value text, levels < 128 → Json.Document (jsonBuilder json visitor) levels value text →
    json.deserialize visitor (bytes text) = .ok value
  sound : ∀ input value, json.deserialize visitor input = .ok value →
    ∃ levels text, input = bytes text ∧ Json.Document (jsonBuilder json visitor) levels value text

/-- What nests at most 64 deep, if it is a document at all. -/
def NestsWithin (json : JsonLibrary (Value F C)) (document : List UInt8) : Prop :=
  ∀ levels value text, document = bytes text → Json.Document (jsonBuilder json valueVisitor) levels value text →
    Json.Document (jsonBuilder json valueVisitor) maxJsonDepth value text

theorem drain_within (limit : Nat) (input : List UInt8) (chunks : List (List UInt8))
    (room : input.length + chunks.flatten.length ≤ limit) : drain limit input chunks = (some (input ++ chunks.flatten), []) := by
  induction chunks generalizing input with
  | nil => simp [drain]
  | cons chunk chunks ih =>
    rw [flatten_cons, length_append] at room
    unfold drain
    rw [if_neg (by omega), ih (input ++ chunk) (by rw [length_append]; omega), flatten_cons, append_assoc]

/-- The first step over a document that fits. -/
theorem pull_document (json : JsonLibrary (Value F C)) (chunks : List (List UInt8)) (limit : Nat)
    (room : chunks.flatten.length ≤ limit) : ((fromJson .document chunks limit).pull json).1 =
      match json.deserialize valueVisitor chunks.flatten with
      | .ok value => .value value
      | .error error => parseError chunks.flatten error := by
  have drained := drain_within limit [] chunks (by simpa using room)
  rw [nil_append] at drained
  unfold FromJson.pull FromJson.drainAndParse fromJson
  simp only [Bool.false_eq_true, ↓reduceIte, drained]
  cases json.deserialize valueVisitor chunks.flatten with
  | ok | error => rfl

/-- Within its limits the decoder's grammar and the library agree. -/
theorem documentValue_eq_some {json : JsonLibrary (Value F C)} (documented : Documented json valueVisitor)
    {document : List UInt8} (size : document.length ≤ maxJsonInput) (nests : NestsWithin json document)
    (value : Value F C) :
    documentValue json document = some value ↔ json.deserialize valueVisitor document = .ok value := by
  unfold documentValue
  rw [if_neg (by omega), Option.bind_eq_some_iff]
  constructor
  · rintro ⟨text, decoded, read⟩
    have shallow := (Json.readDocument_eq_some _ _ _ _).mp read
    rw [← Text.decode_eq_some decoded]
    exact documented.complete maxJsonDepth value text (by decide) shallow
  · intro accepted
    obtain ⟨levels, text, rfl, deep⟩ := documented.sound document value accepted
    refine ⟨text, Text.decode_bytes text, ?_⟩
    exact (Json.readDocument_eq_some _ _ _ _).mpr (nests levels value text rfl deep)

/-- How the two readers compare on one input: the value the decoder returns is the first step of
the other one, and where the decoder refuses, the first step is a refusal. -/
structure Agree (input : DecoderInput (Value F C)) (decoder : JsonDecoder) (document : List UInt8)
    (step : FromJsonStep F C) : Prop where
  accepts : ∀ value after, jsonDecode document input decoder = .ok value after → step = .value value
  refuses : ∀ abort after, jsonDecode document input decoder = .error abort after →
    (Interruption abort ∧ ¬Uninterrupted input decoder) ∨
      (Rejection abort ∧ ((∃ offset, step = .malformed offset) ∨ ∃ key, step = .duplicateKey key))

/-- The two JSON readers agree on every input within the limits of both, unless the budgeted
one is interrupted. -/
theorem json_readers_agree (input : DecoderInput (Value F C)) (decoder : JsonDecoder)
    (chunks : List (List UInt8)) (limit : Nat) (documented : Documented input.json valueVisitor)
    (size : chunks.flatten.length ≤ maxJsonInput) (room : chunks.flatten.length ≤ limit)
    (nests : NestsWithin input.json chunks.flatten) :
    Agree input decoder chunks.flatten ((fromJson .document chunks limit).pull input.json).1 := by
  have decides := (jsonDecode_decides input decoder chunks.flatten).1
  have same := documentValue_eq_some documented size nests
  rw [pull_document input.json chunks limit room]
  unfold Decides at decides
  constructor
  · intro value after result
    rw [result] at decides
    rw [(same value).mp decides]
  · intro abort after result
    rw [result] at decides
    rcases decides with interrupted | ⟨refused, rejection⟩
    · exact .inl interrupted
    · right
      refine ⟨rejection, ?_⟩
      cases parsed : input.json.deserialize valueVisitor chunks.flatten with
      | ok value =>
        rw [(same value).mpr parsed] at refused
        contradiction
      | error error => exact parseError_refuses chunks.flatten error

/-! ## A small library

It reads the grammar directly.  Integers are decimal and unsigned unless they have a sign; a
double is written as its word and an exponent of zero. -/

section Plain

variable {β : Type}

def plainNumber (visitor : JsonVisitor β) : List Char → Option β
  | '-' :: digits =>
    if digits.all Char.isDigit then visitor.visitI64 (Int64.ofInt (-(Nat.ofDigitChars 10 digits 0))) else none
  | token =>
    if token.all Char.isDigit then visitor.visitU64 (UInt64.ofNat (Nat.ofDigitChars 10 token 0))
    else if ['e', '0'].isSuffixOf token then visitor.visitF64 ⟨UInt64.ofNat (Nat.ofDigitChars 10 token.dropLast.dropLast 0)⟩
    else none

def plainBuilder (visitor : JsonVisitor β) : Json.Builder β where
  null := visitor.visitUnit
  bool := visitor.visitBool
  number := plainNumber visitor
  string := visitor.visitStr
  array := visitor.visitSeq
  object := visitor.visitMap

def plainEscape (c : Char) : List Char :=
  if c = '"' then ['\\', '"']
  else if c = '\\' then ['\\', '\\']
  else if c = '\x08' then ['\\', 'b']
  else if c = '\t' then ['\\', 't']
  else if c = '\n' then ['\\', 'n']
  else if c = '\x0c' then ['\\', 'f']
  else if c = '\r' then ['\\', 'r']
  else if c.toNat < 0x20 then ['\\', 'u', '0', '0', Nat.digitChar (c.toNat / 16), Nat.digitChar (c.toNat % 16)]
  else [c]

def plainJson : JsonLibrary β where
  deserialize visitor input :=
    match (decode input).bind (Json.readDocument (plainBuilder visitor) 127) with
    | some value => .ok value
    | none => .error ⟨1, 1, none⟩
  numberReads token := token.length
  serializeString text := bytes ('"' :: (text.flatMap plainEscape ++ ['"']))
  printFloat value := bytes (Nat.toDigits 10 value.bits.toNat ++ ['e', '0'])

theorem plainJson_eq_ok {visitor : JsonVisitor β} {input : List UInt8} {value : β} :
    plainJson.deserialize visitor input = .ok value ↔
      ∃ text, decode input = some text ∧ Json.Document (plainBuilder visitor) 127 value text := by
  show (match (decode input).bind (Json.readDocument (plainBuilder visitor) 127) with
    | some value => Except.ok value
    | none => .error (⟨1, 1, none⟩ : JsonError)) = .ok value ↔ _
  constructor
  · intro read
    cases found : (decode input).bind (Json.readDocument (plainBuilder visitor) 127) with
    | none =>
      rw [found] at read
      contradiction
    | some =>
      rw [found] at read
      cases read
      obtain ⟨text, decoded, document⟩ := Option.bind_eq_some_iff.mp found
      exact ⟨text, decoded, (Json.readDocument_eq_some _ _ _ _).mp document⟩
  · rintro ⟨_, decoded, document⟩
    rw [decoded, Option.bind_some, (Json.readDocument_eq_some _ _ _ _).mpr document]

/-- A number alone is read as the builder reads it. -/
theorem plainJson_number (visitor : JsonVisitor β) {token : List Char} (isToken : Json.NumberToken token) :
    (plainJson.deserialize visitor (bytes token)).toOption = plainNumber visitor token := by
  have alone : ∀ value, Json.Document (plainBuilder visitor) 127 value token ↔ plainNumber visitor token = some value := by
    intro value
    rw [← Json.readDocument_eq_some, Json.readDocument_number _ _ isToken]
    exact Iff.rfl
  cases read : plainJson.deserialize visitor (bytes token) with
  | ok value =>
    obtain ⟨text, decoded, document⟩ := plainJson_eq_ok.mp read
    rw [Text.decode_bytes] at decoded
    cases decoded
    exact ((alone value).mp document).symm
  | error error =>
    cases number : plainNumber visitor token with
    | none => rfl
    | some value =>
      have accepted := plainJson_eq_ok.mpr ⟨token, Text.decode_bytes token, (alone value).mpr number⟩
      rw [accepted] at read
      contradiction

theorem plainJson_documented (visitor : JsonVisitor β) : Documented plainJson visitor where
  complete levels value text shallow document := by
    refine plainJson_eq_ok.mpr ⟨text, Text.decode_bytes text, ?_⟩
    exact imp (fun token => plainJson_number visitor) (by omega) document
  sound input value accepted := by
    obtain ⟨text, decoded, document⟩ := plainJson_eq_ok.mp accepted
    refine ⟨127, text, (Text.decode_eq_some decoded).symm, ?_⟩
    exact imp (fun token isToken => (plainJson_number visitor isToken).symm) (Nat.le_refl 127) document

end Plain

/-- A document within the limit nests within it. -/
theorem nestsWithin_of_document {json : JsonLibrary (Value F C)} {text : List Char}
    {held : Value F C} (shallow : Json.Document (jsonBuilder json valueVisitor) maxJsonDepth held text) :
    NestsWithin json (bytes text) := by
  intro levels value text' same deep
  cases JsonDecoder.bytes_injective same
  -- With enough levels for both the reader returns both values.
  have more : levels ≤ max levels maxJsonDepth ∧ maxJsonDepth ≤ max levels maxJsonDepth := by omega
  have first := (Json.readDocument_eq_some _ _ _ _).mpr (imp (fun _ _ => rfl) more.1 deep)
  have second := (Json.readDocument_eq_some _ _ _ _).mpr (imp (fun _ _ => rfl) more.2 shallow)
  rw [second] at first
  cases first
  exact shallow

theorem plainJson_list : Json.Document (jsonBuilder (plainJson : JsonLibrary (Value Unit Unit)) valueVisitor) maxJsonDepth
    (.list [.int 1]) ['[', '1', ']'] := by
  have read : Json.readDocument (plainBuilder (valueVisitor : JsonVisitor (Value Unit Unit))) maxJsonDepth ['[', '1', ']'] =
      some (.list [.int 1]) := rfl
  have document := (Json.readDocument_eq_some _ _ _ _).mp read
  exact imp (fun token isToken => (plainJson_number valueVisitor isToken).symm) (Nat.le_refl _) document

/-- A decoder without interruptions over the small library. -/
def plainInput : DecoderInput (Value Unit Unit) := ⟨plainJson, .never, 40, 56⟩

def plainDecoder : JsonDecoder := ⟨[], 0, 0, 0, .unlimited, 0⟩

def plainChunks : List (List UInt8) := [bytes ['['], bytes ['1', ']']]

/-- A list in two chunks. -/
theorem json_readers_agree_list : Agree plainInput plainDecoder plainChunks.flatten
    ((fromJson .document plainChunks 16).pull plainInput.json).1 := by
  have whole : plainChunks.flatten = bytes ['[', '1', ']'] := by decide
  have length : plainChunks.flatten.length = 3 := by decide
  have size : plainChunks.flatten.length ≤ maxJsonInput := by
    unfold maxJsonInput
    omega
  have room : plainChunks.flatten.length ≤ 16 := by omega
  have nests : NestsWithin plainInput.json plainChunks.flatten := by
    rw [whole]
    exact nestsWithin_of_document plainJson_list
  exact json_readers_agree plainInput plainDecoder plainChunks 16 (plainJson_documented valueVisitor) size room nests

end Opaal.Runtime
