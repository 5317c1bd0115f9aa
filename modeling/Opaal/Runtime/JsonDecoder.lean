import Mathlib.Data.List.Defs
import Opaal.Machine.Action
import Opaal.Runtime.Budget
import Opaal.Runtime.Stream
import Opaal.Text.Decode

/-!
# The budgeted JSON decoder

A hand-written scanner over bytes that polls for cancellation and charges the evaluation's
budget as it goes.  Strings, containers and duplicate keys are its own work; the syntax and
the rounding of numbers belong to the JSON library, which is a parameter here.
-/

namespace Opaal.Runtime

open Opaal.Machine
open Opaal.Text (decode)

variable {F C : Type}

/-! ## The JSON library -/

/-- What the library calls back for the values it meets; numbers and objects may be refused. -/
structure JsonVisitor (α : Type) where
  visitUnit : α
  visitBool : Bool → α
  visitI64 : Int64 → Option α
  visitU64 : UInt64 → Option α
  visitF64 : Number.Binary64 → Option α
  visitStr : List Char → α
  visitSeq : List α → α
  visitMap : List (List Char × α) → Option α

/-- A refused document: where the library stopped, and the repeated key when it was the visitor
that refused. -/
structure JsonError where
  line : Nat
  column : Nat
  duplicate : Option (List Char)

/-- The library: a whole document read through a visitor, how much of a number it reads before
it decides, and how it prints strings and doubles. -/
structure JsonLibrary (α : Type) where
  deserialize : JsonVisitor α → List UInt8 → Except JsonError α
  numberReads : List UInt8 → Nat
  serializeString : List Char → List UInt8
  printFloat : Number.Binary64 → List UInt8

/-- The double nearest to an unsigned integer of 54 to 64 bits, ties to even. -/
def floatOfU64 (value : UInt64) : Number.Binary64 :=
  let shift := value.toNat.log2 - 52
  let significand := value.toNat / 2 ^ shift
  let rest := value.toNat % 2 ^ shift
  let rounded :=
    if 2 ^ shift < 2 * rest ∨ (2 * rest = 2 ^ shift ∧ significand % 2 = 1) then significand + 1 else significand
  -- Rounding up past the last significand moves to the next exponent.
  if rounded = 2 ^ 53 then Number.Binary64.ofFields false (1023 + value.toNat.log2 + 1) 0
  else Number.Binary64.ofFields false (1023 + value.toNat.log2) (rounded - 2 ^ 52)

/-- A double beyond the finite ones is refused. -/
def floatValue (value : Number.Binary64) : Option (Value F C) :=
  match FiniteFloat.new value with
  | .ok float => some (.float float)
  | .error _ => none

def recordKeysDistinct {α : Type} (entries : List (List Char × α)) : Bool := decide (entries.map Prod.fst).Nodup

/-- The visitor that builds runtime values. -/
def valueVisitor : JsonVisitor (Value F C) where
  visitUnit := .null
  visitBool := .bool
  visitI64 value := some (.int value)
  visitU64 value :=
    -- An unsigned value beyond 64 signed bits keeps its magnitude as a float.
    if value.toNat < 2 ^ 63 then some (.int (Int64.ofNat value.toNat)) else floatValue (floatOfU64 value)
  visitF64 := floatValue
  visitStr text := .string (String.ofList text)
  visitSeq := .list
  visitMap entries :=
    if recordKeysDistinct entries then some (.record (entries.map fun (key, value) => (String.ofList key, value)))
    else none

/-! ## The decoder -/

def maxJsonInput : Nat := 8 * 1024 * 1024

def maxJsonDepth : Nat := 64

def chunkSize : Nat := 4096

/-- Why a decoding ends without a value.  `unbounded` and `panicked` stand for a loop that
does not end and for a failed expectation. -/
inductive Abort where
  | cancelled
  | budgetExceeded
  | invalid (code message : String)
  | unbounded
  | panicked
deriving DecidableEq

/-- What a decoder is given besides its input: the library, the token it polls, and the sizes
of a value and of a record entry in memory. -/
structure DecoderInput (β : Type) where
  json : JsonLibrary β
  cancel : CancellationToken
  sizeOfValue : Nat
  sizeOfEntry : Nat

/-- The input from the cursor on, and what is shared with the evaluation. -/
structure JsonDecoder where
  rest : List UInt8
  cursor : Nat
  scanRemaining : Nat
  outputRemaining : Nat
  budget : ResourceBudget
  polls : Nat

/-- Programs of a decoder whose library builds values in `β`. -/
abbrev DecodeM (β : Type) := Action (DecoderInput β) Abort JsonDecoder

namespace JsonDecoder

variable {β : Type}

def checkCancel : DecodeM β Unit := fun input decoder =>
  if input.cancel.isCancelled decoder.polls then .error .cancelled { decoder with polls := decoder.polls + 1 }
  else .ok () { decoder with polls := decoder.polls + 1 }

/-- A charge that may be refused. -/
def spend (charge : ResourceBudget → Option ResourceBudget) : DecodeM β Unit := fun _ decoder =>
  match charge decoder.budget with
  | some budget => .ok () { decoder with budget }
  | none => .error .budgetExceeded decoder

def visit : DecodeM β Unit := do
  checkCancel
  spend ResourceBudget.charge

def retainCollectionBytes (amount : Nat) : DecodeM β Unit := spend (ResourceBudget.chargeCollectionBytes amount)

def malformed {α : Type} : DecodeM β α := fun _ decoder =>
  .error (.invalid "DATA016" ("invalid JSON at byte " ++ toString decoder.cursor)) decoder

def peek : DecodeM β (Option UInt8) := fun _ decoder => .ok decoder.rest.head? decoder

/-- A visit for every chunk of the input that is scanned. -/
def refillScan : DecodeM β Unit := do
  if (← get).scanRemaining = 0 then
    visit
    modify fun decoder => { decoder with scanRemaining := chunkSize }
  else return

def bump : DecodeM β UInt8 := do
  refillScan
  match (← get).rest with
  | [] => malformed
  | byte :: rest =>
    modify fun decoder =>
      { decoder with rest, cursor := decoder.cursor + 1, scanRemaining := decoder.scanRemaining - 1 }
    return byte

def expect (expected : Char) : DecodeM β Unit := do
  if (← peek) ≠ some expected.toUInt8 then malformed
  else
    let _ ← bump

/-- Consumes one byte when it is of a kind. -/
def skipTurn (kind : UInt8 → Bool) (_ : Unit) : DecodeM β (Turn Unit Unit) := do
  if (← peek).any kind then
    let _ ← bump
    return .again ()
  else return .done ()

/-- Consumes bytes while they are of a kind. -/
def skipWhile (kind : UInt8 → Bool) : DecodeM β Unit := do
  repeatFrom .unbounded (skipTurn kind) ((← get).rest.length + 1) ()

def isWhitespace (byte : UInt8) : Bool :=
  byte == ' '.toUInt8 || byte == '\n'.toUInt8 || byte == '\r'.toUInt8 || byte == '\t'.toUInt8

def whitespace : DecodeM β Unit := skipWhile isWhitespace

def retainItem (size : Nat) : DecodeM β Unit := do
  visit
  retainCollectionBytes size
  spend (ResourceBudget.chargeCollectionItems 1)

def literal (expected : List Char) : DecodeM β Unit := expected.forM expect

/-! ### Strings -/

/-- A visit for every chunk of text that is put out. -/
def refillOutput (bytes : Nat) : DecodeM β Unit := do
  if (← get).outputRemaining < bytes then
    visit
    modify fun decoder => { decoder with outputRemaining := chunkSize }
  else return

def pushChar (output : List Char) (character : Char) : DecodeM β (List Char) := do
  let bytes := character.utf8Size
  refillOutput bytes
  modify fun decoder => { decoder with outputRemaining := decoder.outputRemaining - bytes }
  retainCollectionBytes bytes
  return output ++ [character]

def hexDigitOf (digit : UInt8) : Option Nat :=
  if '0'.toUInt8 ≤ digit ∧ digit ≤ '9'.toUInt8 then some (digit - '0'.toUInt8).toNat
  else if 'a'.toUInt8 ≤ digit ∧ digit ≤ 'f'.toUInt8 then some (digit - 'a'.toUInt8 + 10).toNat
  else if 'A'.toUInt8 ≤ digit ∧ digit ≤ 'F'.toUInt8 then some (digit - 'A'.toUInt8 + 10).toNat
  else none

/-- Digits one after another, most significant first. -/
def hexFrom : Nat → Nat → DecodeM β Nat
  | 0, number => return number
  | count + 1, number => do
    match hexDigitOf (← bump) with
    | some digit => hexFrom count (number * 16 + digit)
    | none => malformed

def hex4 : DecodeM β Nat := hexFrom 4 0

/-- A scalar value; surrogates and numbers past the last one are malformed. -/
def charFromU32 (number : Nat) : DecodeM β Char :=
  if number.isValidChar then return Char.ofNat number else malformed

def unicodeEscape : DecodeM β Char := do
  let first ← hex4
  if 0xd800 ≤ first ∧ first ≤ 0xdbff then
    expect '\\'
    expect 'u'
    let second ← hex4
    if 0xdc00 ≤ second ∧ second ≤ 0xdfff then charFromU32 (0x10000 + (first - 0xd800) <<< 10 + second - 0xdc00)
    else malformed
  else charFromU32 first

def escape : DecodeM β Char := do
  let byte ← bump
  if byte = '"'.toUInt8 then return '"'
  else if byte = '\\'.toUInt8 then return '\\'
  else if byte = '/'.toUInt8 then return '/'
  else if byte = 'b'.toUInt8 then return '\x08'
  else if byte = 'f'.toUInt8 then return '\x0c'
  else if byte = 'n'.toUInt8 then return '\n'
  else if byte = 'r'.toUInt8 then return '\r'
  else if byte = 't'.toUInt8 then return '\t'
  else if byte = 'u'.toUInt8 then unicodeEscape
  else malformed

/-- The bytes of a scalar by its first one; the input was validated. -/
def scalarWidth (byte : UInt8) : Option Nat :=
  if 0xc2 ≤ byte ∧ byte ≤ 0xdf then some 2
  else if 0xe0 ≤ byte ∧ byte ≤ 0xef then some 3
  else if 0xf0 ≤ byte ∧ byte ≤ 0xf4 then some 4
  else none

def bumpMany : Nat → DecodeM β (List UInt8)
  | 0 => return []
  | count + 1 => do
    let byte ← bump
    return byte :: (← bumpMany count)

def wideScalar (byte : UInt8) : DecodeM β Char := do
  match scalarWidth byte with
  | none => throw .panicked
  | some width =>
    let more ← bumpMany (width - 1)
    match decode (byte :: more) with
    | some (character :: _) => return character
    | _ => throw .panicked

/-- One character of a string, or its end. -/
def stringTurn (output : List Char) : DecodeM β (Turn (List Char) (List Char)) := do
  let byte ← bump
  if byte = '"'.toUInt8 then return .done output
  else if byte ≤ 0x1f then malformed
  else
    let character ←
      if byte = '\\'.toUInt8 then escape
      else if byte ≤ 0x7f then pure (Char.ofNat byte.toNat)
      else wideScalar byte
    return .again (← pushChar output character)

def string : DecodeM β (List Char) := do
  expect '"'
  repeatFrom .unbounded stringTurn ((← get).rest.length + 1) []

/-! ### Numbers -/

def isNumberByte (byte : UInt8) : Bool :=
  ('0'.toUInt8 ≤ byte && byte ≤ '9'.toUInt8) || byte == '-'.toUInt8 || byte == '+'.toUInt8 || byte == '.'.toUInt8 ||
    byte == 'e'.toUInt8 || byte == 'E'.toUInt8

/-- The library reads the token through the decoder, which visits at every chunk it starts. -/
def number : DecodeM (Value F C) (Value F C) := do
  let start ← get
  skipWhile isNumberByte
  let token := start.rest.take ((← get).cursor - start.cursor)
  let input ← read
  (token.take (input.json.numberReads token)).toChunks chunkSize |>.forM fun _ => visit
  match input.json.deserialize valueVisitor token with
  | .ok value => return value
  | .error _ => throw (.invalid "DATA016" ("invalid JSON number at byte " ++ toString start.cursor))

/-! ### Record keys

A stable bottom-up merge sort of positions by the bytes of their keys, which visits for every
slot, every comparison and every chunk of key bytes. -/

/-- Chunk by chunk; the lengths decide when the shorter key has no more. -/
def compareChunks (lengths : Ordering) : List (List UInt8 × List UInt8) → DecodeM β Ordering
  | [] => return lengths
  | (left, right) :: more => do
    visit
    let order := compare left right
    if order ≠ .eq then return order else compareChunks lengths more

def compareKeyBytes (left right : List UInt8) : DecodeM β Ordering :=
  compareChunks (compare left.length right.length) ((left.toChunks chunkSize).zip (right.toChunks chunkSize))

def recordCompare (left right : List UInt8) : DecodeM β Ordering := do
  visit
  compareKeyBytes left right

/-- Room for positions, eight bytes each. -/
def recordWorkspace (length : Nat) : DecodeM β Unit := do
  checkCancel
  retainCollectionBytes (length * 8)

/-- Fills so many slots from two runs; the left one goes first unless its key is greater. -/
def mergeRuns (key : Nat → List UInt8) : Nat → List Nat → List Nat → DecodeM β (List Nat)
  | 0, _, _ => return []
  | slots + 1, left, right => do
    visit
    match left, right with
    | first :: left, [] => return first :: (← mergeRuns key slots left [])
    | first :: left, other :: right =>
      if (← recordCompare (key first) (key other)) ≠ .gt then
        return first :: (← mergeRuns key slots left (other :: right))
      else return other :: (← mergeRuns key slots (first :: left) right)
    | [], other :: right => return other :: (← mergeRuns key slots [] right)
    | [], [] => throw .panicked

/-- Merges neighbouring runs of one width, in at most `bound` merges. -/
def mergePass (key : Nat → List UInt8) (width : Nat) : Nat → List Nat → DecodeM β (List Nat)
  | 0, _ => throw .unbounded
  | _ + 1, [] => return []
  | bound + 1, index :: indices => do
    let left := (index :: indices).take width
    let right := ((index :: indices).drop width).take width
    let merged ← mergeRuns key (left.length + right.length) left right
    return merged ++ (← mergePass key width bound ((index :: indices).drop (left.length + right.length)))

/-- Passes with twice the width each. -/
def mergePasses (key : Nat → List UInt8) : Nat → Nat → List Nat → DecodeM β (List Nat)
  | 0, _, _ => throw .unbounded
  | bound + 1, width, indices =>
    if width < indices.length then do
      let merged ← mergePass key width (indices.length + 1) indices
      mergePasses key bound (width * 2) merged
    else return indices

def sortedRecordIndices (length : Nat) (key : Nat → List UInt8) : DecodeM β (List Nat) := do
  recordWorkspace length
  (List.range length).forM fun _ => visit
  if length < 2 then return List.range length
  else
    recordWorkspace length
    (List.range length).forM fun _ => visit
    mergePasses key (length + 1) 1 (List.range length)

/-- A character as diagnostics show it. -/
def escapeDefault (c : Char) : List Char :=
  if c = '\t' then ['\\', 't']
  else if c = '\r' then ['\\', 'r']
  else if c = '\n' then ['\\', 'n']
  else if c = '\x27' ∨ c = '"' ∨ c = '\\' then ['\\', c]
  else if 0x20 ≤ c.toNat ∧ c.toNat ≤ 0x7e then [c]
  else ['\\', 'u', '\x7b'] ++ Nat.toDigits 16 c.toNat ++ ['\x7d']

def keyExcerpt (key : List Char) : List Char :=
  (key.take 32).flatMap escapeDefault ++ if 32 < key.length then ['…'] else []

/-- Equal keys are neighbours once sorted; the first pair of them is reported. -/
def checkNeighbours (keys : List (List Char)) : List Nat → DecodeM β Unit
  | first :: second :: more => do
    let key := fun index => Text.bytes (keys.getD index [])
    if (← recordCompare (key first) (key second)) = .eq then
      throw (.invalid "DATA018" ("JSON object repeated key \"" ++ String.ofList (keyExcerpt (keys.getD first [])) ++ "\""))
    else checkNeighbours keys (second :: more)
  | _ => return

/-! ### Values -/

/-- Items and the commas between them. -/
def separatedTurn {γ : Type} (item : DecodeM β γ) (items : List γ) : DecodeM β (Turn (List γ) (List γ)) := do
  let value ← item
  whitespace
  if (← peek) ≠ some ','.toUInt8 then return .done (items ++ [value])
  else
    let _ ← bump
    return .again (items ++ [value])

/-- A container between its brackets. -/
def enclosed {γ : Type} (first last : Char) (item : DecodeM β γ) : DecodeM β (List γ) := do
  expect first
  whitespace
  let items ←
    if (← peek) ≠ some last.toUInt8 then repeatFrom .unbounded (separatedTurn item) ((← get).rest.length + 1) []
    else pure []
  expect last
  return items

variable (value : DecodeM (Value F C) (Value F C))

def array : DecodeM (Value F C) (Value F C) := do
  let items ← enclosed '[' ']' do
    retainItem (← read).sizeOfValue
    value
  return .list items

def member : DecodeM (Value F C) (List Char × Value F C) := do
  retainItem (← read).sizeOfEntry
  whitespace
  let key ← string
  whitespace
  expect ':'
  return (key, ← value)

def object : DecodeM (Value F C) (Value F C) := do
  let entries ← enclosed '\x7b' '\x7d' (member value)
  let keys := entries.map Prod.fst
  let indices ← sortedRecordIndices entries.length fun index => Text.bytes (keys.getD index [])
  checkNeighbours keys indices
  return .record (entries.map fun (key, value) => (String.ofList key, value))

def leaveCall : DecodeM β Unit := fun _ decoder =>
  match decoder.budget.leaveCall with
  | some budget => .ok () { decoder with budget }
  | none => .error .panicked decoder

/-- A container counts as a call, which is left also when the container fails. -/
def container {γ : Type} (inner : DecodeM β γ) : DecodeM β γ := do
  spend ResourceBudget.enterCall
  let outcome ← observed inner
  leaveCall
  replay outcome

/-- A value, with so many levels of nesting left; at none the input nests too deep. -/
def valueAt : Nat → DecodeM (Value F C) (Value F C)
  | 0 => do
    visit
    whitespace
    throw (.invalid "DATA017" "JSON nesting exceeds 64")
  | levels + 1 => do
    visit
    whitespace
    match ← peek with
    | none => malformed
    | some byte =>
      if byte = 'n'.toUInt8 then
        literal ['n', 'u', 'l', 'l']
        return .null
      else if byte = 't'.toUInt8 then
        literal ['t', 'r', 'u', 'e']
        return .bool true
      else if byte = 'f'.toUInt8 then
        literal ['f', 'a', 'l', 's', 'e']
        return .bool false
      else if byte = '"'.toUInt8 then return .string (String.ofList (← string))
      else if byte = '['.toUInt8 then container (array (valueAt levels))
      else if byte = '\x7b'.toUInt8 then container (object (valueAt levels))
      else if byte = '-'.toUInt8 ∨ ('0'.toUInt8 ≤ byte ∧ byte ≤ '9'.toUInt8) then number
      else malformed

end JsonDecoder

/-! ## Validation and the whole document -/

/-- The longest prefix that is well-formed text. -/
def validUpTo (input : List UInt8) : Nat :=
  ((List.range (input.length + 1)).reverse.find? fun size => (decode (input.take size)).isSome).getD 0

/-- Whether the input ends inside a scalar: bytes that more bytes could complete. -/
def endsInsideScalar (rest : List UInt8) : Bool :=
  (List.range 0x110000).any fun code =>
    code.isValidChar && rest.isPrefixOf (String.utf8EncodeChar (Char.ofNat code)) &&
      rest.length < (String.utf8EncodeChar (Char.ofNat code)).length

/-- One chunk of the input, from a cursor that is at a scalar boundary; none when the input is
validated to its end. -/
def validateTurn {β : Type} (input : List UInt8) (cursor : Nat) : DecodeM β (Turn Nat Unit) := do
  if cursor < input.length then
    JsonDecoder.visit
    let stop := min (cursor + chunkSize) input.length
    let chunk := (input.drop cursor).take (stop - cursor)
    if (decode chunk).isSome then return .again stop
    else if endsInsideScalar (chunk.drop (validUpTo chunk)) && stop < input.length then
      return .again (cursor + validUpTo chunk)
    else throw (.invalid "DATA015" ("invalid JSON UTF8 at byte " ++ toString (cursor + validUpTo chunk)))
  else return .done ()

def jsonDecode (input : List UInt8) : DecodeM (Value F C) (Value F C) := do
  JsonDecoder.checkCancel
  if maxJsonInput < input.length then throw (.invalid "DATA014" "JSON input exceeds 8 MiB")
  else
    repeatFrom .unbounded (validateTurn input) (input.length + 1) 0
    modify fun decoder => { decoder with rest := input, cursor := 0, scanRemaining := 0, outputRemaining := 0 }
    let value ← JsonDecoder.valueAt maxJsonDepth
    JsonDecoder.whitespace
    if (← JsonDecoder.peek).isSome then JsonDecoder.malformed else return value

end Opaal.Runtime
