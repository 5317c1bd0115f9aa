import Opaal.Runtime.JobRecord
import Opaal.Runtime.JsonEncoder
import Opaal.Text.Lossy

/-!
# How values are displayed

The two forms of a value: its display, and the debug form in which it stands inside other values.
Writers that a sink of text takes piece by piece give the pieces.  Runtime errors, callables and the
spelling of finite doubles are not of this module, so what they write is a parameter.
-/

namespace Opaal.Runtime

open Opaal.Text List

/-! ## UTF-8 with invalid bytes -/

/-- Why some bytes are not text: the text in front of the first byte that is wrong, and the length
of the sequence that is; no length when the bytes end too early. -/
structure Utf8Error where
  valid : List Char
  errorLen : Option Nat

def Utf8Error.validUpTo (error : Utf8Error) : Nat := width error.valid

/-- How many bytes a first byte announces, and the bounds of the first of them. -/
def announced (lead : Nat) : Option (Nat × Nat × Nat) :=
  if lead < 0xC2 then none
  else if lead ≤ 0xDF then some (1, 0x80, 0xBF)
  else if lead = 0xE0 then some (2, 0xA0, 0xBF)
  else if lead = 0xED then some (2, 0x80, 0x9F)
  else if lead ≤ 0xEF then some (2, 0x80, 0xBF)
  else if lead = 0xF0 then some (3, 0x90, 0xBF)
  else if lead ≤ 0xF3 then some (3, 0x80, 0xBF)
  else if lead = 0xF4 then some (3, 0x80, 0x8F)
  else none

/-- Where the first byte stands that does not continue an encoding. -/
def unexpectedAt (position : Nat) : Nat → List UInt8 → Option Nat
  | 0, _ => some position
  | _ + 1, [] => none
  | missing + 1, byte :: rest =>
    if 0x80 ≤ byte.toNat ∧ byte.toNat < 0xC0 then unexpectedAt (position + 1) missing rest else some position

/-- The length of the sequence that is no encoding, for bytes that no scalar starts. -/
def errorLength : List UInt8 → Option Nat
  | [] => none
  | lead :: rest =>
    match announced lead.toNat with
    | none => some 1
    | some (more, low, high) =>
      match rest with
      | [] => none
      | second :: rest =>
        if low ≤ second.toNat ∧ second.toNat ≤ high then unexpectedAt 2 (more - 1) rest else some 1

/-- The text some bytes start with, and the bytes behind it. -/
def leadingText : Nat → List UInt8 → List Char × List UInt8
  | 0, encoded => ([], encoded)
  | count + 1, encoded =>
    match nextScalar encoded with
    | none => ([], encoded)
    | some c =>
      let (text, rest) := leadingText count (encoded.drop c.utf8Size)
      (c :: text, rest)

/-- `std::str::from_utf8` -/
def fromUtf8 (encoded : List UInt8) : Except Utf8Error (List Char) :=
  match leadingText encoded.length encoded with
  | (text, []) => .ok text
  | (text, rest) => .error ⟨text, errorLength rest⟩

/-! ## Writers -/

/-- A digit as `{:X}` writes it. -/
def upperDigit (digit : Nat) : Char := (Nat.digitChar digit).toUpper

def escapeScalar (c : Char) : List (List Char) :=
  if c = '"' then [['\\', '"']]
  else if c = '\\' then [['\\', '\\']]
  else if c = '\n' then [['\\', 'n']]
  else if c = '\r' then [['\\', 'r']]
  else if c = '\t' then [['\\', 't']]
  else if c = '\x00' then [['\\', '0']]
  else if isControl c then [['\\', 'u', '\x7b'], (Nat.toDigits 16 c.toNat).map Char.toUpper, ['\x7d']]
  else [[c]]

def writeStringContent (text : List Char) : List (List Char) := text.flatMap escapeScalar

def escapeByte (byte : UInt8) : List (List Char) :=
  [['\\', 'x'], [upperDigit (byte.toNat / 16), upperDigit (byte.toNat % 16)]]

def writeByte (byte : UInt8) : List (List Char) :=
  if byte = '"'.toUInt8 then [['\\', '"']]
  else if byte = '\\'.toUInt8 then [['\\', '\\']]
  else if 0x20 ≤ byte.toNat ∧ byte.toNat ≤ 0x7e then [[Char.ofNat byte.toNat]]
  else escapeByte byte

def writeBytes (value : List UInt8) : List (List Char) := value.flatMap writeByte

/-- Every pass writes the text that comes next and the bytes that follow it and are none. -/
def writeUtf8From : Nat → List UInt8 → List (List Char)
  | 0, _ => []
  | passes + 1, encoded =>
    match encoded with
    | [] => []
    | _ :: _ =>
      match fromUtf8 encoded with
      | .ok text => writeStringContent text
      | .error error =>
        let rest := encoded.drop error.validUpTo
        let invalid := error.errorLen.getD rest.length
        writeStringContent error.valid ++ (rest.take invalid).flatMap escapeByte ++
          writeUtf8From passes (rest.drop invalid)

def writeUtf8WithInvalidBytes (encoded : List UInt8) : List (List Char) := writeUtf8From encoded.length encoded

def writeQuoted (text : List Char) : List (List Char) := [['"']] ++ writeStringContent text ++ [['"']]

/-- An integer as `{}` writes it. -/
def writeInteger (value : Int) : List (List Char) :=
  if value < 0 then [['-'], Nat.toDigits 10 value.natAbs] else [Nat.toDigits 10 value.natAbs]

def writeOptional (value : Option Int64) : List (List Char) :=
  match value with
  | some value => writeInteger value.toInt
  | none => ["null".toList]

/-- What stands in front of an item of a sequence. -/
def separator (index : Nat) (text : String) : List (List Char) := if index ≠ 0 then [text.toList] else []

/-! ## What the writers write -/

theorem leadingText_split {count : Nat} {encoded : List UInt8} (enough : encoded.length ≤ count) {text : List Char}
    {rest : List UInt8} (read : leadingText count encoded = (text, rest)) :
    encoded = bytes text ++ rest ∧ nextScalar rest = none := by
  have none_nil : nextScalar [] = none := by decide
  induction count generalizing encoded text with
  | zero =>
    cases eq_nil_of_length_eq_zero (Nat.le_zero.mp enough)
    cases read
    exact ⟨rfl, none_nil⟩
  | succ count ih =>
    unfold leadingText at read
    cases found : nextScalar encoded with
    | none =>
      rw [found] at read
      cases read
      exact ⟨rfl, found⟩
    | some c =>
      obtain ⟨after, rfl⟩ := nextScalar_eq_some found
      have size := String.length_utf8EncodeChar c
      have positive := Char.utf8Size_pos c
      rw [length_append, size] at enough
      rw [found] at read
      simp only [← size, drop_left, Prod.mk.injEq] at read
      obtain ⟨restEq, finished⟩ := ih (by omega) (Prod.ext rfl read.2 : leadingText count after = (_, rest))
      refine ⟨?_, finished⟩
      rw [← read.1, bytes_cons, append_assoc, ← restEq]

variable (encoded : List UInt8)

/-- Bytes are text, or text in front of bytes that no scalar starts. -/
theorem fromUtf8_split :
    match fromUtf8 encoded with
    | .ok text => encoded = bytes text
    | .error error => ∃ lead tail, encoded = bytes error.valid ++ lead :: tail ∧ nextScalar (lead :: tail) = none ∧
        error.errorLen = errorLength (lead :: tail) := by
  unfold fromUtf8
  obtain ⟨split, finished⟩ := leadingText_split (Nat.le_refl encoded.length)
    (Prod.ext rfl rfl : leadingText encoded.length encoded = (_, _))
  cases read : leadingText encoded.length encoded with
  | mk _ rest =>
    rw [read] at split finished
    cases rest with
    | nil => rwa [append_nil] at split
    | cons lead tail => exact ⟨lead, tail, split, finished, rfl⟩

theorem unexpectedAt_spec (position missing : Nat) (encoded : List UInt8) :
    position ≤ (unexpectedAt position missing encoded).getD (position + encoded.length) ∧
      ∀ b ∈ encoded.take ((unexpectedAt position missing encoded).getD (position + encoded.length) - position),
        IsContinuation b := by
  induction missing generalizing position encoded with
  | zero => simp [unexpectedAt]
  | succ missing ih =>
    cases encoded with
    | nil => simp [unexpectedAt]
    | cons byte rest =>
      unfold unexpectedAt
      split
      · next continuation =>
        obtain ⟨later, others⟩ := ih (position + 1) rest
        rw [show position + (byte :: rest).length = position + 1 + rest.length by rw [length_cons]; omega]
        obtain ⟨more, moreEq⟩ : ∃ more, (unexpectedAt (position + 1) missing rest).getD (position + 1 + rest.length) =
            position + 1 + more := ⟨_, (Nat.add_sub_of_le later).symm⟩
        rw [moreEq] at later others ⊢
        refine ⟨by omega, ?_⟩
        rw [show position + 1 + more - position = more + 1 by omega, take_succ_cons]
        rw [show position + 1 + more - (position + 1) = more by omega] at others
        exact forall_mem_cons.mpr ⟨continuation, others⟩
      · simp

/-- A sequence that is no encoding is a byte and continuation bytes. -/
theorem errorLength_spec (lead : UInt8) (tail : List UInt8) :
    ∃ more, (errorLength (lead :: tail)).getD (lead :: tail).length = more + 1 ∧ ∀ b ∈ tail.take more, IsContinuation b := by
  unfold errorLength
  cases known : announced lead.toNat with
  | none =>
    simp only [known]
    exact ⟨0, rfl, by simp⟩
  | some announcement =>
    obtain ⟨count, low, high⟩ := announcement
    simp only [known]
    have bounds : 0x80 ≤ low ∧ high ≤ 0xBF := by
      unfold announced at known
      grind
    cases tail with
    | nil => exact ⟨0, rfl, by simp⟩
    | cons second rest =>
      by_cases continues : low ≤ second.toNat ∧ second.toNat ≤ high
      · simp only [if_pos continues]
        obtain ⟨later, others⟩ := unexpectedAt_spec 2 (count - 1) rest
        rw [show (lead :: second :: rest).length = 2 + rest.length by simp only [length_cons]; omega]
        obtain ⟨more, moreEq⟩ : ∃ more, (unexpectedAt 2 (count - 1) rest).getD (2 + rest.length) = 2 + more :=
          ⟨_, (Nat.add_sub_of_le later).symm⟩
        rw [moreEq] at others ⊢
        refine ⟨more + 1, by omega, ?_⟩
        rw [Nat.add_sub_cancel_left] at others
        refine forall_mem_cons.mpr ⟨?_, others⟩
        unfold IsContinuation
        omega
      · simp only [if_neg continues]
        exact ⟨0, rfl, by simp⟩

/-- What is written for a scalar inside a string. -/
def scalarText (c : Char) : List Char := (escapeScalar c).flatten

/-- What is written for a byte that is not part of text. -/
def byteText (byte : UInt8) : List Char := (escapeByte byte).flatten

theorem writeStringContent_flatten (text : List Char) : (writeStringContent text).flatten = text.flatMap scalarText := by
  induction text with
  | nil => rfl
  | cons _ _ ih =>
    unfold writeStringContent at ih ⊢
    rw [flatMap_cons, flatten_append, ih, flatMap_cons]
    rfl

theorem flatMap_escapeByte_flatten :
    (encoded.flatMap escapeByte).flatten = encoded.flatMap byteText := by
  induction encoded with
  | nil => rfl
  | cons _ _ ih =>
    rw [flatMap_cons, flatten_append, ih, flatMap_cons]
    rfl

theorem writeUtf8From_flatten {passes : Nat} {encoded : List UInt8} (enough : encoded.length ≤ passes) :
    (writeUtf8From passes encoded).flatten = lossy scalarText byteText encoded := by
  induction passes generalizing encoded with
  | zero =>
    cases eq_nil_of_length_eq_zero (Nat.le_zero.mp enough)
    rw [lossy_nil]
    rfl
  | succ passes ih =>
    cases encoded with
    | nil =>
      rw [lossy_nil]
      rfl
    | cons byte rest =>
      have split := fromUtf8_split (byte :: rest)
      unfold writeUtf8From
      cases read : fromUtf8 (byte :: rest) with
      | ok text =>
        rw [read] at split
        have whole := lossy_bytes scalarText byteText text []
        rw [append_nil, lossy_nil, append_nil, ← split] at whole
        rw [whole]
        exact writeStringContent_flatten text
      | error error =>
        rw [read] at split
        obtain ⟨lead, tail, split, missing, length⟩ := split
        obtain ⟨more, invalidLength, continuations⟩ := errorLength_spec lead tail
        have dropped : (byte :: rest).drop error.validUpTo = lead :: tail := by
          rw [split]
          unfold Utf8Error.validUpTo
          rw [← bytes_length, drop_left]
        simp only [dropped, length, invalidLength, take_succ_cons, drop_succ_cons]
        have shorter : (tail.drop more).length ≤ passes := by
          have total := congrArg List.length split
          rw [length_append, length_cons (a := lead)] at total
          rw [length_drop]
          omega
        have others := lossy_continuations scalarText byteText continuations (tail.drop more)
        rw [take_append_drop] at others
        rw [split, lossy_bytes, lossy_raw _ _ missing, others, flatten_append, flatten_append,
          writeStringContent_flatten, flatMap_escapeByte_flatten, ih shorter, flatMap_cons]
        simp

/-- Bytes are written scalar by scalar, and byte by byte where they are none. -/
theorem writeUtf8WithInvalidBytes_flatten :
    (writeUtf8WithInvalidBytes encoded).flatten = lossy scalarText byteText encoded :=
  writeUtf8From_flatten (Nat.le_refl _)

theorem length_byteText (byte : UInt8) : (byteText byte).length = 4 := rfl

theorem length_scalarText (c : Char) : (scalarText c).length ≤ 6 := by
  have digits : ∀ number, number < 0xa0 → (Nat.toDigits 16 number).length ≤ 2 := by decide +kernel
  unfold scalarText escapeScalar
  split
  · decide
  split
  · decide
  split
  · decide
  split
  · decide
  split
  · decide
  split
  · decide
  split
  · next control =>
    have small : c.toNat < 0xa0 := by
      unfold isControl at control
      simp only [Bool.or_eq_true, decide_eq_true_eq, Bool.and_eq_true] at control
      omega
    have bound := digits c.toNat small
    simp only [flatten_cons, flatten_nil, length_append, length_map, length_cons,
      length_nil]
    omega
  · simp

/-- The bytes of a longer scalar take more space than the scalar. -/
theorem length_scalarText_lt (c : Char) (wide : 1 < c.utf8Size) :
    (scalarText c).length < ((String.utf8EncodeChar c).flatMap byteText).length := by
  have bound := length_scalarText c
  have total : ∀ encoded : List UInt8, (encoded.flatMap byteText).length = 4 * encoded.length := by
    intro encoded
    induction encoded with
    | nil => rfl
    | cons byte encoded ih =>
      rw [flatMap_cons, length_append, ih, length_byteText, length_cons]
      omega
  rw [total, String.length_utf8EncodeChar]
  omega

/-! ## Formats -/

/-- How the parts of a value are written that are not modelled here. -/
structure Formats (F C : Type) where
  /-- `Display` of a finite double, which takes at most 327 bytes. -/
  float : FiniteFloat → List Char
  float_fits : ∀ value, width (float value) ≤ 327
  errorDebug : F → List Char
  errorDisplay : F → List Char
  callableDebug : C → List Char
  callableDisplay : C → List Char

variable {F C : Type} (formats : Formats F C)

/-- The text is put together in a buffer of 512 bytes, which is enough for every double. -/
def writeFloat (value : FiniteFloat) : List (List Char) :=
  let text := formats.float value
  if text.any fun c => c = '.' ∨ c = 'e' ∨ c = 'E' then [text] else [text, ".0".toList]

def Range.write (range : Range) : List (List Char) :=
  writeInteger range.start.toInt ++ [(if range.inclusiveEnd then "..=" else "..").toList] ++ writeInteger range.stop.toInt

/-! ## Types -/

mutual

def ValueType.display : ValueType → List Char
  | .any => "Any".toList
  | .null => "Null".toList
  | .bool => "Bool".toList
  | .int => "Int".toList
  | .float => "Float".toList
  | .string => "String".toList
  | .bytes => "Bytes".toList
  | .path => "Path".toList
  | .duration => "Duration".toList
  | .byteSize => "ByteSize".toList
  | .list element => "List[".toList ++ ValueType.display element ++ [']']
  | .record => "Record".toList
  | .table => "Table".toList
  | .range => "Range".toList
  | .status => "Status".toList
  | .error => "Error".toList
  | .function => "Function".toList
  | .closure => "Closure".toList
  | .typeParameter name => name.toList
  | .nominal id arguments =>
    id.name.toList ++ (if arguments.isEmpty then [] else ['['] ++ ValueType.displayFrom 0 arguments ++ [']'])

/-- Type arguments from an index on, with their separators. -/
def ValueType.displayFrom (index : Nat) : List ValueType → List Char
  | [] => []
  | argument :: arguments =>
    (separator index ", ").flatten ++ ValueType.display argument ++ ValueType.displayFrom (index + 1) arguments

end

def writeTypeArguments (arguments : List ValueType) : List Char :=
  if arguments.isEmpty then [] else ['['] ++ ValueType.displayFrom 0 arguments ++ [']']

/-! ## Statuses -/

def debugName : Option String → List Char
  | some name => (writeQuoted name.toList).flatten
  | none => "null".toList

def debugCompletion : Completion → List Char
  | .exit code => (writeOptional code).flatten ++ ", signal: ".toList ++ "null".toList
  | .signaled signal =>
    (writeOptional none).flatten ++ ", signal: ".toList ++ "signal(number: ".toList ++
      (writeOptional signal.number).flatten ++ ", name: ".toList ++ debugName signal.name ++ [')']

/-- The debug form of a status around that of its stages. -/
def debugStatus (completion : Completion) (stages : List Char) (duration : Duration) : List Char :=
  "status(code: ".toList ++ debugCompletion completion ++ ", stages: [".toList ++ stages ++
    "], duration: ".toList ++ (writeInteger duration.nanoseconds).flatten ++ "ns)".toList

/-- A stage has no stages of its own. -/
def StageStatus.debug (stage : StageStatus) : List Char := debugStatus stage.completion [] stage.duration

def debugStages (index : Nat) : List StageStatus → List Char
  | [] => []
  | stage :: stages => (separator index ", ").flatten ++ stage.debug ++ debugStages (index + 1) stages

def Status.debug (status : Status) : List Char :=
  debugStatus status.completion (debugStages 0 status.stages) status.duration

def Status.display (status : Status) : List Char :=
  match status.completion with
  | .exit code => if code = 0 then "success".toList else "exit ".toList ++ (writeInteger code.toInt).flatten
  | .signaled signal =>
    match signal.name, signal.number with
    | some name, some number => "signal ".toList ++ name.toList ++ " (".toList ++ (writeInteger number.toInt).flatten ++ ")".toList
    | some name, none => "signal ".toList ++ name.toList
    | none, some number => "signal ".toList ++ (writeInteger number.toInt).flatten
    -- A signal has a number or a name.
    | none, none => []

/-! ## Values -/

/-- The values without parts, in both forms. -/
inductive Scalar where
  | null
  | bool (value : Bool)
  | int (value : Int64)
  | float (value : FiniteFloat)
  | duration (value : Duration)
  | byteSize (value : ByteSize)
  | range (value : Range)

def Scalar.write (debug : Bool) : Scalar → List (List Char)
  | .null => ["null".toList]
  | .bool value => [(if value then "true" else "false").toList]
  | .int value => writeInteger value.toInt
  | .float value => writeFloat formats value
  | .duration value =>
    if debug then ["duration(".toList] ++ writeInteger value.nanoseconds ++ ["ns)".toList]
    else writeInteger value.nanoseconds ++ ["ns".toList]
  | .byteSize value =>
    if debug then ["size(".toList] ++ writeInteger value.bytes.toNat ++ ["b)".toList]
    else writeInteger value.bytes.toNat ++ ["b".toList]
  | .range value => value.write

open Scalar (write)

def debugColumns (index : Nat) : List String → List Char
  | [] => []
  | column :: columns =>
    (separator index ", ").flatten ++ (writeQuoted column.toList).flatten ++ debugColumns (index + 1) columns

mutual

/-- The form of a value inside other values. -/
def Value.debug : Value F C → List Char
  | .null => (write formats true .null).flatten
  | .bool value => (write formats true (.bool value)).flatten
  | .int value => (write formats true (.int value)).flatten
  | .float value => (write formats true (.float value)).flatten
  | .string value => (writeQuoted value.toList).flatten
  | .bytes value => "bytes\"".toList ++ (writeBytes value).flatten ++ ['"']
  | .path value => "path\"".toList ++ (writeUtf8WithInvalidBytes value.bytes).flatten ++ ['"']
  | .duration value => (write formats true (.duration value)).flatten
  | .byteSize value => (write formats true (.byteSize value)).flatten
  | .list values => ['['] ++ Value.debugFrom 0 values ++ [']']
  | .record entries => ['\x7b'] ++ Value.debugEntries 0 entries ++ ['\x7d']
  | .nominalRecord id typeArguments fields =>
    id.name.toList ++ writeTypeArguments typeArguments ++ [' ', '\x7b'] ++ Value.debugFields 0 fields ++
      (if fields.isEmpty then [] else [' ']) ++ ['\x7d']
  | .variant id typeArguments variantName payload =>
    id.name.toList ++ writeTypeArguments typeArguments ++ "::".toList ++ variantName.toList ++
      (if payload.isEmpty then [] else ['('] ++ Value.debugFrom 0 payload ++ [')'])
  | .table columns rows =>
    "table(columns: [".toList ++ debugColumns 0 columns ++ "], rows: [".toList ++ Value.debugRows 0 rows ++ "])".toList
  | .range value => (write formats true (.range value)).flatten
  | .status value => value.debug
  | .error failure => formats.errorDebug failure
  | .callable _ body => formats.callableDebug body

/-- Values from an index on, with their separators. -/
def Value.debugFrom (index : Nat) : List (Value F C) → List Char
  | [] => []
  | value :: values => (separator index ", ").flatten ++ Value.debug value ++ Value.debugFrom (index + 1) values

def Value.debugEntries (index : Nat) : List (String × Value F C) → List Char
  | [] => []
  | (key, value) :: entries =>
    (separator index ", ").flatten ++ (writeQuoted key.toList).flatten ++ ": ".toList ++ Value.debug value ++
      Value.debugEntries (index + 1) entries

def Value.debugFields (index : Nat) : List (String × Value F C) → List Char
  | [] => []
  | (name, value) :: fields =>
    (separator index ",").flatten ++ [' '] ++ name.toList ++ ": ".toList ++ Value.debug value ++
      Value.debugFields (index + 1) fields

def Value.debugRows (index : Nat) : List (List (Value F C)) → List Char
  | [] => []
  | row :: rows =>
    (separator index ", ").flatten ++ ['['] ++ Value.debugFrom 0 row ++ [']'] ++ Value.debugRows (index + 1) rows

end

def Value.display : Value F C → List Char
  | .null => (write formats false .null).flatten
  | .bool value => (write formats false (.bool value)).flatten
  | .int value => (write formats false (.int value)).flatten
  | .float value => (write formats false (.float value)).flatten
  | .string value => value.toList
  | .bytes value => (writeBytes value).flatten
  | .path value => (writeUtf8WithInvalidBytes value.bytes).flatten
  | .duration value => (write formats false (.duration value)).flatten
  | .byteSize value => (write formats false (.byteSize value)).flatten
  | .list values => Value.debug formats (.list values)
  | .record entries => Value.debug formats (.record entries)
  | .nominalRecord id typeArguments fields => Value.debug formats (.nominalRecord id typeArguments fields)
  | .variant id typeArguments variantName payload => Value.debug formats (.variant id typeArguments variantName payload)
  | .table columns rows => Value.debug formats (.table columns rows)
  | .range value => (write formats false (.range value)).flatten
  | .status value => value.display
  | .error failure => formats.errorDisplay failure
  | .callable _ body => formats.callableDisplay body

end Opaal.Runtime
