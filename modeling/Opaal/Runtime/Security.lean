import Mathlib.Data.List.DropRight
import Mathlib.Tactic.IntervalCases
import Std.Data.ExtTreeMap
import Std.Data.ExtTreeSet
import Opaal.Text.Decode

/-!
# Secret storage and redaction

A store takes ownership of explicitly injected secrets and remembers every common
representation of each of them, also after the secret was consumed.  Redaction puts
a fixed marker in place of the representations it meets, and falls back to the marker
alone when one would still be readable in the result.

What the loop and the byte windows of the code need to return, a needle that is not
empty, is not assumed: an empty one makes the definitions below return nothing.
-/

namespace Opaal.Runtime.Security

open Opaal.Text

/-- The replacement emitted for every registered representation. -/
def redacted : List Char := "[redacted]".toList

def maxSecrets : Nat := 8

def maxSecretBytes : Nat := 64 * 1024

/-- One explicit secret identity. -/
@[ext]
structure SecretId where
  value : String
  nonempty : value ≠ ""
deriving DecidableEq

instance : Ord SecretId := ⟨compareOn fun id => id.value⟩

instance : Std.TransOrd SecretId := inferInstanceAs (Std.TransCmp (compareOn fun id : SecretId => id.value))

inductive SecretError where
  | emptyId
  | emptyPayload
  | payloadTooLarge (size max : Nat)
  | tooManySecrets (max : Nat)
  | duplicateId (id : SecretId)
deriving DecidableEq

def SecretId.new (value : String) : Except SecretError SecretId :=
  if nonempty : value ≠ "" then .ok ⟨value, nonempty⟩ else .error .emptyId

/-- One secret owned by an evaluation. -/
structure Secret where
  id : SecretId
  payload : List UInt8
  nonempty : payload ≠ []
  bounded : payload.length ≤ maxSecretBytes

def Secret.new (id : SecretId) (payload : List UInt8) : Except SecretError Secret :=
  if nonempty : payload ≠ [] then
    if bounded : payload.length ≤ maxSecretBytes then .ok ⟨id, payload, nonempty, bounded⟩
    else .error (.payloadTooLarge payload.length maxSecretBytes)
  else .error .emptyPayload

/-! ## Representations -/

/-- The byte at a place of an alphabet; every use is in range. -/
def letter (alphabet : String) (place : UInt8) : UInt8 := (alphabet.toList.map Char.toUInt8).getD place.toNat 0

def encodeHex (payload : List UInt8) : List UInt8 :=
  payload.flatMap fun (byte : UInt8) =>
    [letter "0123456789abcdef" (byte >>> 4), letter "0123456789abcdef" (byte &&& 0x0f)]

def base64Alphabet (urlSafe : Bool) : String :=
  if urlSafe then "ABCDEFGHIJKLMNOPQRSTUVWXYZabcdefghijklmnopqrstuvwxyz0123456789-_"
  else "ABCDEFGHIJKLMNOPQRSTUVWXYZabcdefghijklmnopqrstuvwxyz0123456789+/"

/-- Padding for a short last chunk; the URL form has none. -/
def padding (urlSafe : Bool) (count : Nat) : List UInt8 :=
  if urlSafe then [] else List.replicate count '='.toUInt8

def encodeBase64 (urlSafe : Bool) : List UInt8 → List UInt8
  | [] => []
  | [first] =>
    [letter (base64Alphabet urlSafe) (first >>> 2), letter (base64Alphabet urlSafe) ((first &&& 0x03) <<< 4)] ++
      padding urlSafe 2
  | [first, second] =>
    [letter (base64Alphabet urlSafe) (first >>> 2),
      letter (base64Alphabet urlSafe) (((first &&& 0x03) <<< 4) ||| (second >>> 4)),
      letter (base64Alphabet urlSafe) ((second &&& 0x0f) <<< 2)] ++ padding urlSafe 1
  | first :: second :: third :: rest =>
    [letter (base64Alphabet urlSafe) (first >>> 2),
      letter (base64Alphabet urlSafe) (((first &&& 0x03) <<< 4) ||| (second >>> 4)),
      letter (base64Alphabet urlSafe) (((second &&& 0x0f) <<< 2) ||| (third >>> 6)),
      letter (base64Alphabet urlSafe) (third &&& 0x3f)] ++ encodeBase64 urlSafe rest

def encodePercent (payload : List UInt8) : List UInt8 :=
  payload.flatMap fun (byte : UInt8) =>
    ['%'.toUInt8, letter "0123456789ABCDEF" (byte >>> 4), letter "0123456789ABCDEF" (byte &&& 0x0f)]

def asciiUppercase (byte : UInt8) : UInt8 :=
  if 'a'.toUInt8 ≤ byte ∧ byte ≤ 'z'.toUInt8 then byte - 32 else byte

def asciiLowercase (byte : UInt8) : UInt8 :=
  if 'A'.toUInt8 ≤ byte ∧ byte ≤ 'Z'.toUInt8 then byte + 32 else byte

def isPadding (byte : UInt8) : Bool := byte == '='.toUInt8

section Store

/-! `toJson` stands for the JSON library's printing of a string, quotes included. -/

variable (toJson : List Char → List UInt8)

/-- What stands between the quotes; nothing when the slice would be out of range. -/
def jsonEscaped (text : List Char) : Option (List UInt8) :=
  if 2 ≤ (toJson text).length then some ((toJson text).drop 1).dropLast else none

def needleVariants (payload : List UInt8) : Option (List (List UInt8)) := do
  let hex := encodeHex payload
  let standardBase64 := encodeBase64 false payload
  let urlBase64 := encodeBase64 true payload
  let percent := encodePercent payload
  let variants := [
    payload,
    hex,
    hex.map asciiUppercase,
    standardBase64,
    standardBase64.rdropWhile isPadding,
    urlBase64,
    urlBase64 ++ List.replicate ((4 - urlBase64.length % 4) % 4) '='.toUInt8,
    percent,
    percent.map asciiLowercase]
  match decode payload with
  | some text => return variants ++ [← jsonEscaped toJson text]
  | none => return variants

/-- Longest first, and in byte order among needles of one length. -/
def sortLongestFirst (needles : List (List UInt8)) : List (List UInt8) :=
  needles.mergeSort fun left right => ((compare right.length left.length).then (compare left right)).isLE

structure SecretStore where
  secrets : Std.ExtTreeMap SecretId Secret
  seenIds : Std.ExtTreeSet SecretId
  redactionNeedles : List (List UInt8)

/-- Why an insertion leaves the store as it is. -/
inductive StoreFailure where
  | rejected (error : SecretError)
  | panicked
deriving DecidableEq

def SecretStore.new : SecretStore := ⟨∅, ∅, []⟩

def SecretStore.insert (store : SecretStore) (secret : Secret) : Except StoreFailure SecretStore :=
  if store.seenIds.contains secret.id then
    .error (.rejected (.duplicateId secret.id))
  else if store.seenIds.size = maxSecrets then
    .error (.rejected (.tooManySecrets maxSecrets))
  else
    match needleVariants toJson secret.payload with
    | none => .error .panicked
    | some variants => .ok {
        secrets := store.secrets.insert secret.id secret
        seenIds := store.seenIds.insert secret.id
        redactionNeedles := sortLongestFirst (store.redactionNeedles ++ variants) }

/-- The secret leaves the store; its representations stay. -/
def SecretStore.consume (store : SecretStore) (id : SecretId) : SecretStore :=
  { store with secrets := store.secrets.erase id }

end Store

/-! ## Replacement -/

/-- The scanning loop, for at most `bound` rounds; `rest` is the input from the offset on. -/
def replaceLoop (needles : List (List UInt8)) : Nat → List UInt8 → List UInt8 → Option (List UInt8)
  | 0, _, _ => none
  | _ + 1, [], output => some output
  | bound + 1, byte :: rest, output =>
    let replacement := bytes redacted
    let matchingNeedle := needles.find? fun needle => needle.isPrefixOf (byte :: rest)
    if replacement.isPrefixOf (byte :: rest) && matchingNeedle.all (fun needle => needle.length ≤ replacement.length) then
      replaceLoop needles bound ((byte :: rest).drop replacement.length) (output ++ replacement)
    else
      match matchingNeedle with
      | some needle => replaceLoop needles bound ((byte :: rest).drop needle.length) (output ++ replacement)
      | none => replaceLoop needles bound rest (output ++ [byte])

/-- Whether the window from `start` to `stop` lies inside a marker of the input. -/
def containedInReplacement (input : List UInt8) (start stop : Nat) : Bool :=
  let replacement := bytes redacted
  let earliest := start - (replacement.length - 1)
  let latest := min start (input.length - replacement.length)
  (List.range (latest + 1)).any fun markerStart =>
    earliest ≤ markerStart && replacement.isPrefixOf (input.drop markerStart) &&
      stop ≤ markerStart + replacement.length

/-- The windows of one size with their starts; there are none of size zero to ask for. -/
def windows (input : List UInt8) (size : Nat) : Option (List (Nat × List UInt8)) :=
  if size = 0 then none
  else some ((List.range (input.length + 1 - size)).map fun start => (start, (input.drop start).take size))

def containsUnredactedNeedle (input : List UInt8) (needles : List (List UInt8)) : Option Bool :=
  needles.anyM fun needle => do
    let found ← windows input needle.length
    return found.any fun (start, window) =>
      window == needle && !containedInReplacement input start (start + needle.length)

def replaceNeedles (input : List UInt8) (needles : List (List UInt8)) : Option (List UInt8) := do
  let output ← replaceLoop needles (input.length + 1) input []
  if ← containsUnredactedNeedle output needles then
    return bytes redacted
  else
    return output

def SecretStore.redactBytes (store : SecretStore) (input : List UInt8) : Option (List UInt8) :=
  replaceNeedles input store.redactionNeedles

/-- Redaction of text, by the representations that are text themselves. -/
def SecretStore.redactText (store : SecretStore) (input : List Char) : Option (List Char) := do
  let needles := store.redactionNeedles.filter fun needle => (decode needle).isSome
  let output ← replaceNeedles (bytes input) (sortLongestFirst needles)
  decode output

end Opaal.Runtime.Security
