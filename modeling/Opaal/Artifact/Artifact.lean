import Opaal.Json.Canonical
import Opaal.Artifact.Fields

/-!
# Canonical artifacts

Check, plan and audit artifacts are sealed by a digest over their own canonical encoding.
The JSON library, the hash and the closed schemas of the three kinds are what sealing and
parsing share; nothing here depends on what a schema accepts.
-/

namespace Opaal.Workflow

open Opaal.Json
open Opaal.Text (bytes)

inductive ArtifactKind where
  | check
  | plan
  | audit
deriving DecidableEq

def maxArtifactBytes : Nat := 8 * 1024 * 1024

def maxAuditBytes : Nat := 16 * 1024 * 1024

def maxArtifactDepth : Nat := 64

namespace ArtifactKind

def schema : ArtifactKind → String
  | check => "opaal.check.v2"
  | plan => "opaal.plan.v2"
  | audit => "opaal.audit.v2"

def maxBytes : ArtifactKind → Nat
  | audit => maxAuditBytes
  | check | plan => maxArtifactBytes

end ArtifactKind

/-- What the artifacts are made with: `serde_json::from_slice`, `serde_json::to_writer` of a string,
the hexadecimal SHA-256 of some bytes, and `validate_check`, `validate_plan` and `validate_audit`. -/
structure Services where
  fromSlice : List UInt8 → Except String OrderedTree
  toWriter : String → List UInt8
  sha256 : List UInt8 → String
  validate : ArtifactKind → Members → Nat → Checked Unit

/-! ## Encoding -/

def numberRefused {α : Type} : Checked α := invalid "artifact numbers must be non-negative integers"

mutual

def validateDepth (depth : Nat) (value : Tree) : Checked Unit :=
  if maxArtifactDepth < depth then .error (.error "ARTIFACT001" "artifact nesting exceeds its limit")
  else
    match value with
    | .array items => validateItems (depth + 1) items
    | .object members => validateMembers (depth + 1) members
    | .number number => if (Tree.number number).asU64.isSome then .ok () else numberRefused
    | .null | .bool _ | .string _ => .ok ()

def validateItems (depth : Nat) : List Tree → Checked Unit
  | [] => .ok ()
  | item :: items => do
    validateDepth depth item
    validateItems depth items

def validateMembers (depth : Nat) : List (String × Tree) → Checked Unit
  | [] => .ok ()
  | (_, value) :: members => do
    validateDepth depth value
    validateMembers depth members

end

/-- The fields in the order of the UTF-16 code units of their names, between braces. -/
def writeFields (toWriter : String → List UInt8) (fields : List (String × List UInt8)) : List UInt8 :=
  between '\x7b' '\x7d' (commas ((sortByUtf16 fields).map fun field => memberText toWriter field.1 field.2))

mutual

-- The values of the fields are written before the fields are sorted: all of them can fail with
-- the one error of a number only, so the order in which they are written is not seen.
def writeCanonicalJson (toWriter : String → List UInt8) : Tree → Checked (List UInt8)
  | .null => .ok (bytes ['n', 'u', 'l', 'l'])
  | .bool true => .ok (bytes ['t', 'r', 'u', 'e'])
  | .bool false => .ok (bytes ['f', 'a', 'l', 's', 'e'])
  | .number number =>
    match (Tree.number number).asU64 with
    | some value => .ok (bytes (Nat.toDigits 10 value))
    | none => numberRefused
  | .string value => .ok (toWriter value)
  | .array items => do
    let texts ← writeItems toWriter items
    return between '[' ']' (commas texts)
  | .object members => do
    let fields ← writeMembers toWriter members
    return writeFields toWriter fields

def writeItems (toWriter : String → List UInt8) : List Tree → Checked (List (List UInt8))
  | [] => .ok []
  | item :: items => do
    let text ← writeCanonicalJson toWriter item
    let texts ← writeItems toWriter items
    return text :: texts

def writeMembers (toWriter : String → List UInt8) : List (String × Tree) → Checked (List (String × List UInt8))
  | [] => .ok []
  | (name, value) :: members => do
    let text ← writeCanonicalJson toWriter value
    let fields ← writeMembers toWriter members
    return (name, text) :: fields

end

def withoutDigest (object : Members) : Members := object.filter fun member => member.1 ≠ "digest"

def writeCanonicalObject (toWriter : String → List UInt8) (object : Members) (omitDigest : Bool) : Checked (List UInt8) := do
  let fields ← writeMembers toWriter (if omitDigest then withoutDigest object else object)
  return writeFields toWriter fields

/-! ## Sealing and parsing -/

structure CanonicalArtifact where
  value : Tree
  bytes : List UInt8
  digest : String
deriving DecidableEq

/-- `str::strip_suffix`, on the characters -/
def stripSuffix? (suffix text : String) : Option (List Char) :=
  stripPrefix? suffix.toList.reverse text.toList.reverse

def schemaVersion (schema : String) (version : Nat) (second : String) : Checked Nat :=
  if (version = 2 ∧ schema = second) ∨
      (version = 3 ∧ stripSuffix? ".v3" schema = stripSuffix? ".v2" second) ∨
      (version = 4 ∧ stripSuffix? ".v4" schema = stripSuffix? ".v2" second) ∨
      (version = 5 ∧ stripSuffix? ".v5" schema = stripSuffix? ".v2" second) then
    .ok version
  else
    .error (.error "ARTIFACT006" "unsupported artifact schema or version")

namespace CanonicalArtifact

variable (services : Services)

def validateArtifact (kind : ArtifactKind) (value : Tree) : Checked Unit := do
  validateDepth 0 value
  let object ← Workflow.asObject value "artifact"
  let schema ← requiredString object "schema"
  let number ← requiredU64 object "schema_version"
  let version ← schemaVersion schema number kind.schema
  services.validate kind object version

def digestObjectWithoutDigest (object : Members) : Checked String := do
  let body ← writeCanonicalObject services.toWriter object true
  return "sha256:" ++ services.sha256 body

def refuseLarge (kind : ArtifactKind) (bytes : List UInt8) : Checked Unit :=
  if kind.maxBytes < bytes.length then
    .error (.error "ARTIFACT001" ("artifact exceeds " ++ toString kind.maxBytes ++ " bytes"))
  else
    .ok ()

def fromParts (kind : ArtifactKind) (value : Tree) (bytes : List UInt8) : Checked CanonicalArtifact := do
  validateArtifact services kind value
  let object ← expect value.asObject "artifact schema requires an object"
  let digest ← requiredDigest object "digest"
  let expected ← digestObjectWithoutDigest services object
  if expected ≠ digest then .error (.error "ARTIFACT005" "artifact digest does not match its canonical content")
  else do
    refuseLarge kind bytes
    return ⟨value, bytes, digest⟩

/-- The digest that stands in for the one that is not computed yet. -/
def placeholder : String := "sha256:" ++ "".pushn '0' 64

def sealArtifact (kind : ArtifactKind) (value : Tree) : Checked CanonicalArtifact :=
  match value.asObject with
  | none => .error (.error "ARTIFACT002" "artifact must be a JSON object")
  | some object =>
    if object.containsKey "digest" then .error (.error "ARTIFACT003" "artifact sealing input must omit digest")
    else do
      let object := Members.insert "digest" (.string placeholder) object
      validateArtifact services kind (.object object)
      let digest ← digestObjectWithoutDigest services object
      let object := Members.insert "digest" (.string digest) object
      let bytes ← writeCanonicalJson services.toWriter (.object object)
      fromParts services kind (.object object) bytes

def parse (kind : ArtifactKind) (bytes : List UInt8) : Checked CanonicalArtifact := do
  refuseLarge kind bytes
  match services.fromSlice bytes with
  | .error error => .error (.error "ARTIFACT002" ("invalid JSON: " ++ error))
  | .ok value => do
    validateDepth 0 value.tree
    let canonical ← writeCanonicalJson services.toWriter value.tree
    if canonical ≠ bytes then .error (.error "ARTIFACT004" "artifact is not canonical JSON")
    else fromParts services kind value.tree canonical

end CanonicalArtifact

end Opaal.Workflow
