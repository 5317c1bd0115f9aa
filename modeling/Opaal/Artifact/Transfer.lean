import Opaal.Json.Ordered
import Opaal.Operational.Stdio
import Opaal.Artifact.Fields

/-!
# The record of a transfer

What the journal keeps of a call of the standard host and the rules that its bytes are checked by.
-/

namespace Opaal.Workflow

open List

open Opaal.Json (Tree Members)
open Opaal.Operational

/-! ## The check -/

def exactKeys (object : Members) (expected : List String) (context : String) : Checked Unit :=
  if object.all (fun member => expected.contains member.1) && expected.all object.containsKey then .ok ()
  else invalid (context ++ " has missing or unknown fields")

def requireNull (object : Members) (field : String) : Checked Unit := do
  let value ← required object field
  refuseIf (!value.isNull) "metadata-only evidence contains payload metadata"

def transferFields : List String :=
  ["kind", "operation", "effect", "requested_bytes", "admitted_bytes", "confirmed_bytes", "uncertain_bytes_upper_bound",
    "eof"]

/-- The kind and the effect of an operation. -/
def transferRole : String → Option (String × String)
  | "std::random::int" | "std::random::float" | "std::random::bytes" => some ("entropy", "entropy.system")
  | "std::io::read_stdin" => some ("standard-stream", "stdin.read")
  | "std::io::print" | "std::io::println" | "std::io::write_stdout" => some ("standard-stream", "stdout.write")
  | "std::io::eprint" | "std::io::eprintln" | "std::io::write_stderr" => some ("standard-stream", "stderr.write")
  | _ => none

/-- Integers and floats are drawn in words of eight bytes. -/
def drawsWords (operation : String) : Bool := operation == "std::random::int" || operation == "std::random::float"

def neverEmpty (operation : String) : Bool :=
  operation == "std::io::read_stdin" || operation == "std::io::println" || operation == "std::io::eprintln"

def requestDisagrees (operation : String) (requested admitted : Nat) : Bool :=
  (operation == "std::random::float" && requested ≠ 8) || (operation == "std::random::int" && requested % 8 ≠ 0) ||
    (drawsWords operation && admitted % 8 ≠ 0) || (neverEmpty operation && requested = 0)

def exceedsFill (operation : String) (confirmed uncertain : Nat) : Bool :=
  maxEntropyFillBytes < uncertain ||
    (drawsWords operation && (confirmed % 8 ≠ 0 || !(uncertain = 0 || uncertain = 8)))

def validateProgress (kind operation : String) (object : Members) (admitted : Nat) : Checked Unit := do
  let confirmed ← requiredU64 object "confirmed_bytes"
  let uncertain ← requiredU64 object "uncertain_bytes_upper_bound"
  refuseIf ((checkedAdd confirmed uncertain).all fun total => admitted < total) "transfer progress exceeds admission"
  refuseIf (kind == "entropy" && exceedsFill operation confirmed uncertain) "entropy progress exceeds one admitted fill"
  refuseIf (kind == "standard-stream" && maxStreamChunkBytes < uncertain) "stream progress exceeds one admitted chunk"

def validateTransferOperation (effect : String) (object : Members) (after : Bool) : Checked Unit := do
  exactKeys object transferFields "standard host operation"
  let operation ← requiredString object "operation"
  match transferRole operation with
  | none => journalCorrupt "unknown standard host operation"
  | some (kind, expectedEffect) => do
    let heldKind ← requiredString object "kind"
    refuseIf (heldKind != kind) "standard host operation and effect disagree"
    let heldEffect ← requiredString object "effect"
    refuseIf (heldEffect != expectedEffect || effect != expectedEffect) "standard host operation and effect disagree"
    let requested ← requiredU64 object "requested_bytes"
    let admitted ← requiredU64 object "admitted_bytes"
    refuseIf (requested < admitted) "admitted transfer exceeds its request"
    refuseIf (requestDisagrees operation requested admitted) "requested bytes disagree with operation"
    if after then validateProgress kind operation object admitted
    else do
      requireNull object "confirmed_bytes"
      requireNull object "uncertain_bytes_upper_bound"
    let eof ← expect (object.get? "eof") "no entry found for key"
    refuseIf (!eof.isNull && !(after && operation == "std::io::read_stdin" && eof = .bool true))
      "EOF is not an observed read result"

/-! ## The record -/

/-- `value as u64` -/
def countTree (value : Nat) : Tree := Tree.ofNat (value % 2 ^ 64) (Nat.mod_lt _ (by decide))

def authorityEffectName : AuthorityEffect → String
  | .entropySystem => "entropy.system"
  | .stdinRead => "stdin.read"
  | .stdoutWrite => "stdout.write"
  | .stderrWrite => "stderr.write"

/-- The effect that an operation of `std::io` declares. -/
def declaredEffect : String → Option AuthorityEffect
  | "read_stdin" => some .stdinRead
  | "print" | "println" | "write_stdout" => some .stdoutWrite
  | "eprint" | "eprintln" | "write_stderr" => some .stderrWrite
  | _ => none

/-- The entries of an effect that is over; `requested` is what was admitted before it began. -/
def transferEntries (kind operation effect : String) (requested : Nat) (progress : HostProgress) (eof : Option Bool) :
    List (String × Tree) :=
  [("kind", .string kind), ("operation", .string operation), ("effect", .string effect),
    ("requested_bytes", countTree requested), ("admitted_bytes", countTree progress.admittedBytes),
    ("confirmed_bytes", countTree progress.confirmedBytes),
    ("uncertain_bytes_upper_bound", countTree progress.uncertainBytesUpperBound),
    ("eof", eof.elim .null .bool)]

def transferOperation (kind operation effect : String) (requested : Nat) (progress : HostProgress) (eof : Option Bool) :
    Members :=
  Members.ofEntries (transferEntries kind operation effect requested progress eof)

def streamOperation (name : String) (effect : AuthorityEffect) (requested : Nat) (progress : HostProgress) : Members :=
  transferOperation "standard-stream" ("std::io::" ++ name) (authorityEffectName effect) requested progress progress.eof

def entropyOperation (name : String) (requested : Nat) (progress : HostProgress) : Members :=
  transferOperation "entropy" ("std::random::" ++ name) "entropy.system" requested progress none

/-! ## What passes -/

section Passes

variable {kind operation effect : String} {requested : Nat} {progress : HostProgress} {eof : Option Bool}

theorem countTree_asU64 {value : Nat} (bound : value < 2 ^ 64) : (countTree value).asU64 = some value := by
  simp only [countTree, Tree.ofNat, Tree.asU64, Nat.mod_eq_of_lt bound]
  simp

/-- The byte rules, as a condition on what was asked for and what was moved. -/
structure RulesKept (kind operation : String) (requested : Nat) (progress : HostProgress) (eof : Option Bool) : Prop where
  small : requested < 2 ^ 64
  admitted : progress.admittedBytes ≤ requested
  agrees : requestDisagrees operation requested progress.admittedBytes = false
  moved : progress.confirmedBytes + progress.uncertainBytesUpperBound ≤ progress.admittedBytes
  fill : kind = "entropy" → exceedsFill operation progress.confirmedBytes progress.uncertainBytesUpperBound = false
  chunk : kind = "standard-stream" → progress.uncertainBytesUpperBound ≤ maxStreamChunkBytes
  ended : eof = none ∨ (operation = "std::io::read_stdin" ∧ eof = some true)

/-- The record has its fields and no others. -/
theorem transferOperation_keys :
    exactKeys (transferOperation kind operation effect requested progress eof) transferFields "standard host operation" =
      .ok () := by
  unfold exactKeys
  rw [if_pos]
  rw [Bool.and_eq_true, all_eq_true, all_eq_true]
  refine ⟨?_, ?_⟩
  · intro member held
    have entry := Members.mem_ofEntries held
    simp only [transferEntries, mem_cons, not_mem_nil, or_false] at entry
    rcases entry with rfl | rfl | rfl | rfl | rfl | rfl | rfl | rfl <;> rfl
  · intro key held
    simp only [transferFields, mem_cons, not_mem_nil, or_false] at held
    rcases held with rfl | rfl | rfl | rfl | rfl | rfl | rfl | rfl <;>
      rw [Members.containsKey, transferOperation, Members.get?_ofEntries] <;> rfl

theorem requiredU64_count {object : Members} {name : String} {value : Nat}
    (found : object.get? name = some (countTree value)) (bound : value < 2 ^ 64) : requiredU64 object name = .ok value := by
  have read := countTree_asU64 bound
  unfold requiredU64 requiredAs required
  rw [found]
  simp [bind, Except.bind, read]

theorem requiredString_string {object : Members} {name value : String} (found : object.get? name = some (.string value)) :
    requiredString object name = .ok value := by
  unfold requiredString requiredAs required
  rw [found]
  rfl

theorem validateProgress_ok (kept : RulesKept kind operation requested progress eof) :
    validateProgress kind operation (transferOperation kind operation effect requested progress eof)
      progress.admittedBytes = .ok () := by
  obtain ⟨small, admitted, _, moved, fill, chunk, _⟩ := kept
  have confirmed : requiredU64 (transferOperation kind operation effect requested progress eof) "confirmed_bytes" =
      .ok progress.confirmedBytes := by
    refine requiredU64_count ?_ (by omega)
    rw [transferOperation, Members.get?_ofEntries]
    rfl
  have uncertain : requiredU64 (transferOperation kind operation effect requested progress eof)
      "uncertain_bytes_upper_bound" = .ok progress.uncertainBytesUpperBound := by
    refine requiredU64_count ?_ (by omega)
    rw [transferOperation, Members.get?_ofEntries]
    rfl
  have total : checkedAdd progress.confirmedBytes progress.uncertainBytesUpperBound =
      some (progress.confirmedBytes + progress.uncertainBytesUpperBound) := by
    unfold checkedAdd maxU64
    rw [if_pos (by omega)]
  have within : (checkedAdd progress.confirmedBytes progress.uncertainBytesUpperBound).all
      (fun total => decide (progress.admittedBytes < total)) = false := by
    rw [total]
    exact decide_eq_false (Nat.not_lt.mpr moved)
  have entropy : (kind == "entropy" && exceedsFill operation progress.confirmedBytes progress.uncertainBytesUpperBound) =
      false := by
    cases isEntropy : kind == "entropy" with
    | false => rfl
    | true => exact fill (eq_of_beq isEntropy)
  have stream : (kind == "standard-stream" && decide (maxStreamChunkBytes < progress.uncertainBytesUpperBound)) =
      false := by
    cases isStream : kind == "standard-stream" with
    | false => rfl
    | true => exact decide_eq_false (Nat.not_lt.mpr (chunk (eq_of_beq isStream)))
  unfold validateProgress
  rw [confirmed, uncertain]
  show (refuseIf _ _ >>= fun _ => refuseIf _ _ >>= fun _ => refuseIf _ _) = _
  rw [within, entropy, stream]
  rfl

theorem validateTransferOperation_ok (role : transferRole operation = some (kind, effect))
    (kept : RulesKept kind operation requested progress eof) :
    validateTransferOperation effect (transferOperation kind operation effect requested progress eof) true = .ok () := by
  have progressed := @validateProgress_ok kind operation effect requested progress eof kept
  obtain ⟨small, admitted, agrees, _, _, _, ended⟩ := kept
  have found : ∀ name value, (transferEntries kind operation effect requested progress eof).reverse.lookup name = some value →
      (transferOperation kind operation effect requested progress eof).get? name = some value := by
    intro name value listed
    rw [transferOperation, Members.get?_ofEntries]
    exact listed
  have isEof : (!(eof.elim Tree.null Tree.bool).isNull &&
      !(true && operation == "std::io::read_stdin" && decide (eof.elim Tree.null Tree.bool = .bool true))) = false := by
    rcases ended with rfl | ⟨rfl, rfl⟩ <;> rfl
  have within : decide (requested < progress.admittedBytes) = false := decide_eq_false (Nat.not_lt.mpr admitted)
  unfold validateTransferOperation
  rw [transferOperation_keys, requiredString_string (found "operation" _ rfl),
    requiredString_string (found "kind" _ rfl), requiredString_string (found "effect" _ rfl),
    requiredU64_count (found "requested_bytes" _ rfl) small,
    requiredU64_count (found "admitted_bytes" _ rfl) (by omega), found "eof" _ rfl]
  show (match transferRole operation with | none => _ | some (kind, expectedEffect) => _) = _
  rw [role]
  show (refuseIf (kind != kind) _ >>= fun _ => refuseIf (effect != effect || effect != effect) _ >>= fun _ =>
    refuseIf _ _ >>= fun _ => refuseIf _ _ >>= fun _ => validateProgress _ _ _ _ >>= fun _ => refuseIf _ _) = _
  rw [bne_self_eq_false, bne_self_eq_false, within, agrees, progressed, isEof]
  rfl

end Passes

end Opaal.Workflow
