import Opaal.Artifact.Fields

/-!
# The lifecycle of a run journal

What a journal may record after what: `JournalLifecycle::admit` takes the events one by one and
`validate_host_bytes` compares the bytes admitted so far with the accepted standard-host policy.
A writer and an auditor both run the two after every event.
-/

namespace Opaal.Workflow

open Opaal.Json (Tree Members)

structure OpenEffect where
  actionNodeId : String
  effect : String
  scope : Tree
  operation : Tree
  attempt : Nat
deriving DecidableEq

/-- The stacks have their top first; the cleanup lists are in the order of the events. -/
structure JournalLifecycle where
  actionStack : List String := []
  effectStack : List OpenEffect := []
  cleanup : List Tree := []
  cleanupOrdinals : List Nat := []
  cleanupResourceIds : Finset String := ∅
  nextAttempt : Nat := 0
  actionPhaseStarted : Bool := false
  cleanupStarted : Bool := false
  terminal : Bool := false
  hostBytes : Nat := 0
deriving DecidableEq

structure Event where
  kind : String
  payload : Tree
deriving DecidableEq

/-! ## The identity of an operation -/

/-- `matches!(value.as_str(), Some("entropy" | "standard-stream"))` -/
def isTransfer (kind : Tree) : Bool :=
  kind.asStr = some "entropy" || kind.asStr = some "standard-stream"

/-- The order of `Option<u64>`, where `None` is the least. -/
def optionLess : Option Nat → Option Nat → Bool
  | _, none => false
  | none, some _ => true
  | some left, some right => left < right

/-- The fields in which the result of an operation is recorded. -/
def resultFields : Option String → Option (List String)
  | some "filesystem" => some ["bytes", "evidence_digest"]
  | some "process" => some ["status", "stdout_bytes", "stderr_bytes", "evidence_digest"]
  | some "http" => some ["status", "body_bytes", "evidence_digest"]
  | some "clock" | some "secret-reveal" => some ["evidence_digest"]
  | some "entropy" | some "standard-stream" =>
    some ["admitted_bytes", "confirmed_bytes", "uncertain_bytes_upper_bound", "eof"]
  | _ => none

def clearOperationResult (value : Tree) : Checked Tree :=
  match value.asObject with
  | none => journalCorrupt "operation descriptor must be an object"
  | some object =>
    match resultFields ((object.get? "kind").bind Tree.asStr) with
    | none => journalCorrupt "unknown operation descriptor kind"
    | some fields => .ok (.object (fields.foldl (fun object field => Members.insert field .null object) object))

def sameOperationIdentity (before after : Tree) : Checked Bool :=
  if isTransfer (before.index "kind") &&
      optionLess (before.index "admitted_bytes").asU64 (after.index "admitted_bytes").asU64 then
    .ok false
  else do
    let before ← clearOperationResult before
    let after ← clearOperationResult after
    return before = after

/-! ## Events -/

namespace JournalLifecycle

/-- The fold of the open effects, which stops where a sum does not fit. -/
def openBytes (total : Nat) : List OpenEffect → Option Nat
  | [] => some total
  | effect :: effects =>
    (checkedAdd total ((effect.operation.index "admitted_bytes").asU64.getD 0)).bind (openBytes · effects)

def validateHostBytes (self : JournalLifecycle) : Option Tree → Checked Unit
  | none => .ok ()
  | some policy =>
    match openBytes self.hostBytes self.effectStack with
    | none => journalCorrupt "cumulative standard host byte count overflow"
    | some admitted => do
      let limit ← expect (policy.index "max_host_bytes").asU64 "validated limit"
      refuseIf (limit < admitted) "cumulative transfer exceeds accepted standard host limit"

/-- The node of an action is the digest of its contract and an ordinal of six digits. -/
def isNodeOf (contract node : String) : Bool :=
  ((stripPrefix? contract.toList node.toList).bind (stripPrefix? ['#'])).any fun ordinal =>
    ordinal.length = 6 && ordinal.all Char.isDigit

def actionStart (self : JournalLifecycle) (object : Members) : Checked JournalLifecycle := do
  refuseIf self.cleanupStarted "action starts after cleanup began"
  refuseIf (!self.effectStack.isEmpty) "action starts inside an open effect"
  let node ← requiredString object "action_node_id"
  let contract ← requiredDigest object "contract_digest"
  refuseIf (!isNodeOf contract node) "action-start node identity disagrees with its contract digest"
  return { self with actionPhaseStarted := true, actionStack := node :: self.actionStack }

def actionEnd (self : JournalLifecycle) (object : Members) : Checked JournalLifecycle := do
  refuseIf (!self.effectStack.isEmpty) "action ends inside an open effect"
  let node ← requiredString object "action_node_id"
  match self.actionStack with
  | active :: actions =>
    if active = node then return { self with actionStack := actions }
    else journalCorrupt "action boundaries are not properly nested"
  | [] => journalCorrupt "action boundaries are not properly nested"

/-- Before the first action only a process probe may have an effect. -/
def validateOwner (self : JournalLifecycle) (object : Members) (node : String) : Checked Unit :=
  match self.actionStack with
  | active :: _ => refuseIf (active ≠ node) "effect is not owned by the active action"
  | [] =>
    if self.actionPhaseStarted then journalCorrupt "effect occurs outside an action boundary"
    else do
      let effect ← requiredString object "effect"
      refuseIf (effect ≠ "process.run") "only maintained process probes may precede the action lifecycle"

def effectBefore (self : JournalLifecycle) (object : Members) : Checked JournalLifecycle := do
  refuseIf self.cleanupStarted "effect starts after cleanup began"
  let node ← requiredString object "action_node_id"
  validateOwner self object node
  let attempt ← requiredU64 object "attempt"
  refuseIf (attempt ≠ self.nextAttempt) "effect attempt identities are not contiguous"
  match checkedAdd self.nextAttempt 1 with
  | none => journalCorrupt "effect attempt identity overflow"
  | some nextAttempt => do
    let effect ← requiredString object "effect"
    let scope ← required object "scope"
    let operation ← required object "operation"
    return { self with nextAttempt, effectStack := ⟨node, effect, scope, operation, attempt⟩ :: self.effectStack }

/-- The total of the closed transfers is raised before the effect is matched. -/
def countTransfer (self : JournalLifecycle) (operation : Tree) : Checked Nat :=
  if isTransfer (operation.index "kind") then do
    let admitted ← expect (operation.index "admitted_bytes").asU64 "validated count"
    match checkedAdd self.hostBytes admitted with
    | none => journalCorrupt "cumulative standard host byte count overflow"
    | some hostBytes => return hostBytes
  else
    .ok self.hostBytes

/-- The comparisons of `||` are made in the order of the source: the first that differs decides. -/
def sameEffect (effect : OpenEffect) (object : Members) : Checked Bool := do
  let node ← requiredString object "action_node_id"
  if effect.actionNodeId ≠ node then return false
  let name ← requiredString object "effect"
  if effect.effect ≠ name then return false
  let scope ← required object "scope"
  if effect.scope ≠ scope then return false
  let operation ← required object "operation"
  if !(← sameOperationIdentity effect.operation operation) then return false
  let attempt ← requiredU64 object "attempt"
  return effect.attempt = attempt

def effectAfter (self : JournalLifecycle) (object : Members) : Checked JournalLifecycle := do
  let operation ← required object "operation"
  let hostBytes ← countTransfer self operation
  match self.effectStack with
  | [] => journalCorrupt "effect-after has no matching before event"
  | effect :: effects => do
    let same ← sameEffect effect object
    refuseIf (!same) "effect before/after identities disagree"
    return { self with hostBytes, effectStack := effects }

def cleanUp (self : JournalLifecycle) (object : Members) : Checked JournalLifecycle := do
  refuseIf (!self.actionStack.isEmpty || !self.effectStack.isEmpty)
    "cleanup occurs before action and effect boundaries close"
  let resourceId ← requiredString object "resource_id"
  refuseIf (resourceId ∈ self.cleanupResourceIds) "cleanup resource identities are not unique"
  let ordinal ← requiredU64 object "ordinal"
  refuseIf (self.cleanupOrdinals.getLast?.any fun previous => previous = 0 || previous - 1 ≠ ordinal)
    "cleanup resource ordinals are not contiguous in LIFO order"
  let outcome ← required object "outcome"
  return { self with
    cleanupStarted := true
    cleanupResourceIds := insert resourceId self.cleanupResourceIds
    cleanupOrdinals := self.cleanupOrdinals ++ [ordinal]
    cleanup := self.cleanup ++ [outcome] }

def finish (self : JournalLifecycle) (object : Members) : Checked JournalLifecycle := do
  refuseIf (!self.actionStack.isEmpty || !self.effectStack.isEmpty)
    "terminal occurs before action and effect boundaries close"
  let cleanup ← required object "cleanup"
  refuseIf (cleanup ≠ .array self.cleanup) "terminal cleanup disagrees with preceding cleanup events"
  refuseIf (self.cleanupOrdinals.getLast?.any (· ≠ 0)) "complete cleanup does not reach the first registered resource"
  return { self with terminal := true }

def admitEvent (self : JournalLifecycle) (event : Event) : Checked JournalLifecycle :=
  if self.terminal then journalCorrupt "journal content follows terminal"
  else do
    let object ← expect event.payload.asObject "journal payload schema requires an object"
    match event.kind with
    | "action-start" => actionStart self object
    | "action-end" => actionEnd self object
    | "effect-before" => effectBefore self object
    | "effect-after" => effectAfter self object
    | "cleanup" => cleanUp self object
    | "terminal" => finish self object
    | "evidence-failure" => return self
    | _ => journalCorrupt "unknown journal event kind"

/-- One event of a journal with a standard-host policy: it is admitted and the bytes are compared. -/
def record (policy : Option Tree) (self : JournalLifecycle) (event : Event) : Checked JournalLifecycle := do
  let admitted ← admitEvent self event
  validateHostBytes admitted policy
  return admitted

def recordAll (policy : Option Tree) (self : JournalLifecycle) (events : List Event) : Checked JournalLifecycle :=
  events.foldlM (record policy) self

end JournalLifecycle

end Opaal.Workflow
