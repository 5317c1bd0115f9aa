import Opaal.Artifact.Artifact
import Opaal.Artifact.Discipline

/-!
# Writing a run journal

The chain of a journal checks an event, seals it into a line with the digest of the line
before it, and admits it to the lifecycle; an event that is refused leaves the chain as it was.
The file under it may refuse the line, and after that nothing is written any more.  Over a whole
run the chain accounts for the lines and keeps room for the last one.
-/

namespace Opaal.Workflow

open Opaal.Json (Tree Members)
open Opaal.Machine (bind_ok)
open Opaal.Text (bytes)

def maxJournalBytes : Nat := 16 * 1024 * 1024

def maxJournalLines : Nat := 100000

/-- What is kept free for the terminal line. -/
def journalTerminalReserveBytes : Nat := 64 * 1024

def journalLimit {α : Type} : Checked α := .error (.error "JOURNAL001" "journal exceeds its line or byte limit")

/-- What a chain is made with: the encoding and the hash of `Services`, `validate_journal_payload`
past its check that the payload is an object, `validate_host_event` and `validate_assessment`. -/
structure JournalServices where
  toWriter : String → List UInt8
  sha256 : List UInt8 → String
  validatePayload : String → Members → UInt64 → Checked Unit
  validateHostEvent : Event → Option Tree → UInt64 → Checked Unit
  validateAssessment : String → Tree → Tree → Checked Unit

structure JournalChain where
  runId : String
  version : UInt64
  standardHost : Option Tree
  resultPolicy : Option String
  nextSequence : UInt64
  previous : Option String
  lines : Nat
  bytes : Nat
  terminal : Bool
  lifecycle : JournalLifecycle
deriving DecidableEq

namespace JournalChain

section Definitions

variable (services : JournalServices)

def journalSchema (version : UInt64) : String :=
  if version = 5 then "opaal.run-journal.v5"
  else if version = 4 then "opaal.run-journal.v4"
  else if version = 3 then "opaal.run-journal.v3"
  else "opaal.run-journal.v2"

theorem lower_toNat (value : UInt64) : -2 ^ 63 ≤ (value.toNat : Int) := by omega

theorem upper_toNat (value : UInt64) : (value.toNat : Int) < 2 ^ 64 := by
  have small := value.toNat_lt
  omega

/-- `Value::from(u64)` -/
def numberTree (value : UInt64) : Tree :=
  .number (.integer ⟨value.toNat, lower_toNat value, upper_toNat value⟩)

def sealJournalLine (chain : JournalChain) (event : Event) (previous : String) : Checked (List UInt8 × String) := do
  let object : Members := [("schema", .string (journalSchema chain.version)), ("schema_version", numberTree chain.version),
    ("run_id", .string chain.runId), ("seq", numberTree chain.nextSequence), ("kind", .string event.kind),
    ("previous", .string previous), ("payload", event.payload)]
  let body ← writeCanonicalObject services.toWriter object false
  let digest := "sha256:" ++ services.sha256 body
  let line ← writeCanonicalJson services.toWriter (.object (Members.insert "digest" (.string digest) object))
  return (line ++ Opaal.Text.bytes ['\n'], digest)

/-- The room a line needs; only a terminal line may use the reserve. -/
def refuseFull (kind : String) (lines bytes : Nat) : Checked Unit :=
  if kind = "terminal" then
    if maxJournalLines < lines ∨ maxJournalBytes < bytes then journalLimit else .ok ()
  else if maxJournalLines ≤ lines ∨ maxJournalBytes - journalTerminalReserveBytes < bytes then journalLimit
  else .ok ()

def validateRunId (value : String) : Checked Unit :=
  if value.length = 32 ∧ value.toList.all isLowerHexDigit then .ok ()
  else .error (.error "JOURNAL002" "run id must be 32 lowercase hexadecimal digits")

/-- A chain with its header line. -/
def beginWithVersion (runId : String) (payload : Tree) (version : UInt64) : Checked (JournalChain × List UInt8) := do
  validateRunId runId
  refuseIf (version < 2 || 5 < version) "unsupported journal version"
  services.validatePayload "header" (← asObject payload "journal payload") version
  let object : Members := [("schema", .string (journalSchema version)), ("schema_version", numberTree version),
    ("run_id", .string runId), ("seq", numberTree 0), ("kind", .string "header"), ("previous", .null), ("payload", payload)]
  let digest := "sha256:" ++ services.sha256 (← writeCanonicalObject services.toWriter object false)
  let line ← writeCanonicalJson services.toWriter (.object (Members.insert "digest" (.string digest) object))
  let line := line ++ Opaal.Text.bytes ['\n']
  if maxJournalBytes - journalTerminalReserveBytes < line.length then journalLimit
  else
    return (⟨runId, version, payload.get? "standard_host", (payload.get? "result_policy").bind Tree.asStr, 1, some digest, 1,
      line.length, false, {}⟩, line)

def validateEvent (chain : JournalChain) (event : Event) : Checked Unit := do
  let object ← asObject event.payload "journal payload"
  services.validatePayload event.kind object chain.version
  services.validateHostEvent event chain.standardHost chain.version
  match event.kind, chain.resultPolicy with
  | "terminal", some policy =>
    services.validateAssessment policy (event.payload.index "primary") (event.payload.index "assessment")
  | _, _ => .ok ()

def append (chain : JournalChain) (event : Event) : Checked (JournalChain × List UInt8) := do
  if chain.terminal then .error (.error "JOURNAL008" "journal content cannot follow terminal")
  else if event.kind = "header" then .error (.error "JOURNAL004" "journal header is unique and must be first")
  else
    validateEvent services chain event
    let previous ← expect chain.previous "a begun journal has a previous digest"
    let (line, digest) ← sealJournalLine services chain event previous
    let lines := chain.lines + 1
    let bytes := chain.bytes + line.length
    refuseFull event.kind lines bytes
    let lifecycle ← chain.lifecycle.record chain.standardHost event
    match checkedAdd chain.nextSequence.toNat 1 with
    | none => .error (.error "JOURNAL001" "journal sequence overflow")
    | some nextSequence =>
      return ({ chain with
        nextSequence := UInt64.ofNat nextSequence
        previous := some digest
        lines
        bytes
        terminal := event.kind = "terminal"
        lifecycle }, line)

end Definitions

/-! ## What an appended event changes -/

variable {services : JournalServices} {chain next : JournalChain} {event : Event} {line : List UInt8}

theorem append_ok (appended : chain.append services event = .ok (next, line)) :
    refuseFull event.kind (chain.lines + 1) (chain.bytes + line.length) = .ok () ∧
      chain.lifecycle.record chain.standardHost event = .ok next.lifecycle ∧
      ∃ nextSequence digest, checkedAdd chain.nextSequence.toNat 1 = some nextSequence ∧
        next = { chain with
          nextSequence := UInt64.ofNat nextSequence
          previous := some digest
          lines := chain.lines + 1
          bytes := chain.bytes + line.length
          terminal := event.kind = "terminal"
          lifecycle := next.lifecycle } := by
  unfold append at appended
  split at appended
  · cases appended
  · split at appended
    · cases appended
    · obtain ⟨_, _, appended⟩ := bind_ok appended
      obtain ⟨_, _, appended⟩ := bind_ok appended
      obtain ⟨_, _, appended⟩ := bind_ok appended
      obtain ⟨_, room, appended⟩ := bind_ok appended
      obtain ⟨_, recorded, appended⟩ := bind_ok appended
      split at appended
      · cases appended
      · next added =>
        cases appended
        exact ⟨room, recorded, _, _, added, rfl⟩

/-- A line is only given out for an event that the lifecycle admits. -/
theorem append_admitted (appended : chain.append services event = .ok (next, line)) :
    Admitted chain.lifecycle event next.lifecycle :=
  (record_ok (append_ok appended).2.1).2.1

/-! ## The account of a chain -/

variable {events : List Event} {content : List UInt8}

/-- The chain is that of the events and the bytes, and the reserve is free until the terminal line. -/
structure Accounted (chain : JournalChain) (events : List Event) (content : List UInt8) : Prop where
  lines : chain.lines = events.length + 1
  bytes : chain.bytes = content.length
  sequence : chain.nextSequence.toNat = chain.lines
  bounded : chain.lines ≤ maxJournalLines ∧ chain.bytes ≤ maxJournalBytes
  reserve : chain.terminal = false →
    chain.lines < maxJournalLines ∧ chain.bytes + journalTerminalReserveBytes ≤ maxJournalBytes
  lifecycle : JournalLifecycle.recordAll chain.standardHost {} events = .ok chain.lifecycle

theorem begin_accounted {runId : String} {payload : Tree} {version : UInt64}
    (begun : beginWithVersion services runId payload version = .ok (chain, line)) : chain.Accounted [] line := by
  obtain ⟨_, _, begun⟩ := bind_ok begun
  obtain ⟨_, _, begun⟩ := bind_ok begun
  obtain ⟨_, _, begun⟩ := bind_ok begun
  obtain ⟨_, _, begun⟩ := bind_ok begun
  obtain ⟨_, _, begun⟩ := bind_ok begun
  obtain ⟨_, _, begun⟩ := bind_ok begun
  dsimp only at begun
  split at begun
  · cases begun
  · next room =>
    cases begun
    unfold maxJournalBytes journalTerminalReserveBytes at room
    have bounded := Nat.le_of_not_lt room
    have lines : 1 < maxJournalLines := by decide
    have within := Nat.le_trans bounded (Nat.sub_le _ _)
    exact ⟨rfl, rfl, rfl, ⟨Nat.le_of_lt lines, within⟩, fun _ => ⟨lines, Nat.add_le_add_right bounded _⟩, rfl⟩

theorem refuseFull_ok {kind : String} {lines bytes : Nat} (room : refuseFull kind lines bytes = .ok ()) :
    (lines ≤ maxJournalLines ∧ bytes ≤ maxJournalBytes) ∧ (kind ≠ "terminal" →
      lines < maxJournalLines ∧ bytes + journalTerminalReserveBytes ≤ maxJournalBytes) := by
  unfold refuseFull maxJournalLines maxJournalBytes journalTerminalReserveBytes at *
  split_ifs at room with terminal full full
  · cases room
  · exact ⟨by omega, fun other => absurd terminal other⟩
  · cases room
  · omega

theorem append_accounted (accounted : chain.Accounted events content)
    (appended : chain.append services event = .ok (next, line)) : next.Accounted (events ++ [event]) (content ++ line) := by
  obtain ⟨room, recorded, _, _, added, changed⟩ := append_ok appended
  obtain ⟨bounded, reserve⟩ := refuseFull_ok room
  rw [checkedAdd_eq_some added, accounted.sequence] at changed
  rw [changed]
  refine ⟨by simp [accounted.lines], by simp [accounted.bytes], ?_, bounded, ?_, ?_⟩
  · exact UInt64.toNat_ofNat_of_lt (Nat.lt_of_le_of_lt bounded.1 (by decide))
  · intro running
    exact reserve (of_decide_eq_false running)
  · unfold JournalLifecycle.recordAll
    rw [List.foldlM_append]
    exact (congrArg (· >>= _) accounted.lifecycle).trans ((bind_pure _).trans recorded)

/-- A terminal line within the reserve is not refused for want of room. -/
theorem Accounted.room {size : Nat} (accounted : chain.Accounted events content) (running : chain.terminal = false)
    (small : size ≤ journalTerminalReserveBytes) : refuseFull "terminal" (chain.lines + 1) (chain.bytes + size) = .ok () := by
  obtain ⟨free, room⟩ := accounted.reserve running
  rw [refuseFull, if_pos rfl, if_neg (by omega)]

end JournalChain

/-! ## The file of a journal -/

/-- `failed` when a line could not be written. -/
structure SyncedJournal where
  chain : JournalChain
  failed : Bool

/-- The chain goes on from the event when its line is written and synced; `written` is the error of
the file, if there is one. -/
def SyncedJournal.append (services : JournalServices) (written : Option String) (journal : SyncedJournal) (event : Event) :
    SyncedJournal × Checked Unit :=
  if journal.failed then
    (journal, .error (.error "JOURNAL005" "journal is unavailable after a persistence failure"))
  else
    match journal.chain.append services event with
    | .error fault => (journal, .error fault)
    | .ok (next, _) =>
      match written with
      | some error => ({ journal with failed := true }, .error (.error "JOURNAL005" error))
      | none => ({ journal with chain := next }, .ok ())

namespace SyncedJournal

variable {services : JournalServices} {written : Option String} {journal after : SyncedJournal} {event : Event}

theorem append_ok (appended : journal.append services written event = (after, .ok ())) :
    ∃ line, journal.chain.append services event = .ok (after.chain, line) := by
  unfold append at appended
  split at appended
  · cases appended
  · split at appended
    · cases appended
    · next next line result =>
      split at appended
      · cases appended
      · cases appended
        exact ⟨line, result⟩

/-- A refused event leaves the chain as it was. -/
theorem append_error {fault : Fault} (refused : journal.append services written event = (after, .error fault)) :
    after.chain = journal.chain := by
  unfold append at refused
  split at refused
  · cases refused
    rfl
  · split at refused
    · cases refused
      rfl
    · split at refused
      · cases refused
        rfl
      · cases refused

/-! ## What is written in a run -/

/-- A journal with the events that were taken and the lines that were synced; a call says what becomes of the write. -/
def offer (services : JournalServices) (journal : SyncedJournal × List Event × List UInt8) (call : Option String × Event) :
    SyncedJournal × List Event × List UInt8 :=
  let (after, outcome) := journal.1.append services call.1 call.2
  match outcome, journal.1.chain.append services call.2 with
  | .ok _, .ok (_, line) => (after, journal.2.1 ++ [call.2], journal.2.2 ++ line)
  | _, _ => (after, journal.2)

theorem offer_accounted {events : List Event} {content : List UInt8} (calls : List (Option String × Event))
    (accounted : journal.chain.Accounted events content) :
    let last := calls.foldl (offer services) (journal, events, content)
    last.1.chain.Accounted last.2.1 last.2.2 := by
  induction calls generalizing journal events content with
  | nil => exact accounted
  | cons call calls ih =>
    cases offered : journal.append services call.1 call.2 with
    | mk after outcome =>
      cases outcome with
      | ok =>
        obtain ⟨line, appended⟩ := append_ok offered
        simpa [offer, offered, appended] using ih (JournalChain.append_accounted accounted appended)
      | error =>
        rw [← append_error offered] at accounted
        simpa [offer, offered] using ih accounted

end SyncedJournal

/-- Whatever events are offered and whichever writes fail, the counters are those of what was synced, the
lifecycle admits the taken events in order, and until the terminal line there is room for one. -/
theorem journal_accounted {services : JournalServices} {runId : String} {payload : Tree} {version : UInt64} {chain : JournalChain}
    {header : List UInt8} (begun : JournalChain.beginWithVersion services runId payload version = .ok (chain, header))
    (calls : List (Option String × Event)) :
    let last := calls.foldl (SyncedJournal.offer services) (⟨chain, false⟩, [], header)
    last.1.chain.Accounted last.2.1 last.2.2 ∧ (last.1.chain.terminal = false → ∀ size ≤ journalTerminalReserveBytes,
      JournalChain.refuseFull "terminal" (last.1.chain.lines + 1) (last.1.chain.bytes + size) = .ok ()) :=
  have accounted := SyncedJournal.offer_accounted calls (JournalChain.begin_accounted begun)
  ⟨accounted, fun running _ small => accounted.room running small⟩

/-- The digest is that of the header which is begun here. -/
theorem journal_accounted_header : ∃ services chain header, ∃ runId payload version,
    JournalChain.beginWithVersion services runId payload version = .ok (chain, header) ∧ chain.Accounted [] header := by
  let services : JournalServices :=
    ⟨fun text => bytes ('"' :: text.toList ++ ['"']), fun _ => "f72609765aa8e68137c5c52393909f56773b9e267922dd44bc7c89ac6cd42b47",
      fun _ _ _ => .ok (), fun _ _ _ => .ok (), fun _ _ _ => .ok ()⟩
  let digests : Members := ["accepted_plan_digest", "authority_digest", "child_environment_digest", "environment_digest",
    "plan_digest", "project_digest", "tool_lock_digest"].map fun name =>
      (name, .string "sha256:9f86d081884c7d659a2feaa0c55ad015a3bf4f1b2b0b822cd15d6c15b0f00a08")
  let begin := JournalChain.beginWithVersion services "00000000000000000000000000000000"
    (.object (digests ++ [("started_at", .string "2024-01-01T00:00:00Z")])) 2
  have accepted : begin.isOk = true := by decide +kernel
  cases begun : begin with
  | error =>
    rw [begun] at accepted
    cases accepted
  | ok => exact ⟨_, _, _, _, _, _, begun, (journal_accounted begun []).1⟩

end Opaal.Workflow
