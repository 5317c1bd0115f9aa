import Opaal.Runtime.JobRecord

/-!
# The job table

The table of a session's jobs: records by identity, the queue of notices the user has not
acknowledged, and the two counters identities are taken from.  Observations of members
arrive on a channel while the operations run.

Processes, terminals, observer threads and the channel are the host's: an operation asks
the host and goes on with its answer.  A host that has nothing to deliver yet, or keeps a
loop busy beyond its patience, leaves the operation waiting where it is.
-/

namespace Opaal.Runtime

open Opaal.Machine

/-! ## Notices, errors and plans -/

structure JobNoticeId where
  value : UInt64
deriving DecidableEq

structure JobNotice where
  id : JobNoticeId
  job : JobId
  kind : JobNoticeKind
  command : String
deriving DecidableEq

inductive JobSignal where
  | stop
  | continue_
  | hangup
  | interrupt
  | terminate
  | kill
deriving DecidableEq

/-- The text of an error of the platform. -/
structure PlatformError where
  message : String
deriving DecidableEq

inductive JobNoticeError where
  | notPending (notice : JobNoticeId)
  | transition (error : JobTransitionError)
  | observerPanicked
deriving DecidableEq

inductive JobCommandError where
  | unknownJob (job : JobId)
  | notStopped (job : JobId)
  | completed (job : JobId)
  | notForegroundable (job : JobId)
  | quarantined (job : JobId)
  | foregroundTerminalRequired
  | foregroundTerminal (error : PlatformError)
  | observation (job : JobId) (message : String)
  | delivery (job : JobId) (message : String)
  | repeatedStop (job : JobId) (signal : Int32)
  | observerPanicked (job : JobId)
deriving DecidableEq

/-- The runtime errors a start raises; where the text of another error goes into one, the
error itself is kept. -/
inductive BackgroundErrorKind where
  | backgroundIdentityExhausted
  | backgroundObserverUnavailable (message : String)
  | pipeline (error : PlatformError)
  | executionCapsule (message : String)
  | backgroundAssignmentUnavailable
  | backgroundJobState (error : JobTransitionError)
  | foregroundTerminal (error : PlatformError)
  | foregroundObservation (error : JobCommandError)
deriving DecidableEq

/-- How an operation on the table can fail to return normally. -/
inductive BackgroundError where
  | runtime (kind : BackgroundErrorKind)
  | command (error : JobCommandError)
  | notice (error : JobNoticeError)
  | panicked (message : String)
  /-- Not an error of the source: the operation has not returned yet. -/
  | waiting
deriving DecidableEq

inductive QuarantinePolicy where
  | reject
  | deliver
deriving DecidableEq

/-- What the table reads of an execution plan. -/
structure BackgroundPlan where
  stageCount : Nat
  pipefail : Bool
deriving DecidableEq

structure BackgroundMember where
  process : ProcessId
  startedAt : Instant
deriving DecidableEq

/-- A pipeline the platform has started, in source order. -/
structure StartedPipeline where
  group : ProcessGroupId
  startedAt : Instant
  members : List BackgroundMember
  supervised : Bool
deriving DecidableEq

inductive ForegroundJobOutcome where
  | completed (status : Status) (supervisorCompletion : Option (List UInt8))
  | stopped (job : JobId)
deriving DecidableEq

inductive LiveJobState where
  | running
  | stopped
deriving DecidableEq

structure LiveJob where
  job : JobId
  state : LiveJobState
  command : String
deriving DecidableEq

inductive JobSnapshotState where
  | running
  | stopped
  | completed
  | quarantined
deriving DecidableEq

structure JobSnapshot where
  job : JobId
  state : JobSnapshotState
  placement : JobPlacement
  group : ProcessGroupId
  command : String
  status : Option Status
  signal : Option Int32
deriving DecidableEq

inductive BackgroundFailureReason where
  | exited (status : Status)
  | observation (message : String)
  | signal (message : String)
deriving DecidableEq

structure BackgroundFailure where
  job : JobId
  command : String
  reason : BackgroundFailureReason
deriving DecidableEq

/-- Successful automatic continuations allowed for one member in one blocking operation. -/
def automaticResumeLimit : Nat := 16

/-! ## The table -/

structure BackgroundJobs where
  manageForeground : Bool
  records : Std.ExtTreeMap JobId JobRecord
  notices : List JobNotice
  nextJob : Option UInt64
  nextNotice : Option UInt64

/-- The next identity of a counter, or nothing once it has run out. -/
def checkedSucc (value : UInt64) : Option UInt64 := if value.toNat + 1 < 2 ^ 64 then some (value + 1) else none

namespace BackgroundJobs

def new (manageForeground : Bool) : BackgroundJobs := ⟨manageForeground, ∅, [], some 1, some 1⟩

def withRecord (table : BackgroundJobs) (job : JobId) (record : JobRecord) : BackgroundJobs :=
  { table with records := table.records.insert job record }

def retain (table : BackgroundJobs) (keeps : JobNotice → Bool) : BackgroundJobs :=
  { table with notices := table.notices.filter keeps }

/-- The notices without the stopped one of a job. -/
def clearStopped (table : BackgroundJobs) (job : JobId) : BackgroundJobs :=
  table.retain fun notice => notice.job ≠ job || notice.kind ≠ .stopped

/-- A notice is queued as long as there are identities; one about the state of a job takes
the place of the one before it. -/
def queueNotice (table : BackgroundJobs) (job : JobId) (kind : JobNoticeKind) (command : String) : BackgroundJobs :=
  match table.nextNotice with
  | none => table
  | some value =>
    let table :=
      if kind.isState then table.retain fun notice => notice.job ≠ job || !notice.kind.isState else table
    { table with
      nextNotice := checkedSucc value
      notices := table.notices ++ [⟨⟨value⟩, job, kind, command⟩] }

/-- The table after an observation of one of the members of a job. -/
def react (table : BackgroundJobs) (job : JobId) (record : JobRecord) (reaction : Reaction) : BackgroundJobs :=
  let table := table.withRecord job record
  let table := if reaction.clearStoppedNotice then table.clearStopped job else table
  match reaction.queued with
  | none => table
  | some kind => table.queueNotice job kind record.command

def liveJobs (table : BackgroundJobs) : List LiveJob :=
  (table.records.toList.filter fun (_, record) => record.completion.isNone && !record.observationFailed).map
    fun (job, record) => ⟨job, if record.job.state.isStopped then .stopped else .running, record.command⟩

def hasLiveJobs (table : BackgroundJobs) : Bool :=
  table.records.toList.any fun (_, record) => record.completion.isNone && !record.observationFailed

end BackgroundJobs

/-- The stop number of the first stopped member in source order. -/
def aggregateStopSignal (record : JobRecord) : Option Int32 :=
  record.sourceOrder.findSome? fun process =>
    match (record.job.members[process]? : Option JobMemberState) with
    | some (.stopped signal) => some signal
    | _ => none

/-! ## The host -/

/-- What the table asks of its surroundings, over the host's own state. -/
structure Host (ω : Type) where
  /-- Whether this is the target whose children are observed by the session itself. -/
  redox : Bool
  /-- How many passes of a loop are followed. -/
  patience : Nat
  tryRecv : ω → Option ChildObservation × ω
  /-- The next observation, or nothing when none has come yet. -/
  recv : ω → Option ChildObservation × ω
  observeOneTransition : ObserverAssignment → ω → Option (Option ObserverAssignment) × ω
  tryObserveOneTransition : ObserverAssignment → ω → Option (Option ObserverAssignment) × ω
  signalProcessGroup : ProcessGroupId → JobSignal → ω → Except PlatformError Unit × ω
  isTerminal : ω → Bool × ω
  supportsForegroundTerminal : ω → Bool × ω
  enterForeground : ProcessGroupId → ω → Except PlatformError Unit × ω
  restore : ω → Except PlatformError Unit × ω
  applyTerminalMode : TerminalModeToken → ω → Except PlatformError Unit × ω
  snapshotTerminalMode : ω → Except PlatformError TerminalModeToken × ω
  prepareObservers : Nat → ω → Except String ObserverSlots × ω
  prepareSerialized : Nat → ω → Except String ObserverSlots × ω
  assign : ObserverSlots → ObserverAssignment → ω → Bool × ω
  /-- Whether every observer ended without a panic. -/
  shutdown : ObserverSlots → ω → Bool × ω
  startPipeline : BackgroundPlan → ω → Except PlatformError StartedPipeline × ω
  startReader : ω → Except String SupervisorCompletionReader × ω
  finishReader : SupervisorCompletionReader → ω → Except String (List UInt8) × ω
  /-- Ends children that were started for nothing. -/
  cleanup : List ProcessId → ω → Unit × ω

/-- The table and the state of the host. -/
structure Surroundings (ω : Type) where
  table : BackgroundJobs
  world : ω

abbrev JobsM (ω : Type) := Action (Host ω) BackgroundError (Surroundings ω)

namespace Background

variable {ω : Type}

/-- The host's answer; the table is not touched. -/
def ask {α : Type} (question : Host ω → ω → α × ω) : JobsM ω α := fun host state =>
  let (answer, world) := question host state.world
  .ok answer { state with world := world }

def table : JobsM ω BackgroundJobs := return (← get).table

def modifyTable (change : BackgroundJobs → BackgroundJobs) : JobsM ω Unit :=
  modify fun state => { state with table := change state.table }

def panic {α : Type} (message : String) : JobsM ω α := throw (.panicked message)

def fail {α : Type} (error : JobCommandError) : JobsM ω α := throw (.command error)

def expectRecord (message : String) (job : JobId) : JobsM ω JobRecord := do
  match (← table).records[job]? with
  | some record => return record
  | none => panic message

/-- Passes through a loop, as long as the host is patient. -/
def loop {α β : Type} (body : α → JobsM ω (Turn α β)) (first : α) : JobsM ω β := fun host =>
  repeatFrom .waiting body host.patience first host

/-! ### Observations -/

def applyObservation (observation : ChildObservation) : JobsM ω Unit := do
  match (← table).records[observation.job]? with
  | none => return ()
  | some record =>
    match record.observe observation with
    | .error message => panic message
    | .ok (after, reaction) => modifyTable fun table => table.react observation.job after reaction

/-- Waits for the next observation. -/
def receive : JobsM ω ChildObservation := do
  match ← ask Host.recv with
  | some observation =>
    applyObservation observation
    return observation
  | none => throw .waiting

def pollAssignments : List ObserverAssignment → JobsM ω (List ObserverAssignment)
  | [] => return []
  | assignment :: pending => do
    let outcome ← ask fun host => host.tryObserveOneTransition assignment
    let retained ← pollAssignments pending
    match outcome with
    | some (some assignment) => return assignment :: retained
    | _ => return retained

def pollRecords : List JobId → JobsM ω Unit
  | [] => return ()
  | job :: jobs => do
    match (← table).records[job]? with
    | none => pollRecords jobs
    | some record =>
      let retained ← pollAssignments record.inlineAssignments
      modifyTable fun table => table.withRecord job { record with inlineAssignments := retained }
      pollRecords jobs

def pollInlineObservations : JobsM ω Unit := do pollRecords (← table).records.keys

def applyNext : JobsM ω (Turn Unit Unit) := do
  match ← ask Host.tryRecv with
  | some observation =>
    applyObservation observation
    return .again ()
  | none => return .done ()

/-- Applies every observation that is already there. -/
def applyPendingObservations : JobsM ω Unit := do
  pollInlineObservations
  loop (fun _ => applyNext) ()

/-! ### Notices -/

def nextNotice : JobsM ω (Option JobNotice) := do
  pollInlineObservations
  loop (fun _ => do
    match (← table).notices.head? with
    | some notice => return .done (some notice)
    | none =>
      match ← ask Host.tryRecv with
      | none => return .done none
      | some observation =>
        applyObservation observation
        return .again ()) ()

/-- A transition of a job that is reported as an error of its notice. -/
def noticed (operation : JobM Unit) (job : Job) : JobsM ω Job :=
  match operation () job with
  | .ok _ after => return after
  | .error (.rejected error) _ => throw (.notice (.transition error))
  | .error (.panicked message) _ => panic message

def acknowledge (notice : JobNoticeId) : JobsM ω Unit := do
  match (← table).notices with
  | [] => throw (.notice (.notPending notice))
  | pending :: rest =>
    if pending.id ≠ notice then throw (.notice (.notPending notice))
    else
      modifyTable fun table => { table with notices := rest }
      match pending.kind with
      | .started _ | .observationFailed _ => return ()
      | .stopped =>
        match (← table).records[pending.job]? with
        | none => throw (.notice (.notPending notice))
        | some record =>
          let job ← noticed Job.acknowledgeStoppedNotice record.job
          modifyTable fun table => table.withRecord pending.job { record with job := job }
      | .completed =>
        match (← table).records[pending.job]? with
        | none => throw (.notice (.notPending notice))
        | some record =>
          modifyTable fun table => { table with records := table.records.erase pending.job }
          let job ← noticed Job.markNotified record.job
          let _ ← noticed Job.markReaped job
          match record.observers with
          | none => return ()
          | some observers =>
            if ← ask fun host => host.shutdown observers then return ()
            else throw (.notice .observerPanicked)

/-- Acknowledges every queued notice without rendering it. -/
def drainNotices : JobsM ω Unit :=
  loop (fun _ => do
    match ← nextNotice with
    | none => return .done ()
    | some notice =>
      match ← observed (acknowledge notice.id) with
      | .ok _ => return .again ()
      | .error (.notice _) => return .done ()
      | .error error => throw error) ()

end Background

end Opaal.Runtime
