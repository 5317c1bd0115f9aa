import Opaal.Runtime.Job

/-!
# One record of the job table

A record pairs a job with what the table needs to report about it: the source order of
its members, the statuses they ended with and, once the job has completed, the status of
the whole pipeline.  An observation changes all of these together; `Coherent` is what
they have to do with each other between observations.
-/

namespace Opaal.Runtime

open List

open Opaal.Machine (ok_bind error_bind)

/-! ## Statuses of processes and pipelines -/

/-- A reading of the session's monotonic clock. -/
structure Instant where
  nanos : UInt64
deriving DecidableEq

def Instant.max (first second : Instant) : Instant := if first.nanos ≤ second.nanos then second else first

inductive ProcessStatus where
  | exited (code : Int32)
  | signaled (number : Int32)
deriving DecidableEq

/-- The time between two readings, and nothing when the second is the earlier one. -/
def elapsed (start stop : Instant) : Duration where
  nanoseconds := (stop.nanos.toNat - start.nanos.toNat : Nat)
  lower := by omega
  upper := by
    have := stop.nanos.toNat_lt
    omega

/-- The value of a call that is expected to succeed. -/
def expected {ε α : Type} (message : String) : Except ε α → Except String α
  | .ok value => .ok value
  | .error _ => .error message

def languageStatus (status : ProcessStatus) (duration : Duration) : Except String Status :=
  match status with
  | .exited code => expected "monotonic execution durations are valid" (Status.exit code.toInt64 duration)
  | .signaled number => do
    let signal ← expected "a platform signal status always carries its number"
      (Signal.new (some number.toInt64) none)
    expected "monotonic execution durations are valid" (Status.signaled signal duration)

def Status.isOk (status : Status) : Bool := status.code = some 0

/-- The last position at which the predicate holds. -/
def rposition {α : Type} (holds : α → Bool) (items : List α) : Option Nat :=
  (items.reverse.findIdx? holds).map fun index => items.length - 1 - index

/-- The status of a pipeline: that of its only stage, or of the last one that failed when
`pipefail` asks for it, or of the last one. -/
def aggregateStatuses (stages : List Status) (pipefail : Bool) (pipelineDuration : Duration) :
    Except String Status :=
  match stages with
  | [stage] => .ok stage
  | stages =>
    let selected :=
      if pipefail then (rposition (fun stage => !stage.isOk) stages).getD (stages.length - 1)
      else stages.length - 1
    expected "executor completion satisfies aggregate status invariants"
      (Status.aggregate stages selected pipelineDuration)

/-! ## Observations and records -/

/-- What an observer reports about one member.  A failure carries the texts of its errors. -/
inductive ChildObservation where
  | stopped (job : JobId) (process : ProcessId) (signal : Int32)
  | continued (job : JobId) (process : ProcessId)
  | completed (job : JobId) (process : ProcessId) (status : ProcessStatus) (observedAt : Instant)
  | failed (job : JobId) (process : ProcessId) (error : String) (cleanup : Option String)
deriving DecidableEq

def ChildObservation.job : ChildObservation → JobId
  | .stopped job _ _ | .continued job _ | .completed job _ _ _ | .failed job _ _ _ => job

def ChildObservation.process : ChildObservation → ProcessId
  | .stopped _ process _ | .continued _ process | .completed _ process _ _ | .failed _ process _ _ => process

/-- A child handed to an observer, or kept by the session on targets without them. -/
structure ObserverAssignment where
  job : JobId
  process : ProcessId
  startedAt : Instant
deriving DecidableEq

/-- The observer threads of one job, known to the table by a handle. -/
structure ObserverSlots where
  handle : Nat
deriving DecidableEq

/-- The thread that reads a supervisor's completion, known by a handle. -/
structure SupervisorCompletionReader where
  handle : Nat
deriving DecidableEq

/-- A saved terminal mode, known by a handle. -/
structure TerminalModeToken where
  handle : Nat
deriving DecidableEq

inductive JobNoticeKind where
  | started (group : ProcessGroupId)
  | stopped
  | completed
  | observationFailed (message : String)
deriving DecidableEq

/-- A notice about the state of a job, of which there is at most one. -/
def JobNoticeKind.isState : JobNoticeKind → Bool
  | .stopped | .completed => true
  | .started _ | .observationFailed _ => false

structure JobRecord where
  job : Job
  group : ProcessGroupId
  sourceOrder : List ProcessId
  memberStarted : Std.ExtTreeMap ProcessId Instant
  completed : Std.ExtTreeMap ProcessId Status
  pipefail : Bool
  pipelineStarted : Instant
  latestTerminal : Option Instant
  completion : Option Status
  command : String
  observationFailed : Bool
  observationMessage : Option String
  resumeRequested : Bool
  terminalMode : Option TerminalModeToken
  supervisorCompletion : Option SupervisorCompletionReader
  observers : Option ObserverSlots
  inlineAssignments : List ObserverAssignment

/-- A control character as Rust's `char::is_control` has it. -/
def isControl (character : Char) : Bool :=
  character.toNat < 0x20 || (0x7f ≤ character.toNat && character.toNat < 0xa0)

def escapeCharacter (character : Char) : String :=
  if character = '\n' then "\\n"
  else if character = '\r' then "\\r"
  else if character = '\t' then "\\t"
  else if character = '\x1b' then "\\x1b"
  else if isControl character then
    "\\u\x7b" ++ String.ofList (Nat.toDigits 16 character.toNat) ++ "\x7d"
  else String.singleton character

/-- A command label as one printable terminal line. -/
def escapeJobLabel (source : String) : String := String.join (source.toList.map escapeCharacter)

/-- What an observation asks of the notice queue. -/
structure Reaction where
  queued : Option JobNoticeKind
  clearStoppedNotice : Bool
deriving DecidableEq

namespace Job

/-- Whether an operation was accepted, and the job it left. -/
def attempt (operation : JobM Unit) (job : Job) : Except String (Bool × Job) :=
  match operation () job with
  | .ok _ after => .ok (true, after)
  | .error (.rejected _) after => .ok (false, after)
  | .error (.panicked message) _ => .error message

/-- The job after an operation that is expected to be accepted. -/
def expect (message : String) (operation : JobM Unit) (job : Job) : Except String Job :=
  match operation () job with
  | .ok _ after => .ok after
  | .error (.rejected _) _ => .error message
  | .error (.panicked panic) _ => .error panic

end Job

namespace JobRecord

/-- The statuses of the members that have ended, in source order. -/
def stages (record : JobRecord) : List Status :=
  record.sourceOrder.filterMap fun process => record.completed[process]?

def observeStopped (record : JobRecord) (process : ProcessId) (signal : Int32) :
    Except String (JobRecord × Reaction) := do
  let wasStopped := record.job.state.isStopped
  let (accepted, job) ← record.job.attempt (Job.observeStopped process signal)
  if accepted && !wasStopped && job.state.isStopped then
    -- A newly observed stop is a stop no resume has answered.
    return ({ record with job := job, resumeRequested := false }, ⟨some .stopped, false⟩)
  else
    return ({ record with job := job }, ⟨none, false⟩)

def observeContinued (record : JobRecord) (process : ProcessId) : Except String (JobRecord × Reaction) := do
  let (accepted, job) ← record.job.attempt (Job.observeContinued process)
  if accepted then
    return ({ record with job := job, resumeRequested := false }, ⟨none, true⟩)
  else
    return ({ record with job := job }, ⟨none, false⟩)

/-- The record with the status and the time of a member that ended. -/
def withTerminal (record : JobRecord) (job : Job) (process : ProcessId) (status : Status)
    (observedAt : Instant) : JobRecord :=
  { record with
    job := job
    completed := record.completed.insert process status
    latestTerminal :=
      match record.latestTerminal with
      | none => some observedAt
      | some latest => some (latest.max observedAt) }

def complete (record : JobRecord) : Except String JobRecord :=
  match record.latestTerminal with
  | none => .error "a completed job has a terminal observation"
  | some latest => do
    let completion ← aggregateStatuses record.stages record.pipefail (elapsed record.pipelineStarted latest)
    return { record with completion := some completion }

def observeCompleted (record : JobRecord) (process : ProcessId) (status : ProcessStatus)
    (observedAt : Instant) : Except String (JobRecord × Reaction) := do
  let wasStopped := record.job.state.isStopped
  match record.memberStarted[process]? with
  | none => return (record, ⟨none, false⟩)
  | some startedAt =>
    let status ← languageStatus status (elapsed startedAt observedAt)
    let (accepted, job) ← record.job.attempt (Job.observeCompleted process status)
    if !accepted then
      return ({ record with job := job }, ⟨none, false⟩)
    else
      let record := record.withTerminal job process status observedAt
      if job.state = .completed then
        return (← record.complete, ⟨some .completed, false⟩)
      else if !wasStopped && job.state.isStopped then
        return (record, ⟨some .stopped, false⟩)
      else
        return (record, ⟨none, false⟩)

def observeFailed (record : JobRecord) (error : String) (cleanup : Option String) : JobRecord × Reaction :=
  if record.observationFailed then
    (record, ⟨none, false⟩)
  else
    let message := escapeJobLabel
      (match cleanup with
      | none => error
      | some cleanup => error ++ "; cleanup failed: " ++ cleanup)
    ({ record with observationFailed := true, observationMessage := some message },
      ⟨some (.observationFailed message), false⟩)

def observe (record : JobRecord) : ChildObservation → Except String (JobRecord × Reaction)
  | .stopped _ process signal => record.observeStopped process signal
  | .continued _ process => record.observeContinued process
  | .completed _ process status observedAt => record.observeCompleted process status observedAt
  | .failed _ _ error cleanup => .ok (record.observeFailed error cleanup)

end JobRecord

/-! ## What an observation does to a published job -/

namespace Job

section Observations

variable {job : Job}

/-- What an accepted observation that `process` is now `member` leaves of a published job. -/
structure Observed (job : Job) (process : ProcessId) (member : JobMemberState) (after : Job) : Prop where
  consistent : after.Consistent
  published : after.isPublished = true
  members : after.members = job.members.insert process member
  live : ∃ current, job.members[process]? = some current ∧ current.isCompleted = false

variable {member : JobMemberState}

theorem Observed.mem_iff {process other : ProcessId} {after : Job} (observed : Observed job process member after) : other ∈ after.members ↔ other ∈ job.members := by
  obtain ⟨_, found, _⟩ := observed.live
  rw [observed.members, Std.ExtTreeMap.mem_insert]
  constructor
  · rintro (same | listed)
    · rw [← Std.LawfulEqOrd.eq_of_compare same, Std.ExtTreeMap.mem_iff_isSome_getElem?, found]
      rfl
    · exact listed
  · intro listed
    exact .inr listed

theorem isPublished_folded (placement : JobPlacement) (state : job.state = job.folded placement) :
    job.isPublished = true := by
  unfold folded at state
  unfold isPublished
  split at state
  · rw [state]
  split at state
  · rw [state]
  · cases placement <;> rw [state] <;> rfl

theorem isPublished_started (published : job.isPublished = true) : job.state ≠ .starting := by
  intro starting
  simp [isPublished, starting] at published

/-- A member of a published job is observed to be stopped or ended: the observation is
rejected and changes nothing, or the pending notice stays and a new stop is noticed. -/
theorem observe_settled_effect (consistent : job.Consistent) (published : job.isPublished = true) (operation : String)
    (process : ProcessId) (new : settled member = true) :
    (∃ error, (observe operation process member >>= fun _ => reconcile) () job = .error (.rejected error) job) ∨
      ∃ after, (observe operation process member >>= fun _ => reconcile) () job = .ok () after ∧
        Observed job process member after ∧
        (job.noticePending = true → after.noticePending = true) ∧
        (job.state.isStopped = false → after.state.isStopped = true → after.noticePending = true) ∧
        (job.state.isStopped = true → after.state.isStopped = true ∨ after.state = .completed) := by
  have sound := observe_settled_sound consistent operation process new
  rcases observe_cases operation process member job with ⟨error, run⟩ | ⟨current, observable, found, live, run⟩
  · exact .inl ⟨error, error_bind run⟩
  right
  rw [ok_bind run] at sound ⊢
  have started : (job.withMember process member).state ≠ .starting := isPublished_started published
  obtain ⟨placement, placed⟩ : ∃ placement, (job.withMember process member).placement = some placement :=
    consistent.placed observable started
  obtain ⟨_, reconciled, _, kept, stops⟩ := reconcile_run started placed
  rw [reconciled] at sound ⊢
  refine ⟨_, rfl, ⟨sound, isPublished_folded placement rfl, rfl, current, found, live⟩, kept, stops, ?_⟩
  intro wasStopped
  obtain ⟨resume, state⟩ : ∃ resume, job.state = .stopped resume := by
    cases state : job.state with
    | stopped resume => exact ⟨resume, rfl⟩
    | _ => simp [JobState.isStopped, state] at wasStopped
  exact (folded_settled (everyMember_insert (consistent.stopped state).2.1 new)).symm

/-- A member of a published job is observed to go on: the job runs and no notice is left. -/
theorem observe_continued_effect (consistent : job.Consistent) (published : job.isPublished = true)
    (process : ProcessId) :
    (∃ error, Job.observeContinued process () job = .error (.rejected error) job) ∨
      ∃ after, Job.observeContinued process () job = .ok () after ∧ Observed job process .running after ∧
        after.state ≠ .completed ∧ after.state.isStopped = false := by
  have sound := observeContinued_sound consistent process
  unfold Job.observeContinued at sound ⊢
  rcases observe_cases "observe a continued process" process .running job with
    ⟨error, run⟩ | ⟨current, observable, found, live, run⟩
  · exact .inl ⟨error, error_bind run⟩
  right
  rw [ok_bind run] at sound ⊢
  change Sound job (reconcile () (job.withMember process .running).continued) at sound
  show ∃ after, reconcile () (job.withMember process .running).continued = .ok () after ∧ _
  have started : (job.withMember process .running).continued.state ≠ .starting := isPublished_started published
  obtain ⟨placement, placed⟩ : ∃ placement,
      (job.withMember process .running).continued.placement = some placement := by
    unfold continued
    split
    · next resume _ => exact ⟨resume, rfl⟩
    · exact consistent.placed observable started
  obtain ⟨notice, reconciled, _⟩ := reconcile_run started placed
  rw [reconciled] at sound ⊢
  have running : ((job.withMember process .running).continued).allMembers settled = false := by
    cases every : ((job.withMember process .running).continued).allMembers settled with
    | false => rfl
    | true =>
      have here : (job.withMember process .running).continued.members[process]? = some .running := by
        show (job.members.insert process .running)[process]? = some .running
        rw [Std.ExtTreeMap.getElem?_insert_self]
      have settledMember := allMembers_iff.mp every process .running here
      contradiction
  refine ⟨_, rfl, ⟨sound, isPublished_folded placement rfl, rfl, current, found, live⟩, ?_⟩
  rw [folded_running running]
  cases placement
  all_goals exact ⟨by simp [JobPlacement.into], rfl⟩

end Observations

end Job

/-! ## Statuses are always well formed -/

/-- An ended process has a status of its own, without stages. -/
theorem languageStatus_leaf (status : ProcessStatus) (start stop : Instant) :
    ∃ leaf, languageStatus status (elapsed start stop) = .ok leaf ∧ leaf.stages = [] := by
  have positive : 0 ≤ (elapsed start stop).nanoseconds := by
    show (0 : Int) ≤ ((stop.nanos.toNat - start.nanos.toNat : Nat) : Int)
    omega
  have leaf : ∀ completion, ∃ leaf, Status.leaf completion (elapsed start stop) = .ok leaf ∧ leaf.stages = [] := by
    intro completion
    unfold Status.leaf
    exact ⟨_, rfl, rfl⟩
  cases status with
  | exited code =>
    obtain ⟨result, run, plain⟩ := leaf (.exit code.toInt64)
    refine ⟨result, ?_, plain⟩
    show expected "monotonic execution durations are valid"
      (Status.leaf (.exit code.toInt64) (elapsed start stop)) = _
    rw [run]
    rfl
  | signaled number =>
    obtain ⟨result, run, plain⟩ := leaf (.signaled ⟨some number.toInt64, none, .inl rfl⟩)
    refine ⟨result, ?_, plain⟩
    show expected "monotonic execution durations are valid"
      (Status.leaf (.signaled ⟨some number.toInt64, none, .inl rfl⟩) (elapsed start stop)) = _
    rw [run]
    rfl

theorem rposition_lt {α : Type} {holds : α → Bool} {items : List α} {index : Nat}
    (found : rposition holds items = some index) : index < items.length := by
  unfold rposition at found
  rw [Option.map_eq_some_iff] at found
  obtain ⟨behind, search, rfl⟩ := found
  obtain ⟨bound, _⟩ := List.findIdx?_eq_some_iff_findIdx_eq.mp search
  rw [length_reverse] at bound
  omega

variable {stages : List Status}

theorem mapM_asStage (leaves : ∀ stage ∈ stages, stage.stages = []) :
    ∃ parts, stages.mapM Status.asStage = some parts ∧ parts.length = stages.length := by
  induction stages with
  | nil => exact ⟨[], rfl, rfl⟩
  | cons stage _ ih =>
    obtain ⟨parts, run, length⟩ := ih (fun other listed => leaves other (mem_cons_of_mem stage listed))
    have leaf : stage.asStage = some ⟨stage.completion, stage.duration, stage.elapsed⟩ := by
      unfold Status.asStage
      rw [if_pos (leaves stage mem_cons_self)]
    refine ⟨⟨stage.completion, stage.duration, stage.elapsed⟩ :: parts, ?_, by simp [length]⟩
    rw [mapM_cons, leaf, run]
    rfl

/-- A pipeline whose members have all ended always has a status. -/
theorem aggregateStatuses_ok (nonempty : stages ≠ []) (leaves : ∀ stage ∈ stages, stage.stages = []) (pipefail : Bool)
    (start stop : Instant) :
    ∃ status, aggregateStatuses stages pipefail (elapsed start stop) = .ok status := by
  have positive : 0 ≤ (elapsed start stop).nanoseconds := by
    show (0 : Int) ≤ ((stop.nanos.toNat - start.nanos.toNat : Nat) : Int)
    omega
  have selects : ∀ selected, selected < stages.length →
      ∃ status, Status.aggregate stages selected (elapsed start stop) = .ok status := by
    intro selected bound
    obtain ⟨parts, run, length⟩ := mapM_asStage leaves
    unfold Status.aggregate
    rw [dif_pos positive, if_neg nonempty, List.getElem?_eq_getElem bound, run]
    simp only
    split
    · next missing =>
      rw [List.getElem?_eq_none_iff] at missing
      omega
    · exact ⟨_, rfl⟩
  have positiveLength : 0 < stages.length := length_pos_iff.mpr nonempty
  unfold aggregateStatuses
  split
  · next stage => exact ⟨stage, rfl⟩
  · obtain ⟨status, run⟩ := selects
      (if pipefail then (rposition (fun stage => !stage.isOk) stages).getD (stages.length - 1)
        else stages.length - 1) (by
        split
        · cases found : rposition (fun stage : Status => !stage.isOk) stages with
          | none =>
            show stages.length - 1 < stages.length
            omega
          | some => exact rposition_lt found
        · omega)
    simp only
    rw [run]
    exact ⟨status, rfl⟩

/-! ## Coherence -/

/-- What the parts of a record have to do with each other. -/
structure Coherence (job : Job) (sourceOrder : List ProcessId) (completed : Std.ExtTreeMap ProcessId Status)
    (pipefail : Bool) (pipelineStarted : Instant) (latestTerminal : Option Instant)
    (completion : Option Status) : Prop where
  consistent : job.Consistent
  published : job.isPublished = true
  distinct : sourceOrder.Nodup
  listed : ∀ process, process ∈ sourceOrder ↔ process ∈ job.members
  ended : ∀ (process : ProcessId) (status : Status),
    completed[process]? = some status ↔ job.members[process]? = some (.completed status)
  leaves : ∀ (process : ProcessId) (status : Status), completed[process]? = some status → status.stages = []
  terminal : ∀ (process : ProcessId) (status : Status),
    completed[process]? = some status → latestTerminal.isSome = true
  unfinished : completion = none ↔ job.state ≠ .completed
  aggregate : ∀ status, completion = some status → ∃ latest, latestTerminal = some latest ∧
    aggregateStatuses (sourceOrder.filterMap fun process => completed[process]?) pipefail
      (elapsed pipelineStarted latest) = .ok status

namespace JobRecord

variable {record : JobRecord}

def Coherent (record : JobRecord) : Prop :=
  Coherence record.job record.sourceOrder record.completed record.pipefail record.pipelineStarted
    record.latestTerminal record.completion

variable {member : JobMemberState} {job : Job} {process : ProcessId} {status : Status} {operation : JobM Unit}

theorem isCompleted_iff :
    member.isCompleted = true ↔ ∃ status, member = .completed status := by
  cases member <;> simp [JobMemberState.isCompleted]

/-- Two published jobs with the same members, of which the same ones have ended, have both
completed or neither. -/
theorem completed_iff {first second : Job} (consistentFirst : first.Consistent)
    (publishedFirst : first.isPublished = true) (consistentSecond : second.Consistent)
    (publishedSecond : second.isPublished = true)
    (listed : ∀ process, process ∈ first.members ↔ process ∈ second.members)
    (ended : ∀ (process : ProcessId) (status : Status), first.members[process]? = some (.completed status) ↔
      second.members[process]? = some (.completed status)) :
    first.state = .completed ↔ second.state = .completed := by
  have one : ∀ {first second : Job},
      (∀ process, process ∈ first.members ↔ process ∈ second.members) →
      (∀ (process : ProcessId) (status : Status), first.members[process]? = some (.completed status) ↔
        second.members[process]? = some (.completed status)) →
      first.EveryMember JobMemberState.isCompleted → second.EveryMember JobMemberState.isCompleted := by
    intro first second listed ended every process member found
    have present : process ∈ first.members := by
      rw [listed, Std.ExtTreeMap.mem_iff_isSome_getElem?, found]
      rfl
    obtain ⟨other, here⟩ := Option.isSome_iff_exists.mp (Std.ExtTreeMap.mem_iff_isSome_getElem?.mp present)
    obtain ⟨status, rfl⟩ := isCompleted_iff.mp (every process other here)
    rw [ended, found] at here
    cases here
    rfl
  obtain ⟨_, _, foldFirst, _⟩ := consistentFirst.fold publishedFirst
  obtain ⟨_, _, foldSecond, _⟩ := consistentSecond.fold publishedSecond
  rw [foldFirst, foldSecond]
  constructor
  · exact one listed ended
  · exact one (fun process => (listed process).symm) (fun process status => (ended process status).symm)

section

variable (coherent : record.Coherent)
include coherent

/-- A record stays coherent when its job changes, but neither its members nor which of
them have ended. -/
theorem Coherent.with_job (consistent : job.Consistent) (published : job.isPublished = true)
    (listed : ∀ process, process ∈ job.members ↔ process ∈ record.job.members)
    (ended : ∀ (process : ProcessId) (status : Status), job.members[process]? = some (.completed status) ↔ record.job.members[process]? = some (.completed status)) :
    JobRecord.Coherent { record with job := job } where
  consistent := consistent
  published := published
  distinct := coherent.distinct
  listed process := by rw [listed, coherent.listed]
  ended process status := by rw [ended, coherent.ended]
  leaves := coherent.leaves
  terminal := coherent.terminal
  unfinished := by
    have same := completed_iff consistent published coherent.consistent coherent.published listed ended
    rw [coherent.unfinished, ne_eq, ne_eq, same]
  aggregate := coherent.aggregate

/-- An observation that a member has not ended. -/
theorem Coherent.observed (observed : Job.Observed record.job process member job) (live : member.isCompleted = false) :
    JobRecord.Coherent { record with job := job } := by
  apply coherent.with_job observed.consistent observed.published
  · intro other
    exact observed.mem_iff
  · intro other status
    obtain ⟨current, found, running⟩ := observed.live
    rw [observed.members, Std.ExtTreeMap.getElem?_insert]
    split
    · next same =>
      have same := Std.LawfulEqOrd.eq_of_compare same
      subst same
      rw [found]
      constructor
      all_goals
        intro ended
        cases ended
        contradiction
    · rfl

/-- A job one of whose members can still be observed has not completed. -/
theorem Coherent.unfinished_of_live {current : JobMemberState} (found : record.job.members[process]? = some current)
    (live : current.isCompleted = false) :
    record.job.state ≠ .completed := by
  intro completed
  have every := coherent.consistent.completed completed process current found
  rw [live] at every
  contradiction

/-- The statuses of a job all of whose members have ended: one for each of them, in source
order. -/
theorem Coherent.stages_complete (completed : record.job.state = .completed) :
    record.sourceOrder.map (fun process => record.job.members[process]?) =
      record.stages.map fun status => some (.completed status) := by
  have every := coherent.consistent.completed completed
  unfold stages
  have listed : ∀ process ∈ record.sourceOrder, process ∈ record.job.members := by
    intro process inOrder
    exact (coherent.listed process).mp inOrder
  generalize record.sourceOrder = order at listed
  induction order with
  | nil => rfl
  | cons process _ ih =>
    obtain ⟨member, found⟩ := Option.isSome_iff_exists.mp
      (Std.ExtTreeMap.mem_iff_isSome_getElem?.mp (listed process mem_cons_self))
    obtain ⟨status, rfl⟩ := isCompleted_iff.mp (every process member found)
    have stored := (coherent.ended process status).mpr found
    rw [map_cons, filterMap_cons, stored, ih (fun other inOrder => listed other (mem_cons_of_mem _ inOrder)),
      found]
    rfl

/-- The statuses kept for members, once another one has ended. -/
theorem Coherent.ended_insert (observed : Job.Observed record.job process (.completed status) job) (other : ProcessId)
    (final : Status) :
    (record.completed.insert process status)[other]? = some final ↔
      job.members[other]? = some (.completed final) := by
  rw [observed.members, Std.ExtTreeMap.getElem?_insert, Std.ExtTreeMap.getElem?_insert]
  split
  · simp
  · exact coherent.ended other final

/-- A record with a further ended member is coherent, for a completion that fits. -/
theorem Coherent.with_terminal (observed : Job.Observed record.job process (.completed status) job)
    (leaf : status.stages = []) {latest : Instant} {completion : Option Status}
    (unfinished : completion = none ↔ job.state ≠ .completed)
    (aggregate : ∀ status', completion = some status' → aggregateStatuses (record.sourceOrder.filterMap fun other => (record.completed.insert process status)[other]?) record.pipefail (elapsed record.pipelineStarted latest) = .ok status') :
    Coherence job record.sourceOrder (record.completed.insert process status) record.pipefail
      record.pipelineStarted (some latest) completion where
  consistent := observed.consistent
  published := observed.published
  distinct := coherent.distinct
  listed other := by rw [coherent.listed, observed.mem_iff]
  ended := coherent.ended_insert observed
  leaves other final stored := by
    rw [Std.ExtTreeMap.getElem?_insert] at stored
    split at stored
    · cases stored
      exact leaf
    · exact coherent.leaves other final stored
  terminal _ _ _ := rfl
  unfinished := unfinished
  aggregate final ended := ⟨latest, rfl, aggregate final ended⟩

end

/-! ## The effect of one observation -/

/-- How an observation changes a record, by what it asks of the notice queue. -/
inductive Effect (record after : JobRecord) : Reaction → Prop where
  | quiet {queued : Option JobNoticeKind} (other : ∀ kind, queued = some kind → kind.isState = false)
      (stopped : record.job.state.isStopped = true → record.job.noticePending = true →
        after.job.state.isStopped = true ∧ after.job.noticePending = true)
      (completed : record.job.state = .completed → after.job.state = .completed) :
      Effect record after ⟨queued, false⟩
  | resumed (live : record.job.state ≠ .completed) : Effect record after ⟨none, true⟩
  | stopped (live : record.job.state ≠ .completed) (running : record.job.state.isStopped = false)
      (stopped : after.job.state.isStopped = true) (pending : after.job.noticePending = true) :
      Effect record after ⟨some .stopped, false⟩
  | completed (live : record.job.state ≠ .completed) (completed : after.job.state = .completed) :
      Effect record after ⟨some .completed, false⟩

theorem Effect.none (record : JobRecord) : Effect record record ⟨none, false⟩ :=
  .quiet (by simp) (fun stopped pending => ⟨stopped, pending⟩) (fun completed => completed)

theorem attempt_rejected {error : JobTransitionError} (run : operation () job = .error (.rejected error) job) : job.attempt operation = .ok (false, job) := by
  unfold Job.attempt
  rw [run]

theorem attempt_accepted {after : Job} (run : operation () job = .ok () after) : job.attempt operation = .ok (true, after) := by
  unfold Job.attempt
  rw [run]

theorem observeStopped_effect (coherent : record.Coherent) (process : ProcessId) (signal : Int32) :
    ∃ after reaction, record.observeStopped process signal = .ok (after, reaction) ∧ after.Coherent ∧
      Effect record after reaction := by
  have new : Job.settled (.stopped signal) = true := rfl
  rcases Job.observe_settled_effect coherent.consistent coherent.published "observe a stopped process" process
    new with ⟨error, run⟩ | ⟨job, run, observed, kept, stops, stays⟩
  · have attempt : record.job.attempt (Job.observeStopped process signal) = .ok (false, record.job) :=
      attempt_rejected run
    refine ⟨record, ⟨none, false⟩, ?_, coherent, Effect.none record⟩
    unfold observeStopped
    rw [attempt]
    rfl
  · have attempt : record.job.attempt (Job.observeStopped process signal) = .ok (true, job) :=
      attempt_accepted run
    have coherentAfter := coherent.observed observed rfl
    obtain ⟨current, found, live⟩ := observed.live
    have unfinished := coherent.unfinished_of_live found live
    unfold observeStopped
    rw [attempt]
    cases wasStopped : record.job.state.isStopped with
    | true =>
      refine ⟨{ record with job := job }, ⟨none, false⟩, rfl, coherentAfter, .quiet (by simp) ?_ ?_⟩
      · intro _ pending
        refine ⟨?_, kept pending⟩
        rcases stays wasStopped with stopped | completed
        · exact stopped
        · -- The member just stopped has not ended.
          have ended := observed.consistent.completed completed process (.stopped signal) (by
            rw [observed.members, Std.ExtTreeMap.getElem?_insert_self])
          contradiction
      · intro completed
        exact absurd completed unfinished
    | false =>
      cases stopped : job.state.isStopped with
      | true =>
        refine ⟨{ record with job := job, resumeRequested := false }, ⟨some .stopped, false⟩, ?_, coherentAfter,
          .stopped unfinished wasStopped stopped (stops wasStopped stopped)⟩
        show (if (true && !false && job.state.isStopped) = true then _ else _) = _
        rw [stopped]
        rfl
      | false =>
        refine ⟨{ record with job := job }, ⟨none, false⟩, ?_, coherentAfter, .quiet (by simp) ?_ ?_⟩
        · show (if (true && !false && job.state.isStopped) = true then _ else _) = _
          rw [stopped]
          rfl
        · intro impossible
          rw [wasStopped] at impossible
          contradiction
        · intro completed
          exact absurd completed unfinished

theorem observeContinued_effect (coherent : record.Coherent) (process : ProcessId) :
    ∃ after reaction, record.observeContinued process = .ok (after, reaction) ∧ after.Coherent ∧
      Effect record after reaction := by
  rcases Job.observe_continued_effect coherent.consistent coherent.published process with
    ⟨_, run⟩ | ⟨job, run, observed, _⟩
  · refine ⟨record, ⟨none, false⟩, ?_, coherent, Effect.none record⟩
    unfold observeContinued
    rw [attempt_rejected run]
    rfl
  · obtain ⟨_, found, live⟩ := observed.live
    refine ⟨{ record with job := job, resumeRequested := false }, ⟨none, true⟩, ?_, coherent.observed observed rfl,
      .resumed (coherent.unfinished_of_live found live)⟩
    unfold observeContinued
    rw [attempt_accepted run]
    rfl

/-- The time of the last member to end so far. -/
theorem withTerminal_latest (record : JobRecord) (job : Job) (process : ProcessId) (status : Status)
    (observedAt : Instant) :
    ∃ latest, (record.withTerminal job process status observedAt).latestTerminal = some latest := by
  unfold withTerminal
  cases record.latestTerminal with
  | none => exact ⟨observedAt, rfl⟩
  | some latest => exact ⟨latest.max observedAt, rfl⟩

theorem complete_eq {latest : Instant} {completion : Status} (ended : record.latestTerminal = some latest)
    (run : aggregateStatuses record.stages record.pipefail (elapsed record.pipelineStarted latest) = .ok completion) :
    record.complete = .ok { record with completion := some completion } := by
  have unfolded : record.complete = (do
      let completion ← aggregateStatuses record.stages record.pipefail (elapsed record.pipelineStarted latest)
      return { record with completion := some completion }) := by
    unfold complete
    split
    · next missing =>
      rw [missing] at ended
      contradiction
    · next other found =>
      rw [found] at ended
      cases ended
      rfl
  rw [unfolded, run]
  rfl

/-- When the last member has ended, the record gets the status of the pipeline. -/
theorem complete_coherent (coherent : record.Coherent) (observed : Job.Observed record.job process (.completed status) job)
    (leaf : status.stages = []) (observedAt : Instant) (completed : job.state = .completed) :
    ∃ after, (record.withTerminal job process status observedAt).complete = .ok after ∧ after.Coherent ∧
      after.job = job := by
  obtain ⟨latest, ended⟩ := withTerminal_latest record job process status observedAt
  let final := record.withTerminal job process status observedAt
  have leaves : ∀ stage ∈ final.stages, stage.stages = [] := by
    intro stage listed
    obtain ⟨other, _, stored⟩ := mem_filterMap.mp listed
    change (record.completed.insert process status)[other]? = some stage at stored
    rw [Std.ExtTreeMap.getElem?_insert] at stored
    split at stored
    · cases stored
      exact leaf
    · exact coherent.leaves other stage stored
  have nonempty : final.stages ≠ [] := by
    intro empty
    have inOrder : process ∈ record.sourceOrder := by
      obtain ⟨current, found, _⟩ := observed.live
      rw [coherent.listed, Std.ExtTreeMap.mem_iff_isSome_getElem?, found]
      rfl
    have listed : status ∈ final.stages := by
      apply mem_filterMap.mpr
      refine ⟨process, inOrder, ?_⟩
      show (record.completed.insert process status)[process]? = some status
      rw [Std.ExtTreeMap.getElem?_insert_self]
    rw [empty] at listed
    contradiction
  obtain ⟨completion, run⟩ := aggregateStatuses_ok nonempty leaves record.pipefail record.pipelineStarted latest
  refine ⟨{ final with completion := some completion }, ?_, ?_, rfl⟩
  · exact complete_eq ended run
  · rw [ended]
    apply coherent.with_terminal observed leaf
    · simp [completed]
    · intro status' same
      cases same
      exact run

theorem observeCompleted_effect (coherent : record.Coherent) (process : ProcessId) (status : ProcessStatus)
    (observedAt : Instant) :
    ∃ after reaction, record.observeCompleted process status observedAt = .ok (after, reaction) ∧
      after.Coherent ∧ Effect record after reaction := by
  unfold observeCompleted
  cases started : record.memberStarted[process]? with
  | none => exact ⟨record, ⟨none, false⟩, rfl, coherent, Effect.none record⟩
  | some startedAt =>
  obtain ⟨ended, translated, leaf⟩ := languageStatus_leaf status startedAt observedAt
  simp only
  rw [translated]
  have new : Job.settled (.completed ended) = true := rfl
  rcases Job.observe_settled_effect coherent.consistent coherent.published "observe a completed process" process
    new with ⟨error, run⟩ | ⟨job, run, observed, kept, stops, stays⟩
  · have attempt : record.job.attempt (Job.observeCompleted process ended) = .ok (false, record.job) :=
      attempt_rejected run
    refine ⟨record, ⟨none, false⟩, ?_, coherent, Effect.none record⟩
    show (record.job.attempt (Job.observeCompleted process ended) >>= _) = _
    rw [attempt]
    rfl
  have attempt : record.job.attempt (Job.observeCompleted process ended) = .ok (true, job) :=
    attempt_accepted run
  obtain ⟨current, found, live⟩ := observed.live
  have unfinished := coherent.unfinished_of_live found live
  let final := record.withTerminal job process ended observedAt
  show ∃ after reaction, (record.job.attempt (Job.observeCompleted process ended) >>= _) = _ ∧ _
  rw [attempt]
  show ∃ after reaction, (if job.state = .completed then _ else
    if (!record.job.state.isStopped && job.state.isStopped) = true then _ else _) = Except.ok (after, reaction) ∧ _
  by_cases completed : job.state = .completed
  · obtain ⟨after, completes, coherentAfter, sameJob⟩ :=
      complete_coherent coherent observed leaf observedAt completed
    refine ⟨after, ⟨some .completed, false⟩, ?_, coherentAfter, .completed unfinished (by rw [sameJob, completed])⟩
    rw [if_pos completed, completes]
    rfl
  have coherentAfter : final.Coherent := by
    obtain ⟨latest, last⟩ := withTerminal_latest record job process ended observedAt
    show Coherence job record.sourceOrder (record.completed.insert process ended) record.pipefail
      record.pipelineStarted final.latestTerminal record.completion
    rw [last]
    have pending := coherent.unfinished.mpr unfinished
    rw [pending]
    apply coherent.with_terminal observed leaf
    · simp [completed]
    · intro _ impossible
      contradiction
  rw [if_neg completed]
  cases wasStopped : record.job.state.isStopped with
  | true =>
    refine ⟨final, ⟨none, false⟩, rfl, coherentAfter, .quiet (by simp) ?_ (fun ended => absurd ended unfinished)⟩
    intro _ pending
    refine ⟨?_, kept pending⟩
    rcases stays wasStopped with stopped | impossible
    · exact stopped
    · exact absurd impossible completed
  | false =>
    cases stopped : job.state.isStopped with
    | true =>
      exact ⟨final, ⟨some .stopped, false⟩, rfl, coherentAfter,
        .stopped unfinished wasStopped stopped (stops wasStopped stopped)⟩
    | false =>
      refine ⟨final, ⟨none, false⟩, rfl, coherentAfter, .quiet (by simp) ?_ (fun ended => absurd ended unfinished)⟩
      intro impossible
      rw [wasStopped] at impossible
      contradiction

/-- An observation never panics, keeps the record coherent, and asks the queue for a notice
exactly when the state of the job is news. -/
theorem observe_effect (coherent : record.Coherent) (observation : ChildObservation) :
    ∃ after reaction, record.observe observation = .ok (after, reaction) ∧ after.Coherent ∧
      Effect record after reaction := by
  cases observation with
  | stopped _ process signal => exact observeStopped_effect coherent process signal
  | continued _ process => exact observeContinued_effect coherent process
  | completed _ process status observedAt => exact observeCompleted_effect coherent process status observedAt
  | failed _ _ error cleanup =>
    show ∃ after reaction, Except.ok (record.observeFailed error cleanup) = .ok (after, reaction) ∧ _
    cases failed : record.observationFailed with
    | true =>
      refine ⟨record, ⟨none, false⟩, ?_, coherent, Effect.none record⟩
      unfold observeFailed
      rw [failed]
      rfl
    | false =>
      have unfolded : ∃ message, record.observeFailed error cleanup =
          ({ record with observationFailed := true, observationMessage := some message },
            ⟨some (.observationFailed message), false⟩) := by
        unfold observeFailed
        rw [failed]
        exact ⟨_, rfl⟩
      obtain ⟨_, run⟩ := unfolded
      rw [run]
      refine ⟨_, _, rfl, coherent, .quiet ?_ (fun stopped pending => ⟨stopped, pending⟩) (fun completed => completed)⟩
      intro kind queued
      cases queued
      rfl

end JobRecord

end Opaal.Runtime
