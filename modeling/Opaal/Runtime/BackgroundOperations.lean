import Opaal.Runtime.Background

/-!
# The operations of the job table

Waiting, signalling, foregrounding, starting and ending, as a session asks for them, and
the runs they make up.
-/

namespace Opaal.Runtime

open Opaal.Machine (observed)

namespace Background

variable {ω : Type}

/-! ## Waiting for jobs -/

/-- Ends the observers of a job that is leaving the table. -/
def endObservers (job : JobId) : Option ObserverSlots → JobsM ω Unit
  | none => return ()
  | some observers => do
    if ← ask fun host => host.shutdown observers then return () else fail (.observerPanicked job)

/-- The bytes a supervisor reported for a job that is leaving the table. -/
def finishReader (job : JobId) : Option SupervisorCompletionReader → JobsM ω (Option (List UInt8))
  | none => return none
  | some reader => do
    match ← ask fun host => host.finishReader reader with
    | .ok bytes => return some bytes
    | .error message => fail (.observation job message)

/-- Consumes a completion, with every notice of its job. -/
def consumeWaitedCompletion (job : JobId) : JobsM ω (Option (List UInt8)) := do
  modifyTable fun table => table.retain fun notice => notice.job ≠ job
  match (← table).records[job]? with
  | none => fail (.unknownJob job)
  | some record =>
    modifyTable fun table => { table with records := table.records.erase job }
    match record.job.expect "a waited job has completed" Job.markNotified with
    | .error message => panic message
    | .ok notified =>
      match notified.expect "a notified waited job can be reaped" Job.markReaped with
      | .error message => panic message
      | .ok _ =>
        endObservers job record.observers
        finishReader job record.supervisorCompletion

def observationMessage (record : JobRecord) : String :=
  record.observationMessage.getD "the observation was abandoned"

/-- Applies observations until one foreground record completes or stops. -/
def waitForForeground (job : JobId) : JobsM ω ForegroundJobOutcome :=
  loop (fun _ => do
    let record ← expectRecord "the managed foreground record is published" job
    if record.observationFailed then
      fail (.observation job (observationMessage record))
    else
      match record.completion with
      | some status =>
        let supervisorCompletion ← consumeWaitedCompletion job
        return .done (.completed status supervisorCompletion)
      | none =>
        if record.job.state.isStopped then
          return .done (.stopped job)
        else
          let _ ← receive
          return .again ()) ()

/-- Applies observations until one of the given member has been. -/
def receiveFrom (job : JobId) (process : ProcessId) : JobsM ω Unit :=
  loop (fun _ => do
    let observation ← receive
    if observation.job = job ∧ observation.process = process then return .done () else return .again ()) ()

/-- Gives up children whose job cannot be observed any more. -/
def abandon (group : ProcessGroupId) (assignments : List ObserverAssignment) : JobsM ω Unit := do
  let _ ← ask fun host => host.signalProcessGroup group .kill
  ask fun host => host.cleanup (assignments.map ObserverAssignment.process)

/-- Hands the children of a stopped job to its observer. -/
def assignStopped (job : JobId) (group : ProcessGroupId) (observers : ObserverSlots) :
    List ObserverAssignment → JobsM ω Unit
  | [] => return ()
  | assignment :: assignments => do
    if ← ask fun host => host.assign observers assignment then
      assignStopped job group observers assignments
    else
      abandon group (assignment :: assignments)
      let _ ← ask fun host => host.shutdown observers
      fail (.observation job "a stopped child could not reach its observer")

/-- Observes a foreground job on the session's own thread. -/
def waitForForegroundInline (job : JobId) (assignments : List ObserverAssignment) :
    JobsM ω ForegroundJobOutcome :=
  loop (fun (assignments : List ObserverAssignment) => do
    match assignments with
    | [] => fail (.observation job "foreground observation ended before the job completed")
    | assignment :: pending =>
      match ← ask fun host => host.observeOneTransition assignment with
      | none => fail (.observation job "the foreground observation channel closed")
      | some retained =>
        receiveFrom job assignment.process
        let assignments := pending ++ retained.toList
        let record ← expectRecord "the managed foreground record is published" job
        if record.observationFailed then
          abandon record.group assignments
          fail (.observation job (observationMessage record))
        else
          match record.completion with
          | some status =>
            let supervisorCompletion ← consumeWaitedCompletion job
            return .done (.completed status supervisorCompletion)
          | none =>
            if record.job.state.isStopped then
              match ← ask fun host => host.prepareSerialized assignments.length with
              | .error message =>
                abandon record.group assignments
                fail (.observation job message)
              | .ok observers =>
                assignStopped job record.group observers assignments
                let record ← expectRecord "the stopped foreground record remains published" job
                modifyTable fun table => table.withRecord job { record with observers := some observers }
                return .done (.stopped job)
            else
              return .again assignments) assignments

/-- The first selected record with a child of its own, and that child. -/
def firstAssignment (table : BackgroundJobs) (selected : List JobId) :
    Option (JobId × JobRecord × ObserverAssignment × List ObserverAssignment) :=
  selected.findSome? fun job =>
    match (table.records[job]? : Option JobRecord) with
    | none => none
    | some record =>
      match record.inlineAssignments with
      | [] => none
      | assignment :: pending => some (job, record, assignment, pending)

/-- The job an error names when there is none to name. -/
def fallbackJob : JobId := ⟨1, by decide⟩

def retainAssignment (job : JobId) : Option ObserverAssignment → JobsM ω Unit
  | none => return ()
  | some assignment => do
    let record ← expectRecord "the selected record remains session-owned" job
    modifyTable fun table =>
      table.withRecord job { record with inlineAssignments := record.inlineAssignments ++ [assignment] }

/-- Blocks for one transition of a child the session owns. -/
def waitForInlineTransition (selected : List JobId) : JobsM ω Unit := do
  match firstAssignment (← table) selected with
  | none =>
    fail (.observation (selected.head?.getD fallbackJob) "the target job has no session-owned child to observe")
  | some (job, record, assignment, pending) =>
    modifyTable fun table => table.withRecord job { record with inlineAssignments := pending }
    match ← ask fun host => host.observeOneTransition assignment with
    | none => fail (.observation job "the target child observation channel closed")
    | some retained =>
      retainAssignment job retained
      receiveFrom job assignment.process

/-! ## Signals -/

def deliver (group : ProcessGroupId) (signal : JobSignal) (job : JobId) : JobsM ω Unit := do
  match ← ask fun host => host.signalProcessGroup group signal with
  | .ok _ => return ()
  | .error error => fail (.delivery job (escapeJobLabel error.message))

/-- Moves a stopped record on, with its stopped notice gone. -/
def continueRecord (message : String) (job : JobId) (placement : JobPlacement) (expectation : String) :
    JobsM ω Unit := do
  let record ← expectRecord message job
  match record.job.expect expectation (Job.continueIn placement) with
  | .error panicMessage => panic panicMessage
  | .ok continued =>
    modifyTable fun table =>
      (table.withRecord job { record with job := continued, resumeRequested := false }).clearStopped job

/-- A stopped group is continued first for the terminating signals. -/
def deliverAwake (group : ProcessGroupId) (signal : JobSignal) (job : JobId) (stopped : Bool) : JobsM ω Unit := do
  if stopped ∧ (signal = .hangup ∨ signal = .interrupt ∨ signal = .terminate) then
    deliver group .continue_ job
    deliver group signal job
  else
    deliver group signal job

def signalJob (job : JobId) (signal : JobSignal) (quarantine : QuarantinePolicy) : JobsM ω Unit := do
  applyPendingObservations
  match (← table).records[job]? with
  | none => fail (.unknownJob job)
  | some record =>
    let quarantined := record.observationFailed
    if quarantined ∧ quarantine = .reject then
      fail (.quarantined job)
    else
      let stopped := !quarantined && record.job.state.isStopped
      let continuing := decide (signal = .continue_)
      if continuing && !quarantined && !stopped then
        fail (.notStopped job)
      else
        deliverAwake record.group signal job stopped
        if continuing && !quarantined then
          continueRecord "the record was just observed" job .background "a stopped job accepts a continuation"
        else
          return ()

/-- Delivers a signal, or quarantines the record and says why. -/
def signalOrQuarantine (job : JobId) (signal : JobSignal) : JobsM ω (List BackgroundFailure) := do
  match (← table).records[job]? with
  | none => return []
  | some record =>
    match ← ask fun host => host.signalProcessGroup record.group signal with
    | .ok _ => return []
    | .error error =>
      let message := escapeJobLabel error.message
      modifyTable fun table =>
        table.withRecord job { record with observationFailed := true, observationMessage := some message }
      return [⟨job, record.command, .signal message⟩]

/-! ## Snapshots -/

def snapshotState (record : JobRecord) : JobSnapshotState :=
  if record.observationFailed then .quarantined
  else if record.completion.isSome then .completed
  else if record.job.state.isStopped then .stopped
  else .running

def snapshotRow (job : JobId) (record : JobRecord) : Except String JobSnapshot :=
  match record.job.placement with
  | none => .error "a published job always retains its placement"
  | some placement =>
    let state := snapshotState record
    .ok {
      job := job
      state := state
      placement := placement
      group := record.group
      command := record.command
      status := if state = .completed then record.completion else none
      signal := if state = .stopped then aggregateStopSignal record else none }

def snapshot : JobsM ω (List JobSnapshot) := do
  applyPendingObservations
  match (← table).records.toList.mapM fun (job, record) => snapshotRow job record with
  | .ok rows => return rows
  | .error message => panic message

/-- The newest record that is observable, has not completed and is in a given state. -/
def newest (eligible : JobState → Bool) : JobsM ω (Option JobId) := do
  applyPendingObservations
  return ((← table).records.toList.reverse.find? fun (_, record) =>
    record.completion.isNone && !record.observationFailed && eligible record.job.state).map (·.1)

def newestStopped : JobsM ω (Option JobId) := newest JobState.isStopped

def newestForegroundEligible : JobsM ω (Option JobId) :=
  newest fun state => state.isStopped || decide (state = .background)

/-! ## Foregrounding -/

/-- The terminal as a stopped job left it. -/
def restoreTerminalMode (job : JobId) : JobsM ω Unit := do
  match ((← table).records[job]?).bind JobRecord.terminalMode with
  | none => return ()
  | some token =>
    match ← ask fun host => host.applyTerminalMode token with
    | .ok _ => return ()
    | .error error => fail (.foregroundTerminal error)

/-- Continues a stopped job in the foreground, or moves a running one there. -/
def placeInForeground (job : JobId) (group : ProcessGroupId) (stopped : Bool) : JobsM ω Unit := do
  if stopped then
    restoreTerminalMode job
    deliver group .continue_ job
    continueRecord "the selected record remains session-owned" job .foreground
      "a stopped job accepts a foreground continuation"
  else
    let record ← expectRecord "the selected record remains session-owned" job
    match record.job.expect "a running background job accepts foreground placement" (Job.moveTo .foreground) with
    | .error message => panic message
    | .ok moved => modifyTable fun table => table.withRecord job { record with job := moved }

def awaitForeground (job : JobId) : JobsM ω ForegroundJobOutcome := do
  if (← read).redox then
    let record ← expectRecord "the selected record remains session-owned" job
    modifyTable fun table => table.withRecord job { record with inlineAssignments := [] }
    waitForForegroundInline job record.inlineAssignments
  else
    waitForForeground job

def keepTerminalMode (job : JobId) (terminalMode : TerminalModeToken) : JobsM ω Unit := do
  let record ← expectRecord "a stopped foreground job remains retained" job
  modifyTable fun table => table.withRecord job { record with terminalMode := some terminalMode }

/-- What happens while a job owns the terminal. -/
def runInForeground (job : JobId) (group : ProcessGroupId) (stopped : Bool) : JobsM ω ForegroundJobOutcome := do
  placeInForeground job group stopped
  let outcome ← awaitForeground job
  match outcome with
  | .completed _ _ => return outcome
  | .stopped _ =>
    match ← ask Host.snapshotTerminalMode with
    | .error error => fail (.foregroundTerminal error)
    | .ok terminalMode =>
      keepTerminalMode job terminalMode
      return outcome

/-- Moves one stopped or running background record into the foreground. -/
def foregroundJob (job : JobId) : JobsM ω ForegroundJobOutcome := do
  applyPendingObservations
  match (← table).records[job]? with
  | none => fail (.unknownJob job)
  | some record =>
    if record.observationFailed then fail (.quarantined job)
    else if record.completion.isSome then fail (.completed job)
    else
      let stopped := record.job.state.isStopped
      let runningBackground := decide (record.job.state = .background)
      if !stopped && !runningBackground then fail (.notForegroundable job)
      else
        let terminal ← ask Host.isTerminal
        let supported ← ask Host.supportsForegroundTerminal
        if !terminal || !supported then fail .foregroundTerminalRequired
        else
          match ← ask fun host => host.enterForeground record.group with
          | .error error => fail (.foregroundTerminal error)
          | .ok _ =>
            let outcome ← observed (runInForeground job record.group stopped)
            let restored ← ask Host.restore
            match outcome with
            | .error error => throw error
            | .ok outcome =>
              match restored with
              | .error error => fail (.foregroundTerminal error)
              | .ok _ => return outcome

/-! ## Waiting for a selection -/

/-- How often each member was continued by one wait. -/
abbrev Resumes := JobId → ProcessId → Nat

def Resumes.count (resumes : Resumes) (job : JobId) (members : List (ProcessId × Int32)) : Resumes :=
  fun other process =>
    resumes other process + if other = job then (members.filter fun member => member.1 = process).length else 0

def stoppedMembers (job : Job) : List (ProcessId × Int32) :=
  job.members.toList.filterMap fun (process, member) =>
    match member with
    | .stopped signal => some (process, signal)
    | .running | .completed _ => none

/-- Resumes the stopped jobs of a selection. -/
def resumeWaitTargets : List JobId → Resumes → JobsM ω Resumes
  | [], resumes => return resumes
  | job :: selected, resumes => do
    applyPendingObservations
    match (← table).records[job]? with
    | none => fail (.unknownJob job)
    | some record =>
      if record.observationFailed then fail (.quarantined job)
      else if record.completion.isSome || !record.job.state.isStopped then
        resumeWaitTargets selected resumes
      else
        let members := stoppedMembers record.job
        match members.find? fun member => automaticResumeLimit ≤ resumes job member.1 with
        | some (_, signal) => fail (.repeatedStop job signal)
        | none =>
          match ← observed (signalJob job .continue_ .reject) with
          | .ok _ => resumeWaitTargets selected (resumes.count job members)
          | .error error =>
            -- A terminal observation may race the selection and the continuation.
            let completed := ((← table).records[job]?).any fun record => record.completion.isSome
            match error with
            | .command (.notStopped _) =>
              if completed then resumeWaitTargets selected resumes else throw error
            | error => throw error

/-- Whether every selected record has a terminal aggregate. -/
def waitTargetsCompleted : List JobId → JobsM ω Bool
  | [] => return true
  | job :: selected => do
    match (← table).records[job]? with
    | none => fail (.unknownJob job)
    | some record =>
      if record.observationFailed then fail (.quarantined job)
      else if record.completion.isNone then return false
      else waitTargetsCompleted selected

def checkTargets : List JobId → JobsM ω Unit
  | [] => return ()
  | job :: targets => do
    match (← table).records[job]? with
    | none => fail (.unknownJob job)
    | some record => if record.observationFailed then fail (.quarantined job) else checkTargets targets

def selectTargets (targets : List JobId) : JobsM ω (List JobId) := do
  if targets.isEmpty then
    return ((← table).records.toList.filter fun (_, record) => !record.observationFailed).map (·.1)
  else
    checkTargets targets
    return targets

def expectCompletion (job : JobId) : JobsM ω Status := do
  match ((← table).records[job]?).bind JobRecord.completion with
  | some status => return status
  | none => panic "every selected job reached a terminal aggregate"

def expectCompletions : List JobId → JobsM ω (List Status)
  | [] => return []
  | job :: selected => do
    let status ← expectCompletion job
    return status :: (← expectCompletions selected)

def consumeAll : List JobId → JobsM ω Unit
  | [] => return ()
  | job :: selected => do
    let _ ← consumeWaitedCompletion job
    consumeAll selected

/-- The first status that failed, or the last one. -/
def selectStatus (statuses : List Status) : Except String Status :=
  match statuses.find? fun status => !status.isOk with
  | some status => .ok status
  | none =>
    match statuses.getLast? with
    | some status => .ok status
    | none => .error "a nonempty selection has a last status"

def zeroStatus : Except String Status := expected "zero is a valid empty-wait status" (Status.exit 0 Duration.zero)

def expectStatus : Except String Status → JobsM ω Status
  | .ok status => return status
  | .error message => panic message

/-- Blocks until something has been observed. -/
def waitForTransition (selected : List JobId) : JobsM ω Unit := do
  if (← read).redox then waitForInlineTransition selected else discard receive

/-- Waits for one fixed ordered selection and consumes its terminal records. -/
def waitForJobs (targets : List JobId) : JobsM ω Status := do
  applyPendingObservations
  let selected ← selectTargets targets
  if selected.isEmpty then
    expectStatus zeroStatus
  else
    let resumes ← resumeWaitTargets selected fun _ _ => 0
    loop (fun resumes => do
      if ← waitTargetsCompleted selected then
        return .done ()
      else
        waitForTransition selected
        return .again (← resumeWaitTargets selected resumes)) resumes
    let statuses ← expectCompletions selected
    let status ← expectStatus (selectStatus statuses)
    consumeAll selected
    return status

/-! ## Ending the session -/

def requestResume (job : JobId) : JobsM ω Unit := do
  match (← table).records[job]? with
  | none => return ()
  | some record => modifyTable fun table => table.withRecord job { record with resumeRequested := true }

def resumeJobs : List JobId → JobsM ω (List BackgroundFailure)
  | [] => return []
  | job :: jobs => do
    requestResume job
    let failures ← signalOrQuarantine job .continue_
    return failures ++ (← resumeJobs jobs)

/-- Resumes every stopped live group whose resume has not been sent yet. -/
def resumeStopped : JobsM ω (List BackgroundFailure) := do
  let stopped := (← table).records.toList.filter fun (_, record) =>
    record.completion.isNone && !record.observationFailed && !record.resumeRequested && record.job.state.isStopped
  resumeJobs (stopped.map (·.1))

def failureReason (record : JobRecord) : Option BackgroundFailureReason :=
  if record.observationFailed then
    some (.observation (observationMessage record))
  else
    match record.completion with
    | some status => if status.code ≠ some 0 then some (.exited status) else none
    | none => none

/-- Adds every record that failed and is not reported already. -/
def collectFailures (table : BackgroundJobs) (failures : List BackgroundFailure) : List BackgroundFailure :=
  table.records.toList.foldl (fun failures (job, record) =>
    if failures.any fun failure => failure.job = job then failures
    else
      match failureReason record with
      | some reason => failures ++ [⟨job, record.command, reason⟩]
      | none => failures) failures

/-- Resumes every stopped job, then waits every live job to a terminal status. -/
def waitForQuiescence : JobsM ω (List BackgroundFailure) := do
  let failures ← resumeStopped
  let failures ← loop (fun (failures : List BackgroundFailure) => do
    if !(← table).hasLiveJobs then
      return .done failures
    else if (← read).redox then
      match ← observed (waitForInlineTransition ((← table).liveJobs.map LiveJob.job)) with
      | .error (.command _) => return .done failures
      | .error error => throw error
      | .ok _ => return .again (failures ++ (← resumeStopped))
    else
      let _ ← receive
      return .again (failures ++ (← resumeStopped))) failures
  return collectFailures (← table) failures

def hangUpJobs : List LiveJob → JobsM ω (List BackgroundFailure)
  | [] => return []
  | live :: jobs => do
    let failures ← signalOrQuarantine live.job .hangup
    return failures ++ (← hangUpJobs jobs)

/-- The first failure of each run with the same job. -/
def dedupByJob : List BackgroundFailure → List BackgroundFailure
  | [] => []
  | failure :: failures =>
    match dedupByJob failures with
    | [] => [failure]
    | next :: rest => if failure.job = next.job then failure :: rest else failure :: next :: rest

/-- Resumes, hangs up, and then waits every live job to a terminal status. -/
def hangUpAll : JobsM ω (List BackgroundFailure) := do
  let resumed ← resumeStopped
  let hungUp ← hangUpJobs (← table).liveJobs
  let waited ← waitForQuiescence
  let failures := resumed ++ hungUp ++ waited
  return dedupByJob (failures.mergeSort fun first second => first.job.value ≤ second.job.value)

/-! ## Starting -/

def reserveJob : JobsM ω JobId := do
  match (← table).nextJob with
  | none => throw (.runtime .backgroundIdentityExhausted)
  | some value =>
    match JobId.new value with
    | none => panic "background job allocation starts at one"
    | some id =>
      modifyTable fun table => { table with nextJob := checkedSucc value }
      return id

def reserveNotice : JobsM ω JobNoticeId := do
  match (← table).nextNotice with
  | none => throw (.runtime .backgroundIdentityExhausted)
  | some value =>
    modifyTable fun table => { table with nextNotice := checkedSucc value }
    return ⟨value⟩

/-- A transition of a starting job; when it is refused, what was started is cleaned up. -/
def transition (giveUp : JobsM ω Unit) (operation : JobM Unit) (job : Job) : JobsM ω Job :=
  match operation () job with
  | .ok _ after => return after
  | .error (.rejected error) _ => do
    giveUp
    throw (.runtime (.backgroundJobState error))
  | .error (.panicked message) _ => panic message

def addProcesses (giveUp : JobsM ω Unit) : List BackgroundMember → Job → JobsM ω Job
  | [], job => return job
  | member :: members, job => do
    let job ← transition giveUp (Job.addProcess member.process) job
    addProcesses giveUp members job

/-- Ends observers that have nothing to observe. -/
def release : Option ObserverSlots → JobsM ω Unit
  | none => return ()
  | some observers => do
    let _ ← ask fun host => host.shutdown observers
    return ()

/-- Ordinary targets have every observer ready before a process is created. -/
def prepareObservers (plan : BackgroundPlan) : JobsM ω (Option ObserverSlots) := do
  if (← read).redox then
    return none
  else
    match ← ask fun host => host.prepareObservers plan.stageCount with
    | .ok observers => return some observers
    | .error message => throw (.runtime (.backgroundObserverUnavailable message))

def startPipeline (plan : BackgroundPlan) (observers : Option ObserverSlots) : JobsM ω StartedPipeline := do
  match ← ask fun host => host.startPipeline plan with
  | .ok started => return started
  | .error error =>
    release observers
    throw (.runtime (.pipeline error))

def discardMembers (members : List BackgroundMember) : JobsM ω Unit :=
  ask fun host => host.cleanup (members.map BackgroundMember.process)

def startReader (started : StartedPipeline) (observers : Option ObserverSlots) :
    JobsM ω (Option SupervisorCompletionReader) := do
  if !started.supervised then
    return none
  else
    match ← ask Host.startReader with
    | .ok reader => return some reader
    | .error error =>
      let _ ← ask fun host => host.signalProcessGroup started.group .kill
      discardMembers started.members
      release observers
      throw (.runtime (.executionCapsule ("cannot start supervisor completion reader: " ++ error)))

/-- Hands every child to its observer, or keeps it where there are none. -/
def assignMembers (giveUp : List BackgroundMember → JobsM ω Unit) (job : JobId) (observers : Option ObserverSlots) :
    List BackgroundMember → JobsM ω (List ObserverAssignment)
  | [] => return []
  | member :: members => do
    let assignment : ObserverAssignment := ⟨job, member.process, member.startedAt⟩
    match observers with
    | none => return assignment :: (← assignMembers giveUp job observers members)
    | some slots =>
      if ← ask fun host => host.assign slots assignment then
        assignMembers giveUp job observers members
      else
        giveUp (member :: members)
        throw (.runtime .backgroundAssignmentUnavailable)

/-- The record of a job that has just been published. -/
def publishedRecord (job : Job) (plan : BackgroundPlan) (started : StartedPipeline) (command : String)
    (supervisorCompletion : Option SupervisorCompletionReader) (observers : Option ObserverSlots)
    (inlineAssignments : List ObserverAssignment) : JobRecord where
  job := job
  group := started.group
  sourceOrder := started.members.map BackgroundMember.process
  memberStarted := started.members.foldl (fun times member => times.insert member.process member.startedAt) ∅
  completed := ∅
  pipefail := plan.pipefail
  pipelineStarted := started.startedAt
  latestTerminal := none
  completion := none
  command := command
  observationFailed := false
  observationMessage := none
  resumeRequested := false
  terminalMode := none
  supervisorCompletion := supervisorCompletion
  observers := observers
  inlineAssignments := inlineAssignments

def start (plan : BackgroundPlan) (command : String) : JobsM ω JobId := do
  let jobId ← reserveJob
  let startedNotice ← reserveNotice
  let job ← transition (return ()) Job.beginStarting (Job.new jobId)
  let observers ← prepareObservers plan
  let started ← startPipeline plan observers
  let supervisorCompletion ← startReader started observers
  let job ← addProcesses (return ()) started.members job
  let inlineAssignments ← assignMembers discardMembers jobId observers started.members
  let job ← transition (return ()) (Job.finishStarting .background) job
  modifyTable fun table => table.withRecord jobId
    (publishedRecord job plan started command supervisorCompletion observers inlineAssignments)
  modifyTable fun table =>
    { table with notices := table.notices ++ [⟨startedNotice, jobId, .started started.group, command⟩] }
  return jobId

/-- Terminal ownership, where there is a terminal to own. -/
def takeForeground (group : ProcessGroupId) : JobsM ω Bool := do
  let supported ← ask Host.supportsForegroundTerminal
  let terminal ← ask Host.isTerminal
  if !supported || !terminal then
    return false
  else
    match ← ask fun host => host.enterForeground group with
    | .ok _ => return true
    | .error error => throw (.runtime (.foregroundTerminal error))

def releaseForeground (foreground : Bool) : JobsM ω (Except PlatformError Unit) := do
  if foreground then ask Host.restore else return .ok ()

/-- An error of the observation of a foreground job as an error of its start. -/
def foregroundObservation : BackgroundError → BackgroundError
  | .command error => .runtime (.foregroundObservation error)
  | error => error

/-- Terminal ownership for a new pipeline, which is cleaned up when there is none to get. -/
def takeForegroundFor (started : StartedPipeline) (observers : Option ObserverSlots) : JobsM ω Bool := do
  match ← observed (takeForeground started.group) with
  | .ok foreground => return foreground
  | .error error =>
    discardMembers started.members
    release observers
    throw error

/-- Withdraws a pipeline whose job could not be registered. -/
def withdraw (observers : Option ObserverSlots) (foreground : Bool) (members : List BackgroundMember) :
    JobsM ω Unit := do
  discardMembers members
  release observers
  discard (releaseForeground foreground)

/-- Withdraws a pipeline some of whose children can only be reached as a group. -/
def withdrawGroup (group : ProcessGroupId) (observers : Option ObserverSlots) (foreground : Bool)
    (members : List BackgroundMember) : JobsM ω Unit := do
  let _ ← ask fun host => host.signalProcessGroup group .kill
  withdraw observers foreground members

/-- The terminal as a job that stopped in the foreground leaves it, or why it is not known. -/
def captureTerminalMode (job : JobId) (foreground : Bool) :
    Except BackgroundError ForegroundJobOutcome → JobsM ω (Option PlatformError)
  | .ok (.stopped _) => do
    if foreground then
      match ← ask Host.snapshotTerminalMode with
      | .ok terminalMode =>
        keepTerminalMode job terminalMode
        return none
      | .error error => return some error
    else
      return none
  | _ => return none

/-- Starts and observes one foreground pipeline. -/
def startForeground (plan : BackgroundPlan) (command : String) : JobsM ω ForegroundJobOutcome := do
  let jobId ← reserveJob
  let job ← transition (return ()) Job.beginStarting (Job.new jobId)
  let observers ← prepareObservers plan
  let started ← startPipeline plan observers
  let supervisorCompletion ← startReader started observers
  let foreground ← takeForegroundFor started observers
  let job ← addProcesses (withdraw observers foreground started.members) started.members job
  let inlineAssignments ←
    assignMembers (withdrawGroup started.group observers foreground) jobId observers started.members
  let owned := if observers.isNone then started.members else []
  let job ← transition (withdrawGroup started.group observers foreground owned) (Job.finishStarting .foreground) job
  modifyTable fun table => table.withRecord jobId
    (publishedRecord job plan started command supervisorCompletion observers [])
  let redox := (← read).redox
  let outcome ← observed
    (if redox then waitForForegroundInline jobId inlineAssignments else waitForForeground jobId)
  let captureError ← captureTerminalMode jobId foreground outcome
  let released ← releaseForeground foreground
  match outcome with
  | .error error => throw (foregroundObservation error)
  | .ok outcome =>
    match captureError, released with
    | some error, _ => throw (.runtime (.foregroundTerminal error))
    | none, .error error => throw (.runtime (.foregroundTerminal error))
    | none, .ok _ => return outcome

/-! ## Runs -/

/-- Everything a session asks of the table. -/
inductive Operation where
  | start (plan : BackgroundPlan) (command : String)
  | startForeground (plan : BackgroundPlan) (command : String)
  | applyPendingObservations
  | nextNotice
  | acknowledge (notice : JobNoticeId)
  | drainNotices
  | snapshot
  | newestStopped
  | newestForegroundEligible
  | foregroundJob (job : JobId)
  | signalJob (job : JobId) (signal : JobSignal) (quarantine : QuarantinePolicy)
  | waitForJobs (targets : List JobId)
  | waitForQuiescence
  | hangUpAll

/-- An operation, without the value it returns. -/
def perform : Operation → JobsM ω Unit
  | .start plan command => discard (start plan command)
  | .startForeground plan command => discard (startForeground plan command)
  | .applyPendingObservations => applyPendingObservations
  | .nextNotice => discard nextNotice
  | .acknowledge notice => acknowledge notice
  | .drainNotices => drainNotices
  | .snapshot => discard snapshot
  | .newestStopped => discard newestStopped
  | .newestForegroundEligible => discard newestForegroundEligible
  | .foregroundJob job => discard (foregroundJob job)
  | .signalJob job signal quarantine => signalJob job signal quarantine
  | .waitForJobs targets => discard (waitForJobs targets)
  | .waitForQuiescence => discard waitForQuiescence
  | .hangUpAll => discard hangUpAll

/-- The table an operation leaves, whether it returned, failed or still waits. -/
def left {α : Type} : EStateM.Result BackgroundError (Surroundings ω) α → BackgroundJobs
  | .ok _ state => state.table
  | .error _ state => state.table

/-- One operation on the table, with any host in any state. -/
inductive Step (before : BackgroundJobs) (operation : Operation) : BackgroundJobs → Prop where
  | perform {ω : Type} (host : Host ω) (world : ω) :
      Step before operation (left (Background.perform operation host ⟨before, world⟩))

/-- A sequence of operations. -/
inductive Run : BackgroundJobs → BackgroundJobs → Prop where
  | refl (table : BackgroundJobs) : Run table table
  | step {first middle last : BackgroundJobs} {operation : Operation} (run : Run first middle)
      (step : Step middle operation last) : Run first last

/-- The tables a session can have. -/
def Reachable (table : BackgroundJobs) : Prop := ∃ manageForeground, Run (.new manageForeground) table

end Background

end Opaal.Runtime
