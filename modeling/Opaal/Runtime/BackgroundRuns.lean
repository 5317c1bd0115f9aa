import Opaal.Runtime.BackgroundInvariant

/-!
# Runs of the job table

Starting a job takes identities from the counters and publishes one coherent record.
With that, every operation keeps the invariant, and so does every run.
-/

namespace Opaal.Runtime.Background

open Opaal.Machine List
open BackgroundJobs

/-! ## Starting -/

section Starting

variable {ω : Type} {host : Host ω} {state : Surroundings ω} {job : Job} {processes : List ProcessId}

/-- A job that is being started, with the processes registered so far. -/
structure Starting (job : Job) (processes : List ProcessId) : Prop where
  consistent : job.Consistent
  state : job.state = .starting
  distinct : processes.Nodup
  listed : ∀ process, process ∈ job.members ↔ process ∈ processes
  running : ∀ (process : ProcessId) (member : JobMemberState), job.members[process]? = some member → member = .running

theorem beginStarting_run (id : JobId) :
    ∃ job, Job.beginStarting () (Job.new id) = .ok () job ∧ Starting job [] := by
  have sound := Job.beginStarting_sound (Job.new_consistent id)
  have check := Job.requireState_run "begin startup" [.planned] (Job.new id)
  have run : Job.beginStarting () (Job.new id) = .ok () { Job.new id with state := .starting } := by
    unfold Job.beginStarting
    rfl
  refine ⟨_, run, sound, rfl, nodup_nil, ?_, ?_⟩
  · intro process
    simp [Job.new]
  · intro process member found
    simp [Job.new] at found

theorem addProcess_run (starting : Starting job processes) (process : ProcessId) :
    (∃ error, Job.addProcess process () job = .error (.rejected error) job) ∨
      ∃ after, Job.addProcess process () job = .ok () after ∧ Starting after (processes ++ [process]) := by
  have sound := Job.addProcess_sound starting.consistent process
  have check := Job.requireState_run "register a process" [.starting] job
  rw [if_pos (by simp [starting.state])] at check
  have run : Job.addProcess process () job =
      if job.members.contains process then .error (.rejected (.duplicateProcess process)) job
      else .ok () (job.withMember process .running) := by
    unfold Job.addProcess
    rw [ok_bind check]
    show (if job.members.contains process then _ else _ : JobM Unit) () job = _
    split <;> rfl
  rw [run] at sound ⊢
  split
  · exact .inl ⟨_, rfl⟩
  next new =>
  rw [if_neg new] at sound
  have absent : process ∉ processes := by
    rw [← starting.listed]
    exact new
  refine .inr ⟨_, rfl, sound, starting.state, ?_, ?_, ?_⟩
  · rw [nodup_append]
    refine ⟨starting.distinct, nodup_singleton process, ?_⟩
    intro other listed last lastListed same
    rw [mem_singleton.mp lastListed] at same
    rw [same] at listed
    exact absent listed
  · intro other
    show other ∈ job.members.insert process .running ↔ _
    rw [Std.ExtTreeMap.mem_insert, Std.LawfulEqOrd.compare_eq_iff_eq, starting.listed, mem_append,
      mem_singleton]
    constructor
    · rintro (same | listed)
      · exact .inr same.symm
      · exact .inl listed
    · rintro (listed | same)
      · exact .inr listed
      · exact .inl same.symm
  · intro other member found
    change (job.members.insert process .running)[other]? = some member at found
    rw [Std.ExtTreeMap.getElem?_insert] at found
    split at found
    · cases found
      rfl
    · exact starting.running other member found

/-- A started job runs. -/
theorem finishStarting_run (starting : Starting job processes) (placement : JobPlacement) :
    (∃ error, Job.finishStarting placement () job = .error (.rejected error) job) ∨
      ∃ after, Job.finishStarting placement () job = .ok () after ∧ after.Consistent ∧
        after.isPublished = true ∧ after.members = job.members ∧ after.state ≠ .completed := by
  have sound := Job.finishStarting_sound starting.consistent placement
  have check := Job.requireState_run "finish startup" [.starting] job
  rw [if_pos (by simp [starting.state])] at check
  have run : Job.finishStarting placement () job =
      if job.members.isEmpty then .error (.rejected .noMembers) job
      else Job.reconcile () (job.placedIn placement) := by
    unfold Job.finishStarting
    rw [ok_bind check]
    show (if job.members.isEmpty then _ else _ : JobM Unit) () job = _
    split <;> rfl
  rw [run] at sound ⊢
  split
  · exact .inl ⟨_, rfl⟩
  next populated =>
  rw [if_neg populated] at sound
  have started : (job.placedIn placement).state ≠ .starting := by
    cases placement <;> simp [Job.placedIn, JobPlacement.into]
  have placed : (job.placedIn placement).placement = some placement := rfl
  obtain ⟨notice, reconciled, _⟩ := Job.reconcile_run started placed
  rw [reconciled] at sound ⊢
  refine .inr ⟨_, rfl, sound, Job.isPublished_folded placement rfl, rfl, ?_⟩
  intro completed
  have every := sound.completed completed
  obtain ⟨process, member, found⟩ : ∃ process member, job.members[process]? = some member := by
    rw [← Std.ExtTreeMap.isEmpty_toList] at populated
    cases entries : job.members.toList with
    | nil => simp [entries] at populated
    | cons entry =>
      refine ⟨entry.1, entry.2, Std.ExtTreeMap.mem_toList_iff_getElem?_eq_some.mp ?_⟩
      rw [entries]
      exact mem_cons_self
  have ended := every process member found
  rw [starting.running process member found] at ended
  contradiction

/-- The record of a job whose members all run. -/
theorem publishedRecord_coherent {before : Job} (starting : Starting before processes) (consistent : job.Consistent)
    (published : job.isPublished = true) (members : job.members = before.members) (live : job.state ≠ .completed)
    (plan : BackgroundPlan) {started : StartedPipeline}
    (order : started.members.map BackgroundMember.process = processes) (command : String)
    (supervisorCompletion : Option SupervisorCompletionReader) (observers : Option ObserverSlots)
    (inlineAssignments : List ObserverAssignment) :
    (publishedRecord job plan started command supervisorCompletion observers inlineAssignments).Coherent where
  consistent := consistent
  published := published
  distinct := by
    show (started.members.map BackgroundMember.process).Nodup
    rw [order]
    exact starting.distinct
  listed process := by
    show process ∈ started.members.map BackgroundMember.process ↔ process ∈ job.members
    rw [order, members, starting.listed]
  ended process status := by
    show (∅ : Std.ExtTreeMap ProcessId Status)[process]? = some status ↔ _
    constructor
    · intro found
      simp at found
    · intro found
      change job.members[process]? = some (.completed status) at found
      rw [members] at found
      have running := starting.running process _ found
      contradiction
  leaves process status found := by
    change (∅ : Std.ExtTreeMap ProcessId Status)[process]? = some status at found
    simp at found
  terminal process status found := by
    change (∅ : Std.ExtTreeMap ProcessId Status)[process]? = some status at found
    simp at found
  unfinished := ⟨fun _ => live, fun _ => rfl⟩
  aggregate status completion := by
    contradiction

variable {giveUp : JobsM ω Unit} {leaving : JobId → Prop}

theorem transition_frame (harmless : ∀ current, Runs (frame ω) giveUp host current fun _ _ => True) {operation : JobM Unit}
    {holds : Job → Prop}
    (run : (∃ error, operation () job = .error (.rejected error) job) ∨ ∃ after, operation () job = .ok () after ∧ holds after) :
    Runs (frame ω) (transition giveUp operation job) host state fun after _ => holds after := by
  unfold transition
  rcases run with ⟨_, run⟩ | ⟨_, run, held⟩
  · rw [run]
    exact .bind (harmless state) fun _ _ _ _ => .throw (runtime_calm _)
  · rw [run]
    exact .pure held

theorem addProcesses_frame (harmless : ∀ current, Runs (frame ω) giveUp host current fun _ _ => True)
    (members : List BackgroundMember) (starting : Starting job processes) :
    Runs (frame ω) (addProcesses giveUp members job) host state fun after _ =>
      Starting after (processes ++ members.map BackgroundMember.process) := by
  induction members generalizing job processes state with
  | nil =>
    apply Runs.pure
    simpa using starting
  | cons member _ ih =>
    refine Runs.bind (transition_frame harmless (addProcess_run starting member.process)) fun next after _ registered => ?_
    apply (ih registered).mono
    intro final _ _ complete
    simpa using complete

variable (observers : Option ObserverSlots) (plan : BackgroundPlan) (foreground : Bool)
  (members : List BackgroundMember) (started : StartedPipeline) (group : ProcessGroupId)

theorem release_frame :
    Runs (frame ω) (release observers) host state fun _ _ => True := by
  cases observers with
  | none => exact .pure trivial
  | some => exact frame_ask fun _ _ _ => .pure trivial

theorem discardMembers_frame :
    Runs (frame ω) (discardMembers members) host state fun _ _ => True :=
  ask_frame _

theorem prepareObservers_frame :
    Runs (frame ω) (prepareObservers plan) host state fun _ _ => True := by
  refine .reads rfl ?_
  split
  · exact .pure trivial
  · refine frame_ask fun answer _ _ => ?_
    cases answer with
    | ok => exact .pure trivial
    | error => exact .throw (runtime_calm _)

theorem startPipeline_frame (observers : Option ObserverSlots) :
    Runs (frame ω) (startPipeline plan observers) host state fun _ _ => True := by
  refine frame_ask fun answer _ _ => ?_
  cases answer with
  | ok => exact .pure trivial
  | error => exact .bind (release_frame observers) fun _ _ _ _ => .throw (runtime_calm _)

theorem startReader_frame (observers : Option ObserverSlots) :
    Runs (frame ω) (startReader started observers) host state fun _ _ => True := by
  unfold startReader
  split
  · exact .pure trivial
  · refine frame_ask fun answer _ _ => ?_
    cases answer with
    | ok => exact .pure trivial
    | error =>
      refine frame_ask fun _ _ _ => .bind (discardMembers_frame started.members) fun _ _ _ _ => ?_
      exact .bind (release_frame observers) fun _ _ _ _ => .throw (runtime_calm _)

theorem assignMembers_frame {giveUp : List BackgroundMember → JobsM ω Unit}
    (harmless : ∀ members current, Runs (frame ω) (giveUp members) host current fun _ _ => True) (id : JobId)
    (observers : Option ObserverSlots) (members : List BackgroundMember) :
    Runs (frame ω) (assignMembers giveUp id observers members) host state fun _ _ => True := by
  induction members generalizing state with
  | nil => exact .pure trivial
  | cons _ _ ih =>
    cases observers with
    | none => exact .bind ih fun _ _ _ _ => .pure trivial
    | some =>
      refine frame_ask fun answer after _ => ?_
      cases answer with
      | true => exact ih
      | false => exact .bind (harmless _ after) fun _ _ _ _ => .throw (runtime_calm _)

/-- A job gets the next identity, which no record has. -/
theorem reserveJob_runs :
    Runs (order ω leaving) reserveJob host state fun id after =>
      state.table.nextJob = some id.value ∧ after.table = { state.table with nextJob := checkedSucc id.value } := by
  refine .assume fun valid => .reads rfl ?_
  cases next : state.table.nextJob with
  | none => exact .throw (runtime_calm _)
  | some value =>
    have nonzero : value ≠ 0 := by
      intro zero
      rw [zero] at next
      exact valid.positive next
    have id : JobId.new value = some ⟨value, nonzero⟩ := by
      unfold JobId.new
      rw [dif_pos nonzero]
    simp only [id]
    refine runs_modify_then (fun invariant => ⟨invariant.reserveJob next, .reserveJob next⟩) fun after table => ?_
    exact .pure ⟨rfl, table⟩

theorem reserveNotice_runs :
    Runs (order ω leaving) reserveNotice host state fun id after =>
      state.table.nextNotice = some id.value ∧
        after.table = { state.table with nextNotice := checkedSucc id.value } := by
  refine .reads rfl ?_
  cases next : state.table.nextNotice with
  | none => exact .throw (runtime_calm _)
  | some =>
    refine runs_modify_then (fun invariant => ⟨invariant.reserveNotice next, .reserveNotice next⟩)
      fun after table => ?_
    exact .pure ⟨rfl, table⟩

/-- A step that does not touch the table, on the way from an origin. -/
theorem ends_framed {α β : Type} {origin : Surroundings ω} {program : JobsM ω α} {rest : α → JobsM ω β}
    {middle : α → Surroundings ω → Prop} {post : β → Surroundings ω → Prop} (reached : (order ω leaving).later origin state)
    (first : Runs (frame ω) program host state middle)
    (second : ∀ value after, after.table = state.table → (order ω leaving).later origin after → middle value after → Ends (order ω leaving) origin (rest value) host after post) :
    Ends (order ω leaving) origin (program >>= rest) host state post := by
  refine .bind reached (runs_of_frame first) ?_
  rintro value after later ⟨same, holds⟩
  exact second value after same ((order ω leaving).trans reached later) holds

theorem start_runs (command : String) :
    Runs (order ω nobody) (start plan command) host state fun _ _ => True := by
  refine .assume fun valid => ?_
  refine Ends.bind ((order ω nobody).refl state) reserveJob_runs fun jobId reserved reached ⟨nextJob, table⟩ => ?_
  have reservedValid := (reached valid).1
  refine .bind reached reserveNotice_runs fun notice noted laterNoted ⟨nextNotice, notedTable⟩ => ?_
  have evolved := ((order ω nobody).trans reached laterNoted valid).2
  have notedValid := (laterNoted reservedValid).1
  refine ends_framed ((order ω nobody).trans reached laterNoted)
    (transition_frame (fun _ => .pure trivial) (.inr (beginStarting_run jobId))) fun job first firstTable reached starting => ?_
  refine ends_framed reached (prepareObservers_frame plan) fun observers second secondTable reached _ => ?_
  refine ends_framed reached (startPipeline_frame plan observers) fun started third thirdTable reached _ => ?_
  refine ends_framed reached (startReader_frame started observers) fun reader fourth fourthTable reached _ => ?_
  refine ends_framed reached (addProcesses_frame (fun _ => .pure trivial) started.members starting)
    fun job fifth fifthTable reached registered => ?_
  refine ends_framed reached (assignMembers_frame (fun members _ => discardMembers_frame members) jobId observers
    started.members) fun inlineAssignments sixth sixthTable reached _ => ?_
  refine ends_framed reached (transition_frame (fun _ => .pure trivial) (finishStarting_run registered .background))
    fun job final finalTable reached published => ?_
  have untouched : final.table = noted.table := by
    rw [finalTable, sixthTable, fifthTable, fourthTable, thirdTable, secondTable, firstTable]
  obtain ⟨consistent, isPublished, members, live⟩ := published
  let record := publishedRecord job plan started command reader observers inlineAssignments
  have coherent : record.Coherent :=
    publishedRecord_coherent registered consistent isPublished members live plan rfl command reader observers _
  have records : noted.table.records = state.table.records := by rw [notedTable, table]
  have fresh : jobId ∉ final.table.records := by
    rw [untouched, records]
    intro present
    have issued := valid.issuedJobs jobId present
    rw [nextJob, bound_some] at issued
    omega
  have issued : jobId.value.toNat < bound final.table.nextJob := by
    rw [untouched, notedTable, table]
    rw [bound_checkedSucc]
    omega
  have finalValid : final.table.Invariant := by rw [untouched]; exact notedValid
  have newRecord : (final.table.withRecord jobId record).Invariant := finalValid.publish issued fresh coherent
  let announcement : JobNotice := ⟨notice, jobId, .started started.group, command⟩
  have announced : Invariant { final.table.withRecord jobId record with
      notices := final.table.notices ++ [announcement] } := by
    apply newRecord.append announcement
    · show notice.value.toNat < bound final.table.nextNotice
      rw [untouched, notedTable]
      rw [bound_checkedSucc]
      omega
    · intro earlier listed
      rw [untouched, notedTable] at listed
      have before := reservedValid.issued earlier listed
      rw [nextNotice, bound_some] at before
      exact before
    all_goals
      intro impossible
      contradiction
  refine .steps { final with table := final.table.withRecord jobId record } rfl (fun _ => newRecord) ?_
  refine .of_eq rfl ?_ trivial
  intro _
  refine ⟨announced, .append (.publish ?_ ?_) ?_⟩
  · rw [untouched]
    exact evolved
  · rw [nextJob]
    exact Nat.le_refl _
  · rw [table] at nextNotice
    rw [nextNotice]
    exact Nat.le_refl _

theorem takeForeground_frame :
    Runs (frame ω) (takeForeground group) host state fun _ _ => True := by
  refine frame_ask fun supported _ _ => frame_ask fun terminal _ _ => ?_
  split
  · exact .pure trivial
  · refine frame_ask fun answer _ _ => ?_
    cases answer with
    | ok => exact .pure trivial
    | error => exact .throw (runtime_calm _)

theorem takeForegroundFor_frame (observers : Option ObserverSlots) :
    Runs (frame ω) (takeForegroundFor started observers) host state fun _ _ => True := by
  refine .bind (.observed (takeForeground_frame started.group)) fun outcome _ _ seen => ?_
  cases outcome with
  | ok => exact .pure trivial
  | error =>
    refine .bind (discardMembers_frame started.members) fun _ _ _ _ => ?_
    exact .bind (release_frame observers) fun _ _ _ _ => .throw seen

theorem releaseForeground_frame :
    Runs (frame ω) (releaseForeground foreground) host state fun _ _ => True := by
  unfold releaseForeground
  split
  · exact ask_frame _
  · exact .pure trivial

theorem withdraw_frame :
    Runs (frame ω) (withdraw observers foreground members) host state fun _ _ => True := by
  refine .bind (discardMembers_frame members) fun _ _ _ _ => ?_
  refine .bind (release_frame observers) fun _ _ _ _ => ?_
  exact .bind (releaseForeground_frame foreground) fun _ _ _ _ => .pure trivial

theorem withdrawGroup_frame (observers : Option ObserverSlots) (foreground : Bool) (members : List BackgroundMember) :
    Runs (frame ω) (withdrawGroup group observers foreground members) host state fun _ _ => True :=
  frame_ask fun _ _ _ => withdraw_frame observers foreground members

theorem captureTerminalMode_runs {id : JobId} {outcome : Except BackgroundError ForegroundJobOutcome}
    (ended : ∀ value, outcome = .ok value → Ended id value state) :
    Runs (order ω nobody) (captureTerminalMode id foreground outcome) host state fun _ _ => True := by
  unfold captureTerminalMode
  split
  · next stopped =>
    split
    · refine runs_ask fun answer asked askedTable => ?_
      cases answer with
      | error => exact .pure trivial
      | ok terminalMode =>
        have present : id ∈ asked.table.records := by
          rw [askedTable]
          exact ended _ rfl
        exact .bind (keepTerminalMode_runs present terminalMode) fun _ _ _ _ => .pure trivial
    · exact .pure trivial
  · exact .pure trivial

theorem foregroundObservation_calm {error : BackgroundError} (calm : Calm error) :
    Calm (foregroundObservation error) := by
  cases error with
  | command => exact runtime_calm _
  | notice | runtime | panicked | waiting => exact calm

/-- The jobs that have no identity yet. -/
def Fresh (table : BackgroundJobs) (job : JobId) : Prop := bound table.nextJob ≤ job.value.toNat

theorem startForeground_runs (command : String) :
    Runs (order ω (Fresh state.table)) (startForeground plan command) host state fun _ _ => True := by
  refine .assume fun valid => ?_
  let here := order ω (Fresh state.table)
  refine Ends.bind (here.refl state) reserveJob_runs fun jobId reserved reached ⟨nextJob, table⟩ => ?_
  have reservedValid := (reached valid).1
  have evolved := (reached valid).2
  refine ends_framed reached (transition_frame (fun _ => .pure trivial) (.inr (beginStarting_run jobId)))
    fun job first firstTable reached starting => ?_
  refine ends_framed reached (prepareObservers_frame plan) fun observers second secondTable reached _ => ?_
  refine ends_framed reached (startPipeline_frame plan observers) fun started third thirdTable reached _ => ?_
  refine ends_framed reached (startReader_frame started observers) fun reader fourth fourthTable reached _ => ?_
  refine ends_framed reached (takeForegroundFor_frame started observers)
    fun foreground fifth fifthTable reached _ => ?_
  refine ends_framed reached (addProcesses_frame (fun _ => withdraw_frame observers foreground started.members)
    started.members starting) fun job sixth sixthTable reached registered => ?_
  refine ends_framed reached (assignMembers_frame (fun members _ =>
    withdrawGroup_frame started.group observers foreground members) jobId observers started.members)
    fun inlineAssignments seventh seventhTable reached _ => ?_
  refine ends_framed reached (transition_frame (fun _ => withdrawGroup_frame started.group observers foreground _)
    (finishStarting_run registered .foreground)) fun job final finalTable reached published => ?_
  have untouched : final.table = reserved.table := by
    rw [finalTable, seventhTable, sixthTable, fifthTable, fourthTable, thirdTable, secondTable, firstTable]
  obtain ⟨consistent, isPublished, members, live⟩ := published
  let record := publishedRecord job plan started command reader observers []
  have coherent : record.Coherent :=
    publishedRecord_coherent registered consistent isPublished members live plan rfl command reader observers _
  have fresh : jobId ∉ final.table.records := by
    rw [untouched, table]
    intro present
    have issued := valid.issuedJobs jobId present
    rw [nextJob, bound_some] at issued
    omega
  have issued : jobId.value.toNat < bound final.table.nextJob := by
    rw [untouched, table]
    rw [bound_checkedSucc]
    omega
  have finalValid : final.table.Invariant := by rw [untouched]; exact reservedValid
  have newRecord : (final.table.withRecord jobId record).Invariant := finalValid.publish issued fresh coherent
  let after : Surroundings ω := { final with table := final.table.withRecord jobId record }
  have mine : Fresh state.table jobId := by
    unfold Fresh
    rw [nextJob]
    exact Nat.le_refl _
  have publishedReached : here.later state after := by
    intro _
    refine ⟨newRecord, .publish ?_ mine⟩
    rw [untouched]
    exact evolved
  refine .steps after rfl (fun _ => newRecord) (.of_runs publishedReached ?_)
  have present : jobId ∈ after.table.records := (BackgroundJobs.mem_withRecord jobId).mpr (.inl rfl)
  have waited : Runs here (if host.redox then waitForForegroundInline jobId inlineAssignments
      else waitForForeground jobId) host after (Ended jobId) := by
    split
    · exact runs_wider (waitForForegroundInline_runs jobId inlineAssignments present)
        (fun other same => by rw [same]; exact mine)
    · exact runs_wider (waitForForeground_runs jobId present) (fun other same => by rw [same]; exact mine)
  refine .reads rfl (.bind (.observed waited) fun outcome ended _ seen => ?_)
  have stillThere : ∀ value, outcome = .ok value → Ended jobId value ended := by
    intro value same
    rw [same] at seen
    exact seen
  refine .bind (runs_nobody (captureTerminalMode_runs foreground stillThere)) fun captureError _ _ _ => ?_
  refine runs_framed (releaseForeground_frame foreground) fun released _ _ _ => ?_
  cases outcome with
  | error => exact .throw (foregroundObservation_calm seen)
  | ok =>
    simp only
    split
    · exact .throw (runtime_calm _)
    · exact .throw (runtime_calm _)
    · exact .pure trivial

end Starting

/-! ## Steps and runs -/

section Runs

variable {ω : Type} {host : Host ω} {state : Surroundings ω} {before after : BackgroundJobs}

/-- The records an operation may take out of a table. -/
def Leaving (table : BackgroundJobs) : Operation → JobId → Prop
  | .acknowledge notice => Acknowledges table notice
  | .drainNotices => fun _ => True
  | .waitForJobs targets => Selects targets
  | .foregroundJob job => fun other => other = job
  | .startForeground _ _ => Fresh table
  | _ => nobody

theorem perform_runs (operation : Operation) :
    Runs (order ω (Leaving state.table operation)) (perform operation) host state fun _ _ => True := by
  cases operation with
  | start plan command => exact .bind (start_runs plan command) fun _ _ _ _ => .pure trivial
  | startForeground plan command => exact .bind (startForeground_runs plan command) fun _ _ _ _ => .pure trivial
  | applyPendingObservations => exact applyPendingObservations_runs
  | nextNotice => exact .bind nextNotice_runs fun _ _ _ _ => .pure trivial
  | acknowledge notice =>
    exact acknowledge_runs notice (notice_calm _) (fun _ => notice_calm _) (fun _ _ => notice_calm _)
  | drainNotices => exact drainNotices_runs
  | snapshot => exact .bind snapshot_runs fun _ _ _ _ => .pure trivial
  | newestStopped | newestForegroundEligible => exact .bind (newest_runs _) fun _ _ _ _ => .pure trivial
  | foregroundJob job => exact .bind (foregroundJob_runs job) fun _ _ _ _ => .pure trivial
  | signalJob job signal quarantine => exact signalJob_runs job signal quarantine
  | waitForJobs targets => exact .bind (waitForJobs_runs targets) fun _ _ _ _ => .pure trivial
  | waitForQuiescence => exact .bind waitForQuiescence_runs fun _ _ _ _ => .pure trivial
  | hangUpAll => exact .bind hangUpAll_runs fun _ _ _ _ => .pure trivial

/-- One operation, whether it returns, fails or still waits. -/
theorem step_evolves {operation : Operation} (step : Step before operation after) (invariant : before.Invariant) :
    after.Invariant ∧ Evolves (Leaving before operation) before after := by
  obtain ⟨host, world⟩ := step
  have runs : Runs (order _ (Leaving before operation)) (perform operation) host ⟨before, world⟩ fun _ _ => True :=
    perform_runs operation
  have outcome := runs invariant
  cases result : perform operation host ⟨before, world⟩ with
  | ok | error =>
    rw [result] at outcome
    exact outcome.1 invariant

theorem run_evolves (run : Run before after) (invariant : before.Invariant) :
    after.Invariant ∧ Evolves (fun _ => True) before after := by
  induction run with
  | refl => exact ⟨invariant, .refl before⟩
  | step _ step ih =>
    obtain ⟨middle, evolved⟩ := ih
    obtain ⟨last, evolves⟩ := step_evolves step middle
    exact ⟨last, evolved.trans (evolves.mono fun _ _ => trivial)⟩

theorem reachable_invariant (reachable : Reachable before) : before.Invariant := by
  obtain ⟨manageForeground, run⟩ := reachable
  exact (run_evolves run (BackgroundJobs.new_invariant manageForeground)).1

/-- An identity that was given out and has no record never gets one again. -/
theorem never_again {job : JobId} (run : Run before after) (invariant : before.Invariant)
    (issued : job.value.toNat < bound before.nextJob) (gone : job ∉ before.records) : job ∉ after.records := by
  intro present
  rcases (run_evolves run invariant).2.newJobs job present with earlier | new
  · exact gone earlier
  · omega

end Runs

/-! ## The invariant of every reachable table -/

/-- What the completion of a record is: the aggregate of the statuses of all members, in
source order and under the recorded rule. -/
def Aggregates (record : JobRecord) (completion : Status) : Prop :=
  ∃ stages latest,
    record.sourceOrder.map (fun process => record.job.members[process]?) =
      stages.map (fun status => some (.completed status)) ∧
    (∀ process, process ∈ record.job.members → process ∈ record.sourceOrder) ∧ record.sourceOrder.Nodup ∧
    aggregateStatuses stages record.pipefail (elapsed record.pipelineStarted latest) = .ok completion

/-- What a notice about the state of a job says of the table. -/
def Fits (table : BackgroundJobs) (notice : JobNotice) : Prop :=
  match notice.kind with
  | .stopped => ∃ record, table.records[notice.job]? = some record ∧ table.AwaitsStopped record
  | .completed => ∃ record, table.records[notice.job]? = some record ∧ record.job.state = .completed
  | .started _ | .observationFailed _ => True

/-- What holds of every table a session can have. -/
structure Stands (table : BackgroundJobs) : Prop where
  completion : ∀ (job : JobId) (record : JobRecord), table.records[job]? = some record →
    (record.completion.isSome = true ↔ record.job.state = .completed)
  aggregates : ∀ (job : JobId) (record : JobRecord) (completion : Status), table.records[job]? = some record →
    record.completion = some completion → Aggregates record completion
  single : ∀ job, table.notices.countP (BackgroundJobs.isStateNotice job) ≤ 1
  fits : ∀ notice ∈ table.notices, Fits table notice
  /-- Acknowledging the front notice fails only when an observer panicked, which consumes
  the notice as well, or when the notice is stale. -/
  acknowledges : ∀ (notice : JobNotice) (rest : List JobNotice), table.notices = notice :: rest →
    ∀ (ω : Type) (host : Host ω) (world : ω) (error : BackgroundError) (after : Surroundings ω),
      acknowledge notice.id host ⟨table, world⟩ = .error error after →
        error = .notice .observerPanicked ∨ StaleFront table
  jobs : ∀ job, job ∈ table.records → job.value.toNat < bound table.nextJob
  notices : ∀ notice ∈ table.notices, notice.id.value.toNat < bound table.nextNotice
  distinct : (table.notices.map JobNotice.id).Nodup

theorem invariant_stands {table : BackgroundJobs} (invariant : table.Invariant) : Stands table where
  completion job record found := by
    have unfinished := (invariant.coherent job record found).unfinished
    rw [Option.isSome_iff_ne_none, Ne, unfinished, ne_eq, not_not]
  aggregates job record completion found completed := by
    have coherent := invariant.coherent job record found
    have state := completed_of_some invariant found completed
    obtain ⟨latest, _, aggregate⟩ := coherent.aggregate completion completed
    exact ⟨record.stages, latest, coherent.stages_complete state, fun process => (coherent.listed process).mpr,
      coherent.distinct, aggregate⟩
  single := invariant.single
  fits notice listed := by
    unfold Fits
    split
    · next kind => exact invariant.stopped notice listed kind
    · next kind => exact invariant.completed notice listed kind
    · trivial
    · trivial
  acknowledges notice rest front ω host world error after failed := by
    have first : table.notices.head? = some notice := by rw [front]; rfl
    have runs : Runs (orderWith ω (Acknowledges table notice.id)
        fun error => error = .notice .observerPanicked ∨ StaleFront table) (acknowledge notice.id) host ⟨table, world⟩
        fun _ _ => True :=
      acknowledge_runs notice.id (.inl rfl) (fun absent => absurd rfl (absent notice first)) (fun stale _ => .inr stale)
    have outcome := runs invariant
    rw [failed] at outcome
    exact outcome.2
  jobs := invariant.issuedJobs
  notices := invariant.issued
  distinct := by
    rw [List.Nodup, pairwise_map]
    apply invariant.ordered.imp
    intro earlier later less same
    rw [same] at less
    omega

/-- In every reachable table the records, the notices and the counters fit together; a
record leaves it only through an acknowledgement, a wait or the foreground, and for good;
and identities are never used twice. -/
theorem job_table_invariant {table : BackgroundJobs} (reachable : Reachable table) :
    Stands table ∧
    (∀ (operation : Operation) (after : BackgroundJobs), Step table operation after →
      ∀ job, job ∈ table.records → job ∉ after.records →
        ((∃ notice, operation = .acknowledge notice ∧ Acknowledges table notice job) ∨ operation = .drainNotices ∨
          (∃ targets, operation = .waitForJobs targets ∧ Selects targets job) ∨ operation = .foregroundJob job) ∧
        ∀ later, Run after later → job ∉ later.records) ∧
    ∀ later, Run table later →
      (∀ job : JobId, job.value.toNat < bound table.nextJob → job ∉ table.records → job ∉ later.records) ∧
      ∀ notice ∈ later.notices, notice.id.value.toNat < bound table.nextNotice → notice ∈ table.notices := by
  have invariant := reachable_invariant reachable
  refine ⟨invariant_stands invariant, ?_, ?_⟩
  · intro operation after step job present gone
    obtain ⟨invariantAfter, evolves⟩ := step_evolves step invariant
    have leaving := evolves.left job present gone
    constructor
    · cases operation with
      | acknowledge notice => exact .inl ⟨notice, rfl, leaving⟩
      | drainNotices => exact .inr (.inl rfl)
      | waitForJobs targets => exact .inr (.inr (.inl ⟨targets, rfl, leaving⟩))
      | foregroundJob target =>
        rw [leaving]
        exact .inr (.inr (.inr rfl))
      | startForeground plan command =>
        have issued := invariant.issuedJobs job present
        change bound table.nextJob ≤ job.value.toNat at leaving
        omega
      | _ => exact leaving.elim
    · intro later run
      apply never_again run invariantAfter _ gone
      exact Nat.lt_of_lt_of_le (invariant.issuedJobs job present) evolves.jobs
  · intro later run
    refine ⟨fun job issued gone => never_again run invariant issued gone, ?_⟩
    intro notice listed issued
    rcases (run_evolves run invariant).2.newNotices notice listed with earlier | new
    · exact earlier
    · omega

/-! ## When notices run out

A stopped notice is stale once its job has completed and no identity was left for the
notice of that.  The run below gets there: one job stops and goes on until the counter has
run out, and completes after its last stop. -/

section Exhaustion

theorem first_nonzero : (1 : UInt64) ≠ 0 := by decide

def firstJob : JobId := ⟨1, first_nonzero⟩

def firstProcess : ProcessId := ⟨1, first_nonzero⟩

def firstPipeline : StartedPipeline := ⟨⟨1, first_nonzero⟩, ⟨0⟩, [⟨firstProcess, ⟨0⟩⟩], false⟩

/-- A host that starts that pipeline and delivers the observations it holds. -/
def scripted : Host (List ChildObservation) where
  redox := false
  patience := 2
  tryRecv
    | [] => (none, [])
    | observation :: rest => (some observation, rest)
  recv
    | [] => (none, [])
    | observation :: rest => (some observation, rest)
  observeOneTransition assignment world := (some (some assignment), world)
  tryObserveOneTransition assignment world := (some (some assignment), world)
  signalProcessGroup _ _ world := (.ok (), world)
  isTerminal world := (false, world)
  supportsForegroundTerminal world := (false, world)
  enterForeground _ world := (.ok (), world)
  restore world := (.ok (), world)
  applyTerminalMode _ world := (.ok (), world)
  snapshotTerminalMode world := (.ok ⟨0⟩, world)
  prepareObservers _ world := (.ok ⟨0⟩, world)
  prepareSerialized _ world := (.ok ⟨0⟩, world)
  assign _ _ world := (true, world)
  shutdown _ world := (true, world)
  startPipeline _ world := (.ok firstPipeline, world)
  startReader world := (.ok ⟨0⟩, world)
  finishReader _ world := (.ok [], world)
  cleanup _ world := ((), world)

def startedTable : BackgroundJobs := left (perform (.start ⟨1, false⟩ "sleep 60") scripted ⟨.new true, []⟩)

/-- The job with its one member in a given state. -/
def onlyMember (state : JobState) (member : JobMemberState) (noticePending : Bool) : Job where
  id := firstJob
  state := state
  placement := some .background
  members := (∅ : Std.ExtTreeMap ProcessId JobMemberState).insert firstProcess member
  noticePending := noticePending

def runningRecord : JobRecord :=
  publishedRecord (onlyMember .background .running false) ⟨1, false⟩ firstPipeline "sleep 60" none (some ⟨0⟩) []

def stoppedRecord : JobRecord :=
  { runningRecord with job := onlyMember (.stopped .background) (.stopped 19) true }

/-- Polling children that stay as they are changes nothing. -/
theorem scripted_pollAssignments (assignments : List ObserverAssignment)
    (state : Surroundings (List ChildObservation)) :
    pollAssignments assignments scripted state = .ok assignments state := by
  induction assignments with
  | nil => rfl
  | cons assignment _ ih =>
    unfold pollAssignments
    have asked : ask (fun host => host.tryObserveOneTransition assignment) scripted state =
        .ok (some (some assignment)) state := rfl
    rw [ok_bind asked, ok_bind ih]
    rfl

variable {table : BackgroundJobs}

theorem withRecord_self {job : JobId} {record : JobRecord} (found : table.records[job]? = some record) : table.withRecord job record = table := by
  have same : table.records.insert job record = table.records := by
    apply Std.ExtTreeMap.ext_getElem?
    intro other
    rw [Std.ExtTreeMap.getElem?_insert]
    split
    · next equal =>
      rw [← Std.LawfulEqOrd.eq_of_compare equal, found]
    · rfl
  unfold BackgroundJobs.withRecord
  rw [same]

theorem scripted_pollRecords (jobs : List JobId) (state : Surroundings (List ChildObservation)) :
    pollRecords jobs scripted state = .ok () state := by
  induction jobs with
  | nil => rfl
  | cons job _ ih =>
    have reads : (Background.table : JobsM (List ChildObservation) BackgroundJobs) scripted state =
        .ok state.table state := rfl
    unfold pollRecords
    rw [ok_bind reads]
    cases found : state.table.records[job]? with
    | none => exact ih
    | some record =>
      simp only
      rw [ok_bind (scripted_pollAssignments record.inlineAssignments state)]
      have changed : modifyTable (fun table => table.withRecord job record) scripted state = .ok () state := by
        show EStateM.Result.ok () { state with table := state.table.withRecord job record } = _
        rw [withRecord_self found]
      rw [ok_bind changed]
      exact ih

/-- One delivered observation. -/
theorem scripted_delivers {observation : ChildObservation} {record after : JobRecord} {reaction : Reaction}
    (found : table.records[observation.job]? = some record) (run : record.observe observation = .ok (after, reaction)) :
    Step table .applyPendingObservations (table.react observation.job after reaction) := by
  have polled : pollInlineObservations scripted ⟨table, [observation]⟩ = .ok () ⟨table, [observation]⟩ :=
    scripted_pollRecords table.records.keys ⟨table, [observation]⟩
  have applied : applyObservation observation scripted ⟨table, []⟩ =
      .ok () ⟨table.react observation.job after reaction, []⟩ := by
    have asked : (Background.table : JobsM (List ChildObservation) BackgroundJobs) scripted ⟨table, []⟩ =
        .ok table ⟨table, []⟩ := rfl
    unfold applyObservation
    rw [ok_bind asked, found]
    simp only [run]
    rfl
  have done : perform .applyPendingObservations scripted ⟨table, [observation]⟩ =
      .ok () ⟨table.react observation.job after reaction, []⟩ := by
    have received : applyNext scripted ⟨table, [observation]⟩ =
        .ok (.again ()) ⟨table.react observation.job after reaction, []⟩ := by
      have asked : ask Host.tryRecv scripted ⟨table, [observation]⟩ = .ok (some observation) ⟨table, []⟩ := rfl
      unfold applyNext
      exact ok_bind applied
    have nothing : applyNext scripted ⟨table.react observation.job after reaction, []⟩ =
        .ok (.done ()) ⟨table.react observation.job after reaction, []⟩ := rfl
    show applyPendingObservations scripted ⟨table, [observation]⟩ = _
    unfold applyPendingObservations
    rw [ok_bind polled]
    exact (repeatFrom_again received).trans (repeatFrom_done nothing)
  have step : Step table .applyPendingObservations
      (left (perform .applyPendingObservations scripted ⟨table, [observation]⟩)) := .perform scripted [observation]
  rw [done] at step
  exact step

/-- A reachable table in which the job runs and `value` is the next identity of a notice. -/
def RunsUpTo (table : BackgroundJobs) (value : UInt64) : Prop :=
  Reachable table ∧ table.records[firstJob]? = some runningRecord ∧ table.nextNotice = some value

theorem startedTable_runs : RunsUpTo startedTable 2 :=
  ⟨⟨true, .step (.refl _) (.perform scripted [])⟩, rfl, rfl⟩

/-- The table of a session that has just started a job. -/
theorem job_table_invariant_started :
    Reachable startedTable ∧ startedTable.records[firstJob]? = some runningRecord ∧ Stands startedTable :=
  ⟨startedTable_runs.1, startedTable_runs.2.1, (job_table_invariant startedTable_runs.1).1⟩

theorem Reachable.step {after : BackgroundJobs} {operation : Operation} (reachable : Reachable table)
    (step : Step table operation after) : Reachable after := by
  obtain ⟨manageForeground, run⟩ := reachable
  exact ⟨manageForeground, .step run step⟩

/-- A stop takes an identity and leaves its notice in the queue. -/
theorem stops {value : UInt64} (runs : RunsUpTo table value) :
    ∃ after notice, Reachable after ∧ after.records[firstJob]? = some stoppedRecord ∧
      after.nextNotice = checkedSucc value ∧ notice ∈ after.notices ∧ notice.job = firstJob ∧
      notice.kind = .stopped := by
  obtain ⟨reachable, found, next⟩ := runs
  have observed : runningRecord.observe (.stopped firstJob firstProcess 19) =
      .ok (stoppedRecord, ⟨some .stopped, false⟩) := rfl
  have step : Step table .applyPendingObservations (table.react firstJob stoppedRecord ⟨some .stopped, false⟩) :=
    scripted_delivers found observed
  have changed : table.react firstJob stoppedRecord ⟨some .stopped, false⟩ =
      (table.withRecord firstJob stoppedRecord).queueNotice firstJob .stopped "sleep 60" := rfl
  have nextAfter : (table.withRecord firstJob stoppedRecord).nextNotice = some value := next
  rw [changed, BackgroundJobs.queueNotice_some nextAfter] at step
  refine ⟨_, ⟨⟨value⟩, firstJob, .stopped, "sleep 60"⟩, reachable.step step, ?_, rfl, ?_, rfl, rfl⟩
  · show (table.withRecord firstJob stoppedRecord).records[firstJob]? = _
    rw [BackgroundJobs.getElem?_withRecord, if_pos rfl]
  · exact mem_append_right _ mem_cons_self

/-- After a stop and a continuation the job runs again, one identity later. -/
theorem stops_and_runs {value : UInt64} (runs : RunsUpTo table value) (more : value.toNat + 1 < 2 ^ 64) : ∃ after, RunsUpTo after (value + 1) := by
  obtain ⟨stopped, _, reachable, found, next, _⟩ := stops runs
  have observed : stoppedRecord.observe (.continued firstJob firstProcess) = .ok (runningRecord, ⟨none, true⟩) := rfl
  have step : Step stopped .applyPendingObservations (stopped.react firstJob runningRecord ⟨none, true⟩) :=
    scripted_delivers found observed
  refine ⟨_, reachable.step step, ?_, ?_⟩
  · show (stopped.withRecord firstJob runningRecord).records[firstJob]? = _
    rw [BackgroundJobs.getElem?_withRecord, if_pos rfl]
  · show stopped.nextNotice = some (value + 1)
    rw [next]
    unfold checkedSucc
    rw [if_pos more]

/-- The job can be made to run with any later identity. -/
theorem runs_up_to (steps : Nat) (fits : 2 + steps < 2 ^ 64) :
    ∃ table value, RunsUpTo table value ∧ value.toNat = 2 + steps := by
  induction steps with
  | zero => exact ⟨startedTable, 2, startedTable_runs, rfl⟩
  | succ steps ih =>
    obtain ⟨table, value, runs, counted⟩ := ih (by omega)
    obtain ⟨after, runsAfter⟩ := stops_and_runs runs (by omega)
    refine ⟨after, value + 1, runsAfter, ?_⟩
    show (value.toNat + 1) % 2 ^ 64 = 2 + (steps + 1)
    omega

/-- The job ends after its last stop: its stopped notice is still there. -/
theorem stale_notice_reachable :
    ∃ table notice record, Reachable table ∧ notice ∈ table.notices ∧ notice.kind = .stopped ∧
      table.records[notice.job]? = some record ∧ record.job.state = .completed := by
  obtain ⟨table, value, runs, counted⟩ := runs_up_to (2 ^ 64 - 3) (by omega)
  obtain ⟨stopped, notice, reachable, found, next, listed, about, kind⟩ := stops runs
  have exhausted : stopped.nextNotice = none := by
    rw [next]
    unfold checkedSucc
    rw [if_neg (by omega)]
  have coherent := (reachable_invariant reachable).coherent firstJob stoppedRecord found
  obtain ⟨after, reaction, observed, _⟩ :=
    JobRecord.observe_effect coherent (.completed firstJob firstProcess (.exited 0) ⟨1⟩)
  have step : Step stopped .applyPendingObservations (stopped.react firstJob after reaction) :=
    scripted_delivers found observed
  have ended : after.job.state = .completed ∧ reaction = ⟨some .completed, false⟩ := by
    cases observed
    exact ⟨rfl, rfl⟩
  refine ⟨_, notice, after, reachable.step step, ?_, kind, ?_, ended.1⟩
  · rw [ended.2]
    show notice ∈ ((stopped.withRecord firstJob after).queueNotice firstJob .completed after.command).notices
    have exhaustedAfter : (stopped.withRecord firstJob after).nextNotice = none := exhausted
    rw [BackgroundJobs.queueNotice_none exhaustedAfter]
    exact listed
  · rw [ended.2, about]
    show ((stopped.withRecord firstJob after).queueNotice firstJob .completed after.command).records[firstJob]? = _
    have exhaustedAfter : (stopped.withRecord firstJob after).nextNotice = none := exhausted
    rw [BackgroundJobs.queueNotice_none exhaustedAfter, BackgroundJobs.getElem?_withRecord, if_pos rfl]

/-- A pending stopped notice need not match the state of its job. -/
theorem stopped_notice_can_outlive_stop :
    ¬∀ table, Reachable table → ∀ notice ∈ table.notices, notice.kind = .stopped →
      ∀ record, table.records[notice.job]? = some record → record.job.state.isStopped = true := by
  intro always
  obtain ⟨table, notice, record, reachable, listed, kind, found, completed⟩ := stale_notice_reachable
  have stopped := always table reachable notice listed kind record found
  rw [completed] at stopped
  contradiction

end Exhaustion

end Opaal.Runtime.Background
