import Opaal.Runtime.BackgroundOperations
import Opaal.Runtime.JobTable

/-!
# Every operation keeps the invariant of the job table

Two disciplines are used.  Under `frame` a program only talks to the host; under `order`
it takes the table to one that evolved from it and satisfies the invariant, and only the
records that are `leaving` may be gone.  Neither allows a panic.
-/

namespace Opaal.Runtime.Background

open Opaal.Machine List
open BackgroundJobs
open Runs

section Disciplines

variable {ω α β : Type} {host : Host ω} {state : Surroundings ω} {leaving wider : JobId → Prop}
  {allowed : BackgroundError → Prop}

/-- Anything but a panic. -/
def Calm (error : BackgroundError) : Prop := ∀ message, error ≠ .panicked message

def frameWith (ω : Type) (allowed : BackgroundError → Prop) : Order BackgroundError (Surroundings ω) where
  valid _ := True
  later before after := after.table = before.table
  allowed := allowed
  refl _ := rfl
  trans one two := two.trans one
  keeps _ _ := trivial

def orderWith (ω : Type) (leaving : JobId → Prop) (allowed : BackgroundError → Prop) :
    Order BackgroundError (Surroundings ω) where
  valid state := state.table.Invariant
  later before after := before.table.Invariant → after.table.Invariant ∧ Evolves leaving before.table after.table
  allowed := allowed
  refl state invariant := ⟨invariant, .refl state.table⟩
  trans one two invariant := ⟨(two (one invariant).1).1, (one invariant).2.trans (two (one invariant).1).2⟩
  keeps later valid := (later valid).1

abbrev frame (ω : Type) : Order BackgroundError (Surroundings ω) := frameWith ω Calm

abbrev order (ω : Type) (leaving : JobId → Prop) : Order BackgroundError (Surroundings ω) := orderWith ω leaving Calm

/-- No record may leave. -/
def nobody (_ : JobId) : Prop := False

variable {program : JobsM ω α} {post : α → Surroundings ω → Prop} {rest : α → JobsM ω β} {question : Host ω → ω → α × ω}
  {change : BackgroundJobs → BackgroundJobs} {error : JobCommandError}

theorem runs_wider (runs : Runs (orderWith ω leaving allowed) program host state post)
    (weaken : ∀ job, leaving job → wider job) :
    Runs (orderWith ω wider allowed) program host state post := by
  apply runs.widen
  · intro valid
    exact valid
  · intro after later invariant
    exact ⟨(later invariant).1, (later invariant).2.mono weaken⟩
  · intro error calm
    exact calm

/-- A program under which nobody leaves keeps to any discipline. -/
theorem runs_nobody (runs : Runs (orderWith ω nobody allowed) program host state post) :
    Runs (orderWith ω leaving allowed) program host state post :=
  runs_wider runs fun _ impossible => impossible.elim

theorem runs_of_frame (runs : Runs (frameWith ω allowed) program host state post) :
    Runs (orderWith ω leaving allowed) program host state fun value after =>
      after.table = state.table ∧ post value after := by
  intro _
  have outcome := runs trivial
  cases result : program host state with
  | ok _ after =>
    rw [result] at outcome
    obtain ⟨same, holds⟩ := outcome
    refine ⟨?_, same, holds⟩
    intro invariant
    rw [same]
    exact ⟨invariant, .refl state.table⟩
  | error _ after =>
    rw [result] at outcome
    obtain ⟨same, calm⟩ := outcome
    refine ⟨?_, calm⟩
    intro invariant
    rw [same]
    exact ⟨invariant, .refl state.table⟩

/-- A first step that does not touch the table. -/
theorem runs_framed {middle : α → Surroundings ω → Prop} {post : β → Surroundings ω → Prop}
    (first : Runs (frameWith ω allowed) program host state middle)
    (second : ∀ value after, after.table = state.table → middle value after → Runs (orderWith ω leaving allowed) (rest value) host after post) :
    Runs (orderWith ω leaving allowed) (program >>= rest) host state post := by
  refine .bind (runs_of_frame first) ?_
  intro value after _ holds
  exact second value after holds.1 holds.2

theorem ask_frame (question : Host ω → ω → α × ω) :
    Runs (frameWith ω allowed) (ask question) host state fun _ _ => True :=
  of_eq rfl rfl trivial

theorem runs_ask {post : β → Surroundings ω → Prop}
    (second : ∀ answer after, after.table = state.table → Runs (orderWith ω leaving allowed) (rest answer) host after post) :
    Runs (orderWith ω leaving allowed) (ask question >>= rest) host state post :=
  runs_framed (ask_frame question) fun answer after same _ => second answer after same

theorem frame_ask {post : β → Surroundings ω → Prop}
    (second : ∀ answer after, after.table = state.table → Runs (frameWith ω allowed) (rest answer) host after post) :
    Runs (frameWith ω allowed) (ask question >>= rest) host state post :=
  .bind (ask_frame question) fun answer after same _ => second answer after same

/-- A change of the table. -/
theorem runs_modify {post : Unit → Surroundings ω → Prop}
    (keeps : state.table.Invariant → (change state.table).Invariant ∧ Evolves leaving state.table (change state.table))
    (holds : ∀ after : Surroundings ω, after.table = change state.table → post () after) :
    Runs (orderWith ω leaving allowed) (modifyTable change) host state post :=
  of_eq rfl keeps (holds _ rfl)

theorem runs_modify_then {rest : Unit → JobsM ω β} {post : β → Surroundings ω → Prop}
    (keeps : state.table.Invariant → (change state.table).Invariant ∧ Evolves leaving state.table (change state.table))
    (second : ∀ after : Surroundings ω, after.table = change state.table → Runs (orderWith ω leaving allowed) (rest ()) host after post) :
    Runs (orderWith ω leaving allowed) (modifyTable change >>= rest) host state post := by
  have first : Runs (orderWith ω leaving allowed) (modifyTable change) host state
      fun _ after => after.table = change state.table := runs_modify keeps fun _ same => same
  refine .bind first ?_
  intro _ after _ same
  exact second after same

theorem command_calm (error : JobCommandError) : Calm (.command error) := by
  intro message
  simp

theorem runtime_calm (kind : BackgroundErrorKind) : Calm (.runtime kind) := by
  intro message
  simp

theorem notice_calm (error : JobNoticeError) : Calm (.notice error) := by
  intro message
  simp

theorem waiting_calm : Calm .waiting := by
  intro message
  simp

theorem fail_runs :
    Runs (order ω leaving) (fail error : JobsM ω α) host state post :=
  .throw (command_calm error)

theorem fail_frame :
    Runs (frame ω) (fail error : JobsM ω α) host state post :=
  .throw (command_calm error)

theorem loop_runs {body : α → JobsM ω (Turn α β)} (invariant : α → Surroundings ω → Prop)
    {post : β → Surroundings ω → Prop} {first : α}
    (pass : ∀ current middle, (order ω leaving).later state middle → invariant current middle →
      Runs (order ω leaving) (body current) host middle fun turn after =>
        match turn with
        | .again next => invariant next after
        | .done result => post result after)
    (holds : invariant first state) : Runs (order ω leaving) (loop body first) host state post := by
  exact .repeatFrom_allowed waiting_calm pass holds

/-- What nobody's leaving means for the jobs that were there. -/
theorem stays {before after : Surroundings ω} (later : (order ω nobody).later before after)
    (invariant : before.table.Invariant) {job : JobId} (present : job ∈ before.table.records) :
    job ∈ after.table.records := by
  by_contra missing
  exact (later invariant).2.left job present missing

end Disciplines

/-! ## Observations -/

section Observations

variable {ω : Type} {host : Host ω} {state : Surroundings ω}

theorem applyObservation_runs (observation : ChildObservation) :
    Runs (order ω nobody) (applyObservation observation) host state fun _ _ => True := by
  refine assume fun valid => reads rfl ?_
  cases found : state.table.records[observation.job]? with
  | none => exact Runs.pure trivial
  | some =>
    obtain ⟨_, reaction, run, coherent, effect⟩ :=
      JobRecord.observe_effect (valid.coherent _ _ found) observation
    simp only [run]
    apply runs_modify
    · intro invariant
      exact ⟨BackgroundJobs.react_invariant invariant found coherent effect,
        react_evolves found reaction⟩
    · intro _ _
      trivial

theorem receive_runs : Runs (order ω nobody) receive host state fun _ _ => True := by
  refine runs_ask fun answer after _ => ?_
  cases answer with
  | none => exact .throw waiting_calm
  | some observation => exact .bind (applyObservation_runs observation) fun _ _ _ _ => .pure trivial

theorem pollAssignments_frame (assignments : List ObserverAssignment) :
    Runs (frame ω) (pollAssignments assignments) host state fun _ _ => True := by
  induction assignments generalizing state with
  | nil => exact .pure trivial
  | cons _ _ ih =>
    refine frame_ask fun outcome after _ => .bind ih fun retained final _ _ => ?_
    split
    · exact .pure trivial
    · exact .pure trivial

/-- A record whose job is left alone. -/
theorem sameJob_keeps {leaving : JobId → Prop} {table : BackgroundJobs} {job : JobId} {record after : JobRecord}
    (found : table.records[job]? = some record) (coherent : record.Coherent → after.Coherent)
    (same : after.job = record.job) (invariant : table.Invariant) :
    (table.withRecord job after).Invariant ∧ Evolves leaving table (table.withRecord job after) :=
  ⟨invariant.same_job found (coherent (invariant.coherent job record found)) same, .withRecord found⟩

theorem pollRecords_runs (jobs : List JobId) :
    Runs (order ω nobody) (pollRecords jobs) host state fun _ _ => True := by
  induction jobs generalizing state with
  | nil => exact .pure trivial
  | cons job _ ih =>
    refine reads rfl ?_
    cases found : state.table.records[job]? with
    | none => exact ih
    | some record =>
      refine runs_framed (pollAssignments_frame record.inlineAssignments) fun retained after same _ => ?_
      refine runs_modify_then ?_ fun final _ => ih
      intro invariant
      rw [same] at invariant ⊢
      exact sameJob_keeps found (fun coherent => coherent) rfl invariant

theorem pollInlineObservations_runs : Runs (order ω nobody) pollInlineObservations host state fun _ _ => True :=
  reads rfl (pollRecords_runs _)

theorem applyPendingObservations_runs :
    Runs (order ω nobody) applyPendingObservations host state fun _ _ => True := by
  refine .bind pollInlineObservations_runs fun _ middle _ _ => ?_
  apply loop_runs (fun _ _ => True) _ trivial
  intro _ current _ _
  refine runs_ask fun answer after _ => ?_
  cases answer with
  | none => exact .pure trivial
  | some observation => exact .bind (applyObservation_runs observation) fun _ _ _ _ => .pure trivial

end Observations

/-! ## Notices -/

section Notices

variable {ω : Type} {host : Host ω} {state : Surroundings ω} {allowed : BackgroundError → Prop}

theorem nextNotice_runs : Runs (order ω nobody) nextNotice host state fun _ _ => True := by
  refine .bind pollInlineObservations_runs fun _ middle _ _ => ?_
  apply loop_runs (fun _ _ => True) _ trivial
  intro _ current _ _
  refine reads rfl ?_
  cases current.table.notices.head? with
  | some => exact .pure trivial
  | none =>
    refine runs_ask fun answer after _ => ?_
    cases answer with
    | none => exact .pure trivial
    | some observation => exact .bind (applyObservation_runs observation) fun _ _ _ _ => .pure trivial

/-- The job whose completion an acknowledgement consumes. -/
def Acknowledges (table : BackgroundJobs) (notice : JobNoticeId) (job : JobId) : Prop :=
  ∃ pending, table.notices.head? = some pending ∧ pending.id = notice ∧ pending.kind = .completed ∧ pending.job = job

/-- A stopped notice in front that its job did not wait for: the job completed when no
notice could be queued any more. -/
def StaleFront (table : BackgroundJobs) : Prop :=
  ∃ pending record, table.notices.head? = some pending ∧ pending.kind = .stopped ∧
    table.records[pending.job]? = some record ∧ table.nextNotice = none ∧ record.job.state = .completed

variable {table : BackgroundJobs} {job : Job}

/-- Behind a notice about the state of a job there is no other one. -/
theorem silent_rest (invariant : table.Invariant) {pending : JobNotice} {rest : List JobNotice}
    (front : table.notices = pending :: rest) (isState : pending.kind.isState = true) :
    ∀ notice ∈ rest, notice.job = pending.job → notice.kind.isState = false := by
  intro notice listed same
  have single := invariant.single pending.job
  have first : isStateNotice pending.job pending = true := by
    simp [isStateNotice, isState]
  rw [front, countP_cons_of_pos first] at single
  have none : rest.countP (isStateNotice pending.job) = 0 := by omega
  rw [countP_eq_zero] at none
  have quiet := none notice listed
  simpa [isStateNotice, same] using quiet

theorem acknowledgeStoppedNotice_run (stopped : job.state.isStopped = true) (pending : job.noticePending = true) :
    Job.acknowledgeStoppedNotice () job = .ok () { job with noticePending := false } := by
  have check := Job.requireStopped_run "acknowledge a stopped notice" job
  rw [if_pos stopped] at check
  unfold Job.acknowledgeStoppedNotice
  rw [ok_bind check]
  show (if job.noticePending then _ else _ : JobM Unit) () job = _
  rw [if_pos pending]
  rfl

theorem acknowledgeStoppedNotice_stale (completed : job.state = .completed) :
    ∃ error, Job.acknowledgeStoppedNotice () job = .error (.rejected error) job := by
  have check := Job.requireStopped_run "acknowledge a stopped notice" job
  rw [if_neg (by simp [completed, JobState.isStopped])] at check
  exact ⟨_, error_bind check⟩

theorem markNotified_run (completed : job.state = .completed) :
    Job.markNotified () job = .ok () { job with state := .notified, noticePending := false } := by
  have check := Job.requireState_run "mark notified" [.completed] job
  rw [if_pos (by simp [completed])] at check
  unfold Job.markNotified
  rw [ok_bind check]
  rfl

theorem markReaped_run (notified : job.state = .notified) :
    Job.markReaped () job = .ok () { job with state := .reaped } := by
  have check := Job.requireState_run "mark reaped" [.notified] job
  rw [if_pos (by simp [notified])] at check
  unfold Job.markReaped
  rw [ok_bind check]
  rfl

/-- A record whose stopped notice has been taken off the queue and is acknowledged. -/
theorem acknowledged_keeps (invariant : table.Invariant) {leaving : JobId → Prop} {job : JobId} {record : JobRecord}
    (found : table.records[job]? = some record)
    (silent : ∀ notice ∈ table.notices, notice.job = job → notice.kind.isState = false) :
    let after : JobRecord := { record with job := { record.job with noticePending := false } }
    (table.withRecord job after).Invariant ∧ Evolves leaving table (table.withRecord job after) := by
  intro after
  have coherent := invariant.coherent job record found
  have consistent : after.job.Consistent := by
    constructor
    · exact coherent.consistent.published
    · intro impossible
      contradiction
    · exact coherent.consistent.acknowledged
  have coherentAfter : after.Coherent :=
    coherent.with_job consistent coherent.published (fun _ => .rfl) (fun _ _ => .rfl)
  refine ⟨?_, .withRecord found⟩
  exact invariant.replace_silent (invariant.within found) coherentAfter silent

/-- An acknowledgement takes the front notice off the queue.  It is refused when another
notice is in front, and fails when the front notice is stale or an observer panicked. -/
theorem acknowledge_runs (notice : JobNoticeId) (observers : allowed (.notice .observerPanicked))
    (absent : (∀ pending, state.table.notices.head? = some pending → pending.id ≠ notice) →
      allowed (.notice (.notPending notice)))
    (stale : StaleFront state.table → ∀ error, allowed (.notice (.transition error))) :
    Runs (orderWith ω (Acknowledges state.table notice) allowed) (acknowledge notice) host state fun _ _ => True := by
  refine assume fun valid => reads rfl ?_
  cases front : state.table.notices with
  | nil =>
    apply Runs.throw
    apply absent
    intro pending first
    rw [front] at first
    contradiction
  | cons pending rest =>
  have first : state.table.notices.head? = some pending := by rw [front]; rfl
  simp only
  split
  · next other =>
    apply Runs.throw
    apply absent
    intro candidate candidateFirst
    rw [first] at candidateFirst
    cases candidateFirst
    exact other
  next same =>
  have same : pending.id = notice := by simpa using same
  have inFront : pending ∈ state.table.notices := by
    rw [front]
    exact mem_cons_self
  have fewer : rest.Sublist state.table.notices := by
    rw [front]
    exact sublist_cons_self pending rest
  have popped : Invariant { state.table with notices := rest } := valid.sublist fewer
  refine runs_modify_then (fun _ => ⟨popped, Evolves.sublist fewer⟩) fun middle table => ?_
  have records : middle.table.records = state.table.records := by rw [table]
  have notices : middle.table.notices = rest := by rw [table]
  split
  · exact Runs.pure trivial
  · exact Runs.pure trivial
  · next kind =>
    obtain ⟨record, found, awaits⟩ := valid.stopped pending inFront kind
    have silent := silent_rest valid front (by rw [kind]; rfl)
    refine reads rfl ?_
    rw [← records] at found
    simp only [found]
    rcases awaits with ⟨stopped, waits⟩ | ⟨exhausted, completed⟩
    · have answers : noticed Job.acknowledgeStoppedNotice record.job host middle =
          .ok { record.job with noticePending := false } middle := by
        unfold noticed
        rw [acknowledgeStoppedNotice_run stopped waits]
        rfl
      refine reads answers ?_
      apply runs_modify
      · intro invariant
        apply acknowledged_keeps invariant found
        rw [notices]
        exact silent
      · intro _ _
        trivial
    · obtain ⟨_, run⟩ := acknowledgeStoppedNotice_stale completed
      apply Runs.stops
      unfold noticed
      rw [run]
      apply Runs.throw
      apply stale
      rw [records] at found
      exact ⟨pending, record, first, kind, found, exhausted, completed⟩
  · next kind =>
    obtain ⟨record, found, completed⟩ := valid.completed pending inFront kind
    have silent := silent_rest valid front (by rw [kind]; rfl)
    refine reads rfl ?_
    rw [← records] at found
    simp only [found]
    refine runs_modify_then ?_ fun final _ => ?_
    · intro invariant
      refine ⟨invariant.erase ?_, Evolves.erase ⟨pending, first, same, kind, rfl⟩⟩
      rw [notices]
      exact silent
    · have notified : noticed Job.markNotified record.job host final =
          .ok { record.job with state := .notified, noticePending := false } final := by
        unfold noticed
        rw [markNotified_run completed]
        rfl
      have reaped : noticed Job.markReaped { record.job with state := .notified, noticePending := false } host final =
          .ok { record.job with state := .reaped, noticePending := false } final := by
        unfold noticed
        rfl
      refine reads notified (reads reaped ?_)
      cases record.observers with
      | none => exact Runs.pure trivial
      | some =>
        refine runs_ask fun answer after _ => ?_
        cases answer with
        | true => exact Runs.pure trivial
        | false => exact Runs.throw observers

theorem drainNotices_runs : Runs (order ω fun _ => True) drainNotices host state fun _ _ => True := by
  apply loop_runs (fun _ _ => True) _ trivial
  intro _ current _ _
  refine .bind (runs_nobody nextNotice_runs) fun pending middle _ _ => ?_
  cases pending with
  | none => exact .pure trivial
  | some notice =>
    have acknowledged : Runs (order ω (Acknowledges middle.table notice.id)) (acknowledge notice.id) host middle
        fun _ _ => True :=
      acknowledge_runs notice.id (notice_calm _) (fun _ => notice_calm _) (fun _ _ => notice_calm _)
    refine .bind (observed (runs_wider acknowledged fun _ _ => trivial)) fun outcome after _ seen => ?_
    cases outcome with
    | ok => exact .pure trivial
    | error error =>
      cases error with
      | notice => exact .pure trivial
      | runtime | command | panicked | waiting => exact .throw seen

end Notices

/-! ## Waiting -/

section Waiting

variable {ω : Type} {host : Host ω} {state : Surroundings ω}

theorem endObservers_frame (job : JobId) (observers : Option ObserverSlots) :
    Runs (frame ω) (endObservers job observers) host state fun _ _ => True := by
  cases observers with
  | none => exact .pure trivial
  | some =>
    refine frame_ask fun answer after _ => ?_
    cases answer with
    | true => exact .pure trivial
    | false => exact fail_frame

theorem finishReader_frame (job : JobId) (reader : Option SupervisorCompletionReader) :
    Runs (frame ω) (finishReader job reader) host state fun _ _ => True := by
  cases reader with
  | none => exact .pure trivial
  | some =>
    refine frame_ask fun answer after _ => ?_
    cases answer with
    | ok => exact .pure trivial
    | error => exact fail_frame

/-- Consuming a completion takes its record and its notices, and nothing else. -/
theorem consumeWaitedCompletion_runs (job : JobId)
    (completed : ∀ record, state.table.records[job]? = some record → record.job.state = .completed) :
    Runs (order ω fun other => other = job) (consumeWaitedCompletion job) host state fun _ after =>
      ∀ (other : JobId) (record : JobRecord), after.table.records[other]? = some record →
        state.table.records[other]? = some record := by
  refine runs_modify_then (fun invariant => ⟨invariant.retain _, Evolves.retain _⟩) fun middle table => ?_
  have records : middle.table.records = state.table.records := by rw [table]; rfl
  have silent : ∀ notice ∈ middle.table.notices, notice.job = job → notice.kind.isState = false := by
    intro notice listed about
    rw [table] at listed
    have kept := (mem_filter.mp listed).2
    simp [about] at kept
  refine reads rfl ?_
  cases found : middle.table.records[job]? with
  | none => exact fail_runs
  | some record =>
    refine runs_modify_then (fun invariant => ⟨invariant.erase silent, Evolves.erase rfl⟩) fun final finalTable => ?_
    rw [records] at found
    have notified : record.job.expect "a waited job has completed" Job.markNotified =
        .ok { record.job with state := .notified, noticePending := false } := by
      unfold Job.expect
      rw [markNotified_run (completed record found)]
    have reaped : Job.expect "a notified waited job can be reaped" Job.markReaped
        { record.job with state := .notified, noticePending := false } =
        .ok { record.job with state := .reaped, noticePending := false } := by
      unfold Job.expect
      rw [markReaped_run rfl]
    simp only [notified, reaped]
    have fewer : ∀ after : Surroundings ω, after.table = final.table →
        ∀ (other : JobId) (record : JobRecord), after.table.records[other]? = some record →
          state.table.records[other]? = some record := by
      intro after same other stored present
      rw [same, finalTable] at present
      simp only [Std.ExtTreeMap.getElem?_erase] at present
      split at present
      · contradiction
      · rw [← records]
        exact present
    refine runs_framed (endObservers_frame job record.observers) fun _ ended endedTable _ => ?_
    apply (runs_of_frame (finishReader_frame job record.supervisorCompletion)).mono
    intro _ after _ same
    exact fewer after (same.1.trans endedTable)

variable {job : JobId} {table : BackgroundJobs} {leaving : JobId → Prop}

theorem expectRecord_runs {order : Order BackgroundError (Surroundings ω)} {message : String} {β : Type}
    {rest : JobRecord → JobsM ω β} {post : β → Surroundings ω → Prop} (present : job ∈ state.table.records)
    (second : ∀ record, state.table.records[job]? = some record → Runs order (rest record) host state post) :
    Runs order (expectRecord message job >>= rest) host state post := by
  obtain ⟨record, found⟩ := found_of_mem present
  have answers : expectRecord message job host state = .ok record state := by
    have asked : (Background.table : JobsM ω BackgroundJobs) host state = .ok state.table state := rfl
    unfold expectRecord
    rw [ok_bind asked, found]
    rfl
  exact reads answers (second record found)

/-- A record with a completion is that of a completed job. -/
theorem completed_of_some (invariant : table.Invariant) {record : JobRecord} {status : Status}
    (found : table.records[job]? = some record) (completion : record.completion = some status) :
    record.job.state = .completed := by
  have coherent := invariant.coherent job record found
  by_contra live
  rw [coherent.unfinished.mpr live] at completion
  contradiction

/-- How a wait in the foreground ends: a job that stopped is still there. -/
def Ended (job : JobId) (outcome : ForegroundJobOutcome) (after : Surroundings ω) : Prop :=
  match outcome with
  | .completed _ _ => True
  | .stopped _ => job ∈ after.table.records

/-- A job that is there when an observation is awaited is there after it. -/
theorem receive_keeps (valid : state.table.Invariant) (here : job ∈ state.table.records) :
    Runs (order ω leaving) receive host state fun _ after => job ∈ after.table.records :=
  runs_nobody (receive_runs.mono fun _ _ later _ => stays later valid here)

theorem waitForForeground_runs (job : JobId) (present : job ∈ state.table.records) :
    Runs (order ω fun other => other = job) (waitForForeground job) host state (Ended job) := by
  apply loop_runs (fun _ after => job ∈ after.table.records) _ present
  intro _ current _ here
  refine assume fun valid => expectRecord_runs here fun record found => ?_
  split
  · exact fail_runs
  cases completion : record.completion with
  | some =>
    have completed : ∀ other, current.table.records[job]? = some other → other.job.state = .completed := by
      intro other otherFound
      rw [found] at otherFound
      cases otherFound
      exact completed_of_some valid found completion
    exact .bind (consumeWaitedCompletion_runs job completed) fun _ _ _ _ => .pure trivial
  | none =>
    simp only
    split
    · exact .pure here
    · exact .bind (receive_keeps valid here) fun _ _ _ stillHere => .pure stillHere

theorem receiveFrom_keeps (here : job ∈ state.table.records) (process : ProcessId) :
    Runs (order ω leaving) (receiveFrom job process) host state fun _ after => job ∈ after.table.records := by
  apply runs_nobody
  apply loop_runs (fun _ after => job ∈ after.table.records) _ here
  intro _ current _ stillHere
  refine assume fun currentValid => .bind (receive_keeps currentValid stillHere) fun _ after _ kept => ?_
  split
  · exact .pure kept
  · exact .pure kept

theorem abandon_frame (group : ProcessGroupId) (assignments : List ObserverAssignment) :
    Runs (frame ω) (abandon group assignments) host state fun _ _ => True :=
  frame_ask fun _ _ _ => ask_frame _

theorem assignStopped_frame (job : JobId) (group : ProcessGroupId) (observers : ObserverSlots)
    (assignments : List ObserverAssignment) :
    Runs (frame ω) (assignStopped job group observers assignments) host state fun _ _ => True := by
  induction assignments generalizing state with
  | nil => exact .pure trivial
  | cons _ _ ih =>
    refine frame_ask fun answer after _ => ?_
    cases answer with
    | true => exact ih
    | false => exact .bind (abandon_frame group _) fun _ _ _ _ => frame_ask fun _ _ _ => fail_frame

theorem waitForForegroundInline_runs (job : JobId) (assignments : List ObserverAssignment)
    (present : job ∈ state.table.records) :
    Runs (order ω fun other => other = job) (waitForForegroundInline job assignments) host state (Ended job) := by
  apply loop_runs (fun _ after => job ∈ after.table.records) _ present
  intro assignments current _ here
  refine assume fun valid => ?_
  cases assignments with
  | nil => exact fail_runs
  | cons assignment pending =>
  refine runs_ask fun answer asked askedTable => ?_
  cases answer with
  | none => exact fail_runs
  | some retained =>
  have askedHere : job ∈ asked.table.records := by rw [askedTable]; exact here
  refine Runs.bind (receiveFrom_keeps askedHere assignment.process) fun _ middle _ middleHere => ?_
  refine assume fun middleValid => expectRecord_runs middleHere fun record found => ?_
  split
  · exact runs_framed (abandon_frame record.group _) fun _ _ _ _ => fail_runs
  cases completion : record.completion with
  | some status =>
    have completed : ∀ other, middle.table.records[job]? = some other → other.job.state = .completed := by
      intro other otherFound
      rw [found] at otherFound
      cases otherFound
      exact completed_of_some middleValid found completion
    exact Runs.bind (consumeWaitedCompletion_runs job completed) fun _ _ _ _ => Runs.pure trivial
  | none =>
    simp only
    split
    · refine runs_ask fun prepared after afterTable => ?_
      cases prepared with
      | error message => exact runs_framed (abandon_frame record.group _) fun _ _ _ _ => fail_runs
      | ok observers =>
        refine runs_framed (assignStopped_frame job record.group observers _) fun _ final finalTable _ => ?_
        have finalHere : job ∈ final.table.records := by rw [finalTable, afterTable]; exact middleHere
        refine expectRecord_runs finalHere fun stopped stoppedFound => ?_
        refine runs_modify_then (sameJob_keeps stoppedFound (fun coherent => coherent) rfl) fun last lastTable => ?_
        apply Runs.pure
        show job ∈ last.table.records
        rw [lastTable]
        exact (mem_withRecord job).mpr (.inl rfl)
    · exact Runs.pure middleHere

theorem retainAssignment_runs (here : job ∈ state.table.records) (assignment : Option ObserverAssignment) :
    Runs (order ω nobody) (retainAssignment job assignment) host state fun _ _ => True := by
  cases assignment with
  | none => exact .pure trivial
  | some =>
    refine expectRecord_runs here fun record found => ?_
    apply runs_modify
    · exact sameJob_keeps found (fun coherent => coherent) rfl
    · intro _ _
      trivial

/-- The record an inline assignment is taken from. -/
theorem firstAssignment_found {selected : List JobId} {record : JobRecord} {assignment : ObserverAssignment}
    {pending : List ObserverAssignment} (first : firstAssignment table selected = some (job, record, assignment, pending)) :
    table.records[job]? = some record := by
  obtain ⟨other, _, candidate⟩ := exists_of_findSome?_eq_some first
  split at candidate
  · contradiction
  next stored found =>
  split at candidate
  · contradiction
  · cases candidate
    exact found

theorem waitForInlineTransition_runs (selected : List JobId) :
    Runs (order ω nobody) (waitForInlineTransition selected) host state fun _ _ => True := by
  refine reads rfl ?_
  cases first : firstAssignment state.table selected with
  | none => exact fail_runs
  | some entry =>
    obtain ⟨job, _, assignment, _⟩ := entry
    have found := firstAssignment_found first
    refine runs_modify_then (sameJob_keeps found (fun coherent => coherent) rfl) fun taken takenTable => ?_
    have takenHere : job ∈ taken.table.records := by
      rw [takenTable]
      exact (mem_withRecord job).mpr (.inl rfl)
    refine runs_ask fun answer asked askedTable => ?_
    cases answer with
    | none => exact fail_runs
    | some retained =>
      have askedHere : job ∈ asked.table.records := by rw [askedTable]; exact takenHere
      refine assume fun askedValid =>
        .bind (retainAssignment_runs askedHere retained) fun _ after later _ => ?_
      have afterHere : job ∈ after.table.records := stays later askedValid askedHere
      exact (receiveFrom_keeps afterHere assignment.process).mono fun _ _ _ _ => trivial

end Waiting

/-! ## Signals -/

section Signals

variable {ω : Type} {host : Host ω} {state : Surroundings ω}

theorem deliver_frame (group : ProcessGroupId) (signal : JobSignal) (job : JobId) :
    Runs (frame ω) (deliver group signal job) host state fun _ _ => True := by
  refine frame_ask fun answer after _ => ?_
  cases answer with
  | ok => exact .pure trivial
  | error => exact fail_frame

theorem deliverAwake_frame (group : ProcessGroupId) (signal : JobSignal) (job : JobId) (stopped : Bool) :
    Runs (frame ω) (deliverAwake group signal job stopped) host state fun _ _ => True := by
  unfold deliverAwake
  split
  · exact .bind (deliver_frame group _ job) fun _ _ _ _ => deliver_frame group signal job
  · exact deliver_frame group signal job

theorem continueIn_run {job : Job} (stopped : job.state.isStopped = true) (placement : JobPlacement) :
    Job.continueIn placement () job = .ok () (job.resumed.placedIn placement) := by
  have check := Job.requireStopped_run "continue" job
  rw [if_pos stopped] at check
  unfold Job.continueIn
  rw [ok_bind check]
  rfl

/-- A stopped job that is continued keeps its members and their endings. -/
theorem continued_coherent {record : JobRecord} (coherent : record.Coherent)
    (stopped : record.job.state.isStopped = true) (placement : JobPlacement) :
    JobRecord.Coherent { record with job := record.job.resumed.placedIn placement } := by
  have sound := Job.continueIn_sound coherent.consistent placement
  rw [continueIn_run stopped] at sound
  apply coherent.with_job sound
  · cases placement <;> rfl
  · intro process
    show process ∈ record.job.members.map _ ↔ _
    rw [Std.ExtTreeMap.mem_map]
  · intro process status
    show (record.job.members.map _)[process]? = _ ↔ _
    rw [Std.ExtTreeMap.getElem?_map]
    cases record.job.members[process]? with
    | none => simp
    | some member => cases member <;> simp [JobMemberState.isStopped]

theorem continueRecord_runs {job : JobId} {record : JobRecord} (found : state.table.records[job]? = some record)
    (stopped : record.job.state.isStopped = true) (message : String) (placement : JobPlacement)
    (expectation : String) :
    Runs (order ω nobody) (continueRecord message job placement expectation) host state fun _ _ => True := by
  refine expectRecord_runs (mem_of_found found) fun other otherFound => ?_
  rw [found] at otherFound
  cases otherFound
  have accepted : record.job.expect expectation (Job.continueIn placement) =
      .ok (record.job.resumed.placedIn placement) := by
    unfold Job.expect
    rw [continueIn_run stopped]
  simp only [accepted]
  have live : record.job.state ≠ .completed := by
    intro completed
    rw [completed] at stopped
    contradiction
  apply runs_modify
  · intro invariant
    have coherent := continued_coherent (invariant.coherent job record found) stopped placement
    exact ⟨invariant.resumed found coherent live, (Evolves.withRecord found).trans (Evolves.retain _)⟩
  · intro _ _
    trivial

theorem signalJob_runs (job : JobId) (signal : JobSignal) (quarantine : QuarantinePolicy) :
    Runs (order ω nobody) (signalJob job signal quarantine) host state fun _ _ => True := by
  refine .bind applyPendingObservations_runs fun _ middle _ _ => reads rfl ?_
  cases found : middle.table.records[job]? with
  | none => exact fail_runs
  | some record =>
    simp only
    split
    · exact fail_runs
    split
    · exact fail_runs
    next awake =>
    refine runs_framed (deliverAwake_frame record.group signal job _) fun _ after same _ => ?_
    split
    · next continues =>
      have stopped : record.job.state.isStopped = true := by
        simp only [Bool.and_eq_true, Bool.not_eq_true', not_and, Bool.not_eq_false] at awake continues
        exact (awake continues).2
      apply continueRecord_runs _ stopped
      rw [same]
      exact found
    · exact .pure trivial

theorem signalOrQuarantine_runs (job : JobId) (signal : JobSignal) :
    Runs (order ω nobody) (signalOrQuarantine job signal) host state fun _ _ => True := by
  refine reads rfl ?_
  cases found : state.table.records[job]? with
  | none => exact .pure trivial
  | some =>
    refine runs_ask fun answer after same => ?_
    cases answer with
    | ok => exact .pure trivial
    | error =>
      rw [← same] at found
      refine runs_modify_then ?_ fun _ _ => .pure trivial
      exact sameJob_keeps found (fun coherent => coherent) rfl

end Signals

/-! ## Snapshots and foregrounding -/

section Foreground

variable {ω : Type} {host : Host ω} {state : Surroundings ω}

theorem mapM_ok {α β : Type} {row : α → Except String β} {items : List α}
    (each : ∀ item ∈ items, ∃ value, row item = .ok value) : ∃ values, items.mapM row = .ok values := by
  induction items with
  | nil => exact ⟨[], rfl⟩
  | cons item _ ih =>
    obtain ⟨value, run⟩ := each item mem_cons_self
    obtain ⟨values, runs⟩ := ih (fun other listed => each other (mem_cons_of_mem item listed))
    refine ⟨value :: values, ?_⟩
    rw [mapM_cons, run, runs]
    rfl

theorem snapshotRows_ok {table : BackgroundJobs} (invariant : table.Invariant) :
    ∃ rows, (table.records.toList.mapM fun (job, record) => snapshotRow job record) = .ok rows := by
  apply mapM_ok
  rintro ⟨job, record⟩ listed
  have found := Std.ExtTreeMap.mem_toList_iff_getElem?_eq_some.mp listed
  have coherent := invariant.coherent job record found
  obtain ⟨_, placed, _⟩ := coherent.consistent.published coherent.published
  unfold snapshotRow
  simp only [placed]
  exact ⟨_, rfl⟩

theorem snapshot_runs : Runs (order ω nobody) snapshot host state fun _ _ => True := by
  refine .bind applyPendingObservations_runs fun _ middle _ _ => assume fun valid => reads rfl ?_
  obtain ⟨rows, run⟩ := snapshotRows_ok valid
  simp only [run]
  exact .pure trivial

theorem newest_runs (eligible : JobState → Bool) :
    Runs (order ω nobody) (newest eligible) host state fun _ _ => True :=
  .bind applyPendingObservations_runs fun _ _ _ _ => reads rfl (.pure trivial)

theorem restoreTerminalMode_frame (job : JobId) :
    Runs (frame ω) (restoreTerminalMode job) host state fun _ _ => True := by
  refine reads rfl ?_
  split
  · exact .pure trivial
  · refine frame_ask fun answer after _ => ?_
    cases answer with
    | ok => exact .pure trivial
    | error => exact fail_frame

theorem moveTo_run {job : Job} (running : job.state = .background) (placement : JobPlacement) :
    Job.moveTo placement () job = .ok () (job.placedIn placement) := by
  have check := Job.requireState_run "change placement" [.foreground, .background] job
  rw [if_pos (by simp [running])] at check
  unfold Job.moveTo
  rw [ok_bind check]
  rfl

variable {job : JobId} {record : JobRecord}

/-- A running job that is moved. -/
theorem moved_keeps {table : BackgroundJobs} (invariant : table.Invariant) {leaving : JobId → Prop}
    (found : table.records[job]? = some record) (running : record.job.state = .background) (placement : JobPlacement) :
    let after : JobRecord := { record with job := record.job.placedIn placement }
    (table.withRecord job after).Invariant ∧ Evolves leaving table (table.withRecord job after) := by
  intro after
  have coherent := invariant.coherent job record found
  have sound := Job.moveTo_sound coherent.consistent placement
  rw [moveTo_run running] at sound
  have published : after.job.isPublished = true := by cases placement <;> rfl
  have coherentAfter : after.Coherent :=
    coherent.with_job sound published (fun _ => Iff.rfl) (fun _ _ => Iff.rfl)
  refine ⟨invariant.withRecord found coherentAfter ⟨?_, ?_⟩, Evolves.withRecord found⟩
  · intro stopped
    rw [running] at stopped
    contradiction
  · intro completed
    rw [running] at completed
    contradiction

theorem placeInForeground_runs (found : state.table.records[job]? = some record) (group : ProcessGroupId) {stopped : Bool}
    (isStopped : stopped = record.job.state.isStopped) (eligible : stopped = false → record.job.state = .background) :
    Runs (order ω nobody) (placeInForeground job group stopped) host state fun _ _ => True := by
  unfold placeInForeground
  cases stopped with
  | true =>
    refine runs_framed (restoreTerminalMode_frame job) fun _ restored restoredTable _ => ?_
    refine runs_framed (deliver_frame group .continue_ job) fun _ delivered deliveredTable _ => ?_
    apply continueRecord_runs _ isStopped.symm
    rw [deliveredTable, restoredTable]
    exact found
  | false =>
    refine expectRecord_runs (mem_of_found found) fun other otherFound => ?_
    rw [found] at otherFound
    cases otherFound
    have accepted : record.job.expect "a running background job accepts foreground placement"
        (Job.moveTo .foreground) = .ok (record.job.placedIn .foreground) := by
      unfold Job.expect
      rw [moveTo_run (eligible rfl)]
    simp only [accepted]
    apply runs_modify
    · intro invariant
      exact moved_keeps invariant found (eligible rfl) .foreground
    · intro _ _
      trivial

theorem awaitForeground_runs (job : JobId) (present : job ∈ state.table.records) :
    Runs (order ω fun other => other = job) (awaitForeground job) host state (Ended job) := by
  refine reads rfl ?_
  split
  · refine expectRecord_runs present fun record found => ?_
    refine runs_modify_then (sameJob_keeps found (fun coherent => coherent) rfl) fun after table => ?_
    apply waitForForegroundInline_runs
    rw [table]
    exact (mem_withRecord job).mpr (.inl rfl)
  · exact waitForForeground_runs job present

theorem keepTerminalMode_runs (present : job ∈ state.table.records) (terminalMode : TerminalModeToken) :
    Runs (order ω nobody) (keepTerminalMode job terminalMode) host state fun _ _ => True := by
  refine expectRecord_runs present fun record found => ?_
  apply runs_modify
  · exact sameJob_keeps found (fun coherent => coherent) rfl
  · intro _ _
    trivial

theorem runInForeground_runs (found : state.table.records[job]? = some record) (group : ProcessGroupId) {stopped : Bool}
    (isStopped : stopped = record.job.state.isStopped) (eligible : stopped = false → record.job.state = .background) :
    Runs (order ω fun other => other = job) (runInForeground job group stopped) host state fun _ _ => True := by
  refine assume fun valid => ?_
  have placed : Runs (order ω nobody) (placeInForeground job group stopped) host state
      fun _ after => job ∈ after.table.records :=
    (placeInForeground_runs found group isStopped eligible).mono
      fun _ after later _ => stays later valid (mem_of_found found)
  refine .bind (runs_nobody placed) fun _ middle _ here => ?_
  refine .bind (awaitForeground_runs job here) fun outcome after _ ended => ?_
  cases outcome with
  | completed => exact .pure trivial
  | stopped =>
    refine runs_ask fun answer asked askedTable => ?_
    cases answer with
    | error => exact fail_runs
    | ok terminalMode =>
      have present : job ∈ asked.table.records := by rw [askedTable]; exact ended
      exact .bind (runs_nobody (keepTerminalMode_runs present terminalMode)) fun _ _ _ _ => .pure trivial

theorem foregroundJob_runs (job : JobId) :
    Runs (order ω fun other => other = job) (foregroundJob job) host state fun _ _ => True := by
  refine .bind (runs_nobody applyPendingObservations_runs) fun _ middle _ _ => reads rfl ?_
  cases found : middle.table.records[job]? with
  | none => exact fail_runs
  | some record =>
    simp only
    split
    · exact fail_runs
    split
    · exact fail_runs
    split
    · exact fail_runs
    next eligible =>
    refine runs_ask fun terminal first firstTable => runs_ask fun supported second secondTable => ?_
    split
    · exact fail_runs
    refine runs_ask fun entered third thirdTable => ?_
    cases entered with
    | error => exact fail_runs
    | ok =>
      have thirdFound : third.table.records[job]? = some record := by
        rw [thirdTable, secondTable, firstTable]
        exact found
      have ready : record.job.state.isStopped = false → record.job.state = .background := by
        intro awake
        simpa [awake] using eligible
      have ran : Runs (order ω fun other => other = job)
          (runInForeground job record.group record.job.state.isStopped) host third fun _ _ => True :=
        runInForeground_runs thirdFound record.group rfl ready
      refine .bind (observed ran) fun outcome after _ seen => runs_ask fun restored final _ => ?_
      cases outcome with
      | error => exact .throw seen
      | ok =>
        cases restored with
        | error => exact fail_runs
        | ok => exact .pure trivial

end Foreground

/-! ## Waiting for a selection -/

section Selection

variable {ω : Type} {host : Host ω} {state : Surroundings ω}

variable (selected targets : List JobId)

theorem resumeWaitTargets_runs (resumes : Resumes) :
    Runs (order ω nobody) (resumeWaitTargets selected resumes) host state fun _ _ => True := by
  induction selected generalizing resumes state with
  | nil => exact .pure trivial
  | cons job _ ih =>
    refine .bind applyPendingObservations_runs fun _ middle _ _ => reads rfl ?_
    cases middle.table.records[job]? with
    | none => exact fail_runs
    | some =>
      simp only
      split
      · exact fail_runs
      split
      · exact ih resumes
      split
      · exact fail_runs
      refine .bind (observed (signalJob_runs job .continue_ .reject)) fun outcome after _ seen => ?_
      cases outcome with
      | ok => exact ih _
      | error =>
        refine reads rfl ?_
        split
        · split
          · exact ih resumes
          · exact .throw seen
        · exact .throw seen

/-- A selection that has completed, record by record. -/
def AllCompleted (table : BackgroundJobs) (selected : List JobId) : Prop :=
  ∀ job ∈ selected, ∃ record status, table.records[job]? = some record ∧ record.completion = some status

theorem waitTargetsCompleted_frame :
    Runs (frame ω) (waitTargetsCompleted selected) host state fun all after =>
      after.table = state.table ∧ (all = true → AllCompleted state.table selected) := by
  induction selected with
  | nil => exact .pure ⟨rfl, fun _ _ impossible => by contradiction⟩
  | cons job selected ih =>
    refine reads rfl ?_
    cases found : state.table.records[job]? with
    | none => exact fail_frame
    | some record =>
      simp only
      split
      · exact fail_frame
      split
      · exact .pure ⟨rfl, fun impossible => by contradiction⟩
      next ended =>
      apply ih.mono
      rintro all after _ ⟨same, completed⟩
      refine ⟨same, ?_⟩
      intro allCompleted other listed
      rcases mem_cons.mp listed with rfl | later
      · cases completion : record.completion with
        | none => simp [completion] at ended
        | some status => exact ⟨record, status, found, completion⟩
      · exact completed allCompleted other later

theorem checkTargets_frame :
    Runs (frame ω) (checkTargets targets) host state fun _ _ => True := by
  induction targets with
  | nil => exact .pure trivial
  | cons job _ ih =>
    refine reads rfl ?_
    cases state.table.records[job]? with
    | none => exact fail_frame
    | some =>
      simp only
      split
      · exact fail_frame
      · exact ih

theorem selectTargets_frame :
    Runs (frame ω) (selectTargets targets) host state fun selected _ => targets = [] ∨ selected = targets := by
  unfold selectTargets
  split
  · next empty => exact reads rfl (.pure (.inl (isEmpty_iff.mp empty)))
  · exact .bind (checkTargets_frame targets) fun _ _ _ _ => .pure (.inr rfl)

theorem expectCompletions_frame (completed : AllCompleted state.table selected) :
    Runs (frame ω) (expectCompletions selected) host state fun statuses _ => statuses.length = selected.length := by
  induction selected with
  | nil => exact .pure rfl
  | cons job selected ih =>
    obtain ⟨_, status, found, completion⟩ := completed job mem_cons_self
    have answers : expectCompletion job host state = .ok status state := by
      have asked : (Background.table : JobsM ω BackgroundJobs) host state = .ok state.table state := rfl
      unfold expectCompletion
      rw [ok_bind asked, found, Option.bind_some, completion]
      rfl
    refine reads answers (.bind (ih ?_) fun statuses after _ length => .pure ?_)
    · intro other listed
      exact completed other (mem_cons_of_mem job listed)
    · simp [length]

theorem selectStatus_ok {statuses : List Status} (nonempty : statuses ≠ []) :
    ∃ status, selectStatus statuses = .ok status := by
  unfold selectStatus
  split
  · exact ⟨_, rfl⟩
  · rw [List.getLast?_eq_some_getLast nonempty]
    exact ⟨_, rfl⟩

theorem consumeAll_runs
    (completed : ∀ job ∈ selected, ∀ record, state.table.records[job]? = some record → record.job.state = .completed) :
    Runs (order ω fun job => job ∈ selected) (consumeAll selected) host state fun _ _ => True := by
  induction selected generalizing state with
  | nil => exact .pure trivial
  | cons job _ ih =>
    refine .bind (runs_wider (consumeWaitedCompletion_runs job (completed job mem_cons_self)) ?_) fun _ after _ fewer => runs_wider (ih ?_) ?_
    · intro other same
      exact mem_cons.mpr (.inl same)
    · intro other listed record found
      exact completed other (mem_cons_of_mem job listed) record (fewer other record found)
    · intro other listed
      exact mem_cons_of_mem job listed

theorem waitForTransition_runs :
    Runs (order ω nobody) (waitForTransition selected) host state fun _ _ => True := by
  refine reads rfl ?_
  split
  · exact waitForInlineTransition_runs selected
  · exact .bind receive_runs fun _ _ _ _ => .pure trivial

/-- What a wait may consume: the jobs it names, or any when it names none. -/
def Selects (targets : List JobId) (job : JobId) : Prop := targets = [] ∨ job ∈ targets

theorem waitForJobs_runs :
    Runs (order ω (Selects targets)) (waitForJobs targets) host state fun _ _ => True := by
  refine Runs.bind (runs_nobody applyPendingObservations_runs) fun _ pending _ _ => ?_
  refine runs_framed (selectTargets_frame targets) fun selected chosen _ choice => ?_
  split
  · have zero : ∃ status, zeroStatus = .ok status := ⟨_, rfl⟩
    obtain ⟨status, run⟩ := zero
    rw [run]
    exact Runs.pure trivial
  next nonempty =>
  refine Runs.bind (runs_nobody (resumeWaitTargets_runs selected _)) fun resumes resumed _ _ => ?_
  have waited : Runs (order ω nobody) (loop (fun resumes => do
      if ← waitTargetsCompleted selected then
        return .done ()
      else
        waitForTransition selected
        return .again (← resumeWaitTargets selected resumes)) resumes) host resumed
      fun _ after => AllCompleted after.table selected := by
    apply loop_runs (fun _ _ => True) _ trivial
    intro current middle _ _
    refine runs_framed (waitTargetsCompleted_frame selected) fun all after _ completed => ?_
    cases all with
    | true =>
      apply Runs.pure
      rw [completed.1]
      exact completed.2 rfl
    | false =>
      refine Runs.bind (waitForTransition_runs selected) fun _ _ _ _ => ?_
      exact Runs.bind (resumeWaitTargets_runs selected current) fun _ _ _ _ => Runs.pure trivial
  refine Runs.bind (runs_nobody waited) fun _ done _ completed => ?_
  refine assume fun valid => ?_
  refine runs_framed (expectCompletions_frame selected completed) fun statuses after afterTable length => ?_
  have some : statuses ≠ [] := by
    intro empty
    rw [empty, length_nil] at length
    apply nonempty
    exact isEmpty_iff.mpr (length_eq_zero_iff.mp length.symm)
  obtain ⟨_, run⟩ := selectStatus_ok some
  rw [run]
  refine reads rfl (Runs.bind (runs_wider (consumeAll_runs selected ?_) ?_) fun _ _ _ _ => Runs.pure trivial)
  · intro job listed record found
    obtain ⟨_, _, otherFound, completion⟩ := completed job listed
    rw [afterTable, otherFound] at found
    cases found
    exact completed_of_some valid otherFound completion
  · intro job listed
    rcases choice with empty | same
    · exact .inl empty
    · rw [← same]
      exact .inr listed

end Selection

/-! ## Ending the session -/

section Ending

variable {ω : Type} {host : Host ω} {state : Surroundings ω}

theorem requestResume_runs (job : JobId) : Runs (order ω nobody) (requestResume job) host state fun _ _ => True := by
  refine reads rfl ?_
  cases found : state.table.records[job]? with
  | none => exact .pure trivial
  | some =>
    apply runs_modify
    · exact sameJob_keeps found (fun coherent => coherent) rfl
    · intro _ _
      trivial

theorem resumeJobs_runs (jobs : List JobId) :
    Runs (order ω nobody) (resumeJobs jobs) host state fun _ _ => True := by
  induction jobs generalizing state with
  | nil => exact .pure trivial
  | cons job _ ih =>
    refine .bind (requestResume_runs job) fun _ _ _ _ => ?_
    refine .bind (signalOrQuarantine_runs job .continue_) fun _ _ _ _ => ?_
    exact .bind ih fun _ _ _ _ => .pure trivial

theorem resumeStopped_runs : Runs (order ω nobody) resumeStopped host state fun _ _ => True :=
  reads rfl (resumeJobs_runs _)

theorem waitForQuiescence_runs : Runs (order ω nobody) waitForQuiescence host state fun _ _ => True := by
  refine .bind resumeStopped_runs fun failures resumed _ _ => ?_
  refine .bind (?_ : Runs (order ω nobody) _ host resumed fun _ _ => True)
    fun _ _ _ _ => reads rfl (.pure trivial)
  apply loop_runs (fun _ _ => True) _ trivial
  intro failures current _ _
  refine reads rfl ?_
  split
  · exact .pure trivial
  refine reads rfl ?_
  split
  · refine reads rfl ?_
    refine .bind (observed (waitForInlineTransition_runs _)) fun outcome after _ seen => ?_
    cases outcome with
    | ok => exact .bind resumeStopped_runs fun _ _ _ _ => .pure trivial
    | error error =>
      cases error with
      | command => exact .pure trivial
      | notice | runtime | panicked | waiting => exact .throw seen
  · refine .bind receive_runs fun _ _ _ _ => ?_
    exact .bind resumeStopped_runs fun _ _ _ _ => .pure trivial

theorem hangUpJobs_runs (jobs : List LiveJob) :
    Runs (order ω nobody) (hangUpJobs jobs) host state fun _ _ => True := by
  induction jobs generalizing state with
  | nil => exact .pure trivial
  | cons live _ ih =>
    refine .bind (signalOrQuarantine_runs live.job .hangup) fun _ _ _ _ => ?_
    exact .bind ih fun _ _ _ _ => .pure trivial

theorem hangUpAll_runs : Runs (order ω nobody) hangUpAll host state fun _ _ => True := by
  refine .bind resumeStopped_runs fun _ _ _ _ => reads rfl ?_
  refine .bind (hangUpJobs_runs _) fun _ _ _ _ => ?_
  exact .bind waitForQuiescence_runs fun _ _ _ _ => .pure trivial

end Ending

end Opaal.Runtime.Background
