import Opaal.Runtime.BackgroundInvariant

/-!
# What happens while a session ends

A session that ends resumes and hangs up its jobs and applies what their observers report.
`Move` is one such thing happening to the table, with the event it is seen as, and a `Trace`
is any sequence of them.  Everything `waitForQuiescence` and `hangUpAll` do is a trace, and the
failures they report on the way are the signals that were refused.
-/

namespace Opaal.Runtime

open List

namespace JobRecord

/-- Whether the end of a job is still to be observed. -/
def isLive (record : JobRecord) : Bool := record.completion.isNone && !record.observationFailed

/-- Whether the next pass resumes a job. -/
def awaitsResume (record : JobRecord) : Bool :=
  record.completion.isNone && !record.observationFailed && !record.resumeRequested && record.job.state.isStopped

def requested (record : JobRecord) : JobRecord := { record with resumeRequested := true }

/-- The record of a job whose group could not be signalled. -/
def quarantined (record : JobRecord) (message : String) : JobRecord :=
  { record with observationFailed := true, observationMessage := some message }

end JobRecord

namespace Background

open Opaal.Machine

/-! ## Moves and traces -/

inductive Event where
  | observed (observation : ChildObservation)
  | signalled (job : JobId) (group : ProcessGroupId) (signal : JobSignal) (delivered : Bool)
deriving DecidableEq

/-- The jobs that refused a signal, as it happened. -/
def refusals (events : List Event) : List JobId :=
  events.filterMap fun
    | .signalled job _ _ false => some job
    | _ => none

theorem refusals_append (first second : List Event) : refusals (first ++ second) = refusals first ++ refusals second :=
  filterMap_append

/-- One thing that happens to the table. -/
inductive Move (table : BackgroundJobs) : List Event → BackgroundJobs → Prop where
  | ignored (observation : ChildObservation) (unknown : table.records[observation.job]? = none) :
      Move table [.observed observation] table
  | observed {record after : JobRecord} {reaction : Reaction} (observation : ChildObservation)
      (found : table.records[observation.job]? = some record) (observes : record.observe observation = .ok (after, reaction)) :
      Move table [.observed observation] (table.react observation.job after reaction)
  | resumed {job : JobId} {record : JobRecord} (found : table.records[job]? = some record)
      (awaits : record.awaitsResume = true) :
      Move table [.signalled job record.group .continue_ true] (table.withRecord job record.requested)
  | resumeRefused {job : JobId} {record : JobRecord} (message : String) (found : table.records[job]? = some record)
      (awaits : record.awaitsResume = true) :
      Move table [.signalled job record.group .continue_ false]
        ((table.withRecord job record.requested).withRecord job (record.requested.quarantined message))
  | hungUp {job : JobId} {record : JobRecord} (found : table.records[job]? = some record)
      (live : record.isLive = true) : Move table [.signalled job record.group .hangup true] table
  | hangUpRefused {job : JobId} {record : JobRecord} (message : String) (found : table.records[job]? = some record)
      (live : record.isLive = true) :
      Move table [.signalled job record.group .hangup false] (table.withRecord job (record.quarantined message))
  -- A child the session observes itself is taken from its record, or put back.
  | polled {job : JobId} {record : JobRecord} (assignments : List ObserverAssignment)
      (found : table.records[job]? = some record) :
      Move table [] (table.withRecord job { record with inlineAssignments := assignments })

/-- Moves in any order, as long as each is `allowed` in the table it happens to. -/
inductive Trace (allowed : BackgroundJobs → Event → Prop) (start : BackgroundJobs) :
    List Event → BackgroundJobs → Prop where
  | refl : Trace allowed start [] start
  | step {table after : BackgroundJobs} {events happened : List Event} (trace : Trace allowed start events table)
      (permitted : ∀ event ∈ happened, allowed table event) (move : Move table happened after) :
      Trace allowed start (events ++ happened) after

section Moves

variable {allowed : BackgroundJobs → Event → Prop} {start middle final : BackgroundJobs} {events happened : List Event}

def anything (_ : BackgroundJobs) (_ : Event) : Prop := True

theorem Trace.trans (first : Trace allowed start events middle) (second : Trace allowed middle happened final) :
    Trace allowed start (events ++ happened) final := by
  induction second with
  | refl =>
    rw [append_nil]
    exact first
  | step _ permitted move ih =>
    rw [← append_assoc]
    exact .step ih permitted move

theorem Trace.of_move (move : Move start happened final) : Trace anything start happened final := by
  have trace : Trace anything start ([] ++ happened) final := .step .refl (fun _ _ => trivial) move
  exact trace

end Moves

/-! ## What the programs do -/

section Programs

variable {ω α β : Type} {host : Host ω} {state : Surroundings ω} {program : JobsM ω α} {start : BackgroundJobs}
  {failures more : List BackgroundFailure} {middle after : Surroundings ω}

/-- Only moves, and if `quiet`, none that a signal is refused in. -/
def following (ω : Type) (quiet : Prop) : Order BackgroundError (Surroundings ω) where
  valid _ := True
  later before after := ∃ events, Trace anything before.table events after.table ∧ (quiet → refusals events = [])
  allowed _ := True
  refl _ := ⟨[], .refl, fun _ => rfl⟩
  trans := by
    rintro _ _ _ ⟨events, first, none⟩ ⟨happened, second, none'⟩
    refine ⟨events ++ happened, first.trans second, fun quiet => ?_⟩
    rw [refusals_append, none quiet, none' quiet, append_nil]
  keeps _ _ := trivial

/-- Whether a failure is a signal that was refused. -/
def isRefusal (failure : BackgroundFailure) : Bool :=
  match failure.reason with
  | .signal _ => true
  | _ => false

/-- Failures that are the refusals on the way from a table. -/
def Reports (start : BackgroundJobs) (failures : List BackgroundFailure) (after : Surroundings ω) : Prop :=
  ∃ events, Trace anything start events after.table ∧ failures.map BackgroundFailure.job = refusals events ∧
    failures.all isRefusal = true

theorem Reports.nil : Reports state.table [] state := ⟨[], .refl, rfl, rfl⟩

theorem Reports.append (first : Reports start failures middle) (second : Reports middle.table more after) :
    Reports start (failures ++ more) after := by
  obtain ⟨events, trace, jobs, refused⟩ := first
  obtain ⟨happened, trace', jobs', refused'⟩ := second
  refine ⟨events ++ happened, trace.trans trace', ?_, ?_⟩
  · rw [map_append, jobs, jobs', refusals_append]
  · rw [all_append, refused, refused']
    rfl

theorem Reports.quiet (first : Reports start failures middle) (later : (following ω True).later middle after) :
    Reports start failures after := by
  obtain ⟨happened, trace, none⟩ := later
  have second : Reports middle.table [] after := ⟨happened, trace, (none trivial).symm, rfl⟩
  have both := first.append second
  rw [append_nil] at both
  exact both

theorem Reports.later (reports : Reports state.table failures after) : (following ω False).later state after := by
  obtain ⟨events, trace, _⟩ := reports
  exact ⟨events, trace, False.elim⟩

/-- Where nothing is refused, it is seen afterwards that nothing was. -/
theorem runs_following {post : α → Surroundings ω → Prop} (runs : Runs (following ω True) program host state post) :
    Runs (following ω False) program host state fun value after =>
      (following ω True).later state after ∧ post value after := by
  intro _
  have outcome := runs trivial
  cases result : program host state with
  | ok =>
    rw [result] at outcome
    obtain ⟨⟨events, trace, none⟩, holds⟩ := outcome
    exact ⟨⟨events, trace, False.elim⟩, ⟨events, trace, none⟩, holds⟩
  | error =>
    rw [result] at outcome
    obtain ⟨⟨events, trace, _⟩, _⟩ := outcome
    exact ⟨⟨events, trace, False.elim⟩, trivial⟩

theorem runs_same {rest : α → JobsM ω β} {post : β → Surroundings ω → Prop} {quiet : Prop}
    {question : Host ω → ω → α × ω}
    (second : ∀ answer after, after.table = state.table → Runs (following ω quiet) (rest answer) host after post) :
    Runs (following ω quiet) (ask question >>= rest) host state post := by
  have asked : Runs (following ω quiet) (ask question) host state fun _ after => after.table = state.table :=
    .of_eq rfl ⟨[], .refl, fun _ => rfl⟩ rfl
  exact .bind asked fun answer after _ same => second answer after same

theorem loop_follows {quiet : Prop} {body : α → JobsM ω (Turn α β)} (invariant : α → Surroundings ω → Prop)
    {post : β → Surroundings ω → Prop} {first : α}
    (pass : ∀ current middle, invariant current middle → Runs (following ω quiet) (body current) host middle fun turn after =>
      match turn with
      | .again next => invariant next after
      | .done result => post result after)
    (holds : invariant first state) : Runs (following ω quiet) (loop body first) host state post :=
  .repeatFrom_allowed trivial (fun current middle _ held => pass current middle held) holds

/-! ### Observations -/

theorem applyObservation_follows (observation : ChildObservation) :
    Runs (following ω True) (applyObservation observation) host state fun _ _ => True := by
  refine .reads rfl ?_
  cases found : state.table.records[observation.job]? with
  | none =>
    have move : Move state.table [.observed observation] state.table := .ignored observation found
    exact .of_eq rfl ⟨_, .of_move move, fun _ => rfl⟩ trivial
  | some record =>
    cases observes : record.observe observation with
    | error =>
      simp only [observes]
      exact .throw trivial
    | ok outcome =>
      simp only [observes]
      exact .of_eq rfl ⟨_, .of_move (.observed observation found observes), fun _ => rfl⟩ trivial

theorem receive_follows : Runs (following ω True) receive host state fun _ _ => True := by
  refine runs_same fun answer after _ => ?_
  cases answer with
  | none => exact .throw trivial
  | some observation => exact .bind (applyObservation_follows observation) fun _ _ _ _ => .pure trivial

theorem receiveFrom_follows (job : JobId) (process : ProcessId) :
    Runs (following ω True) (receiveFrom job process) host state fun _ _ => True := by
  refine loop_follows (fun _ _ => True) (fun _ _ _ => ?_) trivial
  refine .bind receive_follows fun observation _ _ _ => ?_
  split
  · exact .pure trivial
  · exact .pure trivial

theorem polled_follows {job : JobId} {record : JobRecord} (assignments : List ObserverAssignment)
    (found : state.table.records[job]? = some record) :
    Runs (following ω True)
      (modifyTable fun table => table.withRecord job { record with inlineAssignments := assignments }) host state
      fun _ _ => True :=
  .of_eq rfl ⟨_, .of_move (.polled assignments found), fun _ => rfl⟩ trivial

theorem waitForInlineTransition_follows (selected : List JobId) :
    Runs (following ω True) (waitForInlineTransition selected) host state fun _ _ => True := by
  refine .reads rfl ?_
  cases first : firstAssignment state.table selected with
  | none => exact .throw trivial
  | some entry =>
    obtain ⟨job, record, assignment, pending⟩ := entry
    refine .bind (polled_follows pending (firstAssignment_found first)) fun _ _ _ _ => ?_
    refine runs_same fun answer asked _ => ?_
    cases answer with
    | none => exact .throw trivial
    | some retained =>
      refine .bind (?_ : Runs (following ω True) (retainAssignment job retained) host asked fun _ _ => True)
        fun _ _ _ _ => receiveFrom_follows job assignment.process
      cases retained with
      | none => exact .pure trivial
      | some =>
        have expected : Runs (following ω True) (expectRecord "the selected record remains session-owned" job) host
            asked fun record after => after.table.records[job]? = some record := by
          refine .reads rfl ?_
          cases found : asked.table.records[job]? with
          | none => exact .throw trivial
          | some => exact .pure found
        exact .bind expected fun record _ _ found => polled_follows _ found

/-! ### Signals -/

/-- A signal is delivered, or the record is quarantined and the failure says so. -/
theorem signalOrQuarantine_run (host : Host ω) {job : JobId} {record : JobRecord} (signal : JobSignal)
    (found : state.table.records[job]? = some record) :
    (∃ world, signalOrQuarantine job signal host state = .ok [] ⟨state.table, world⟩) ∨
      ∃ message world, signalOrQuarantine job signal host state =
        .ok [⟨job, record.command, .signal message⟩] ⟨state.table.withRecord job (record.quarantined message), world⟩ := by
  have reads : (table : JobsM ω BackgroundJobs) host state = .ok state.table state := rfl
  unfold signalOrQuarantine
  rw [ok_bind reads, found]
  simp only
  rcases answered : host.signalProcessGroup record.group signal state.world with ⟨answer, world⟩
  have asks : ask (fun host => host.signalProcessGroup record.group signal) host state =
      .ok answer ⟨state.table, world⟩ := by
    simp [ask, answered]
  rw [ok_bind asks]
  cases answer with
  | ok => exact .inl ⟨world, rfl⟩
  | error error => exact .inr ⟨escapeJobLabel error.message, world, rfl⟩

/-- What is left to signal is not touched by the signal to another job. -/
theorem others_untouched {table : BackgroundJobs} {job : JobId} {jobs : List JobId} {changed : JobRecord}
    {holds : JobRecord → Bool} (absent : job ∉ jobs)
    (every : ∀ other ∈ jobs, ∃ record, table.records[other]? = some record ∧ holds record = true) :
    ∀ other ∈ jobs, ∃ record, (table.withRecord job changed).records[other]? = some record ∧ holds record = true := by
  intro other listed
  obtain ⟨record, found, held⟩ := every other listed
  refine ⟨record, ?_, held⟩
  rw [BackgroundJobs.getElem?_withRecord, if_neg, found]
  rintro rfl
  exact absent listed

/-- The jobs of a table whose records are of some kind, each once. -/
theorem filtered_jobs (table : BackgroundJobs) (holds : JobRecord → Bool) :
    ((table.records.toList.filter fun entry => holds entry.2).map Prod.fst).Nodup ∧
      ∀ job ∈ (table.records.toList.filter fun entry => holds entry.2).map Prod.fst,
        ∃ record, table.records[job]? = some record ∧ holds record = true := by
  constructor
  · refine .sublist (.map Prod.fst filter_sublist) ?_
    rw [List.Nodup, pairwise_map]
    refine (Std.ExtTreeMap.distinct_keys_toList (t := table.records)).imp ?_
    intro first second differ same
    rw [same] at differ
    exact differ Std.ReflCmp.compare_self
  · intro job listed
    obtain ⟨⟨_, record⟩, kept, rfl⟩ := mem_map.mp listed
    obtain ⟨entry, held⟩ := mem_filter.mp kept
    exact ⟨record, Std.ExtTreeMap.mem_toList_iff_getElem?_eq_some.mp entry, held⟩

theorem resumeJobs_follows (jobs : List JobId) (distinct : jobs.Nodup)
    (every : ∀ job ∈ jobs, ∃ record, state.table.records[job]? = some record ∧ record.awaitsResume = true) :
    Runs (following ω False) (resumeJobs jobs) host state (Reports state.table) := by
  induction jobs generalizing state with
  | nil => exact .pure .nil
  | cons job jobs ih =>
    obtain ⟨record, found, awaits⟩ := every job mem_cons_self
    obtain ⟨absent, distinctRest⟩ := nodup_cons.mp distinct
    let asked : Surroundings ω := { state with table := state.table.withRecord job record.requested }
    have requests : requestResume job host state = .ok () asked := by
      have reads : (table : JobsM ω BackgroundJobs) host state = .ok state.table state := rfl
      unfold requestResume
      rw [ok_bind reads, found]
      rfl
    have foundAsked : asked.table.records[job]? = some record.requested := by
      rw [BackgroundJobs.getElem?_withRecord, if_pos rfl]
    have everyAsked : ∀ other ∈ jobs, ∃ record, asked.table.records[other]? = some record ∧ record.awaitsResume = true :=
      others_untouched absent fun other listed => every other (mem_cons_of_mem _ listed)
    refine .steps asked requests (fun _ => trivial) ?_
    rcases signalOrQuarantine_run host .continue_ foundAsked with ⟨world, run⟩ | ⟨message, world, run⟩
    · have first : Reports state.table [] (⟨asked.table, world⟩ : Surroundings ω) :=
        ⟨_, .of_move (.resumed found awaits), rfl, rfl⟩
      refine .steps _ run (fun _ => trivial) (.of_runs first.later ?_)
      exact .bind (ih distinctRest everyAsked) fun _ _ _ rest => .pure (first.append rest)
    · have first : Reports state.table [⟨job, record.command, .signal message⟩]
          (⟨asked.table.withRecord job (record.requested.quarantined message), world⟩ : Surroundings ω) :=
        ⟨_, .of_move (.resumeRefused message found awaits), rfl, rfl⟩
      refine .steps _ run (fun _ => trivial) (.of_runs first.later ?_)
      exact .bind (ih distinctRest (others_untouched absent everyAsked)) fun _ _ _ rest => .pure (first.append rest)

theorem resumeStopped_follows : Runs (following ω False) resumeStopped host state (Reports state.table) := by
  obtain ⟨distinct, every⟩ := filtered_jobs state.table JobRecord.awaitsResume
  exact .reads rfl (resumeJobs_follows _ distinct every)

theorem hangUpJobs_follows (jobs : List LiveJob) (distinct : (jobs.map LiveJob.job).Nodup)
    (every : ∀ job ∈ jobs.map LiveJob.job, ∃ record, state.table.records[job]? = some record ∧ record.isLive = true) :
    Runs (following ω False) (hangUpJobs jobs) host state (Reports state.table) := by
  induction jobs generalizing state with
  | nil => exact Runs.pure Reports.nil
  | cons live _ ih =>
    obtain ⟨record, found, isLive⟩ := every live.job mem_cons_self
    obtain ⟨absent, distinctRest⟩ := nodup_cons.mp distinct
    have everyRest := fun other listed => every other (mem_cons_of_mem _ listed)
    rcases signalOrQuarantine_run host .hangup found with ⟨world, run⟩ | ⟨message, world, run⟩
    · have first : Reports state.table [] (⟨state.table, world⟩ : Surroundings ω) :=
        ⟨_, .of_move (.hungUp found isLive), rfl, rfl⟩
      refine Ends.steps _ run (fun _ => trivial) (Ends.of_runs first.later ?_)
      exact Runs.bind (ih distinctRest everyRest) fun _ _ _ rest => Runs.pure (first.append rest)
    · have first : Reports state.table [⟨live.job, record.command, .signal message⟩]
          (⟨state.table.withRecord live.job (record.quarantined message), world⟩ : Surroundings ω) :=
        ⟨_, .of_move (.hangUpRefused message found isLive), rfl, rfl⟩
      refine Ends.steps _ run (fun _ => trivial) (Ends.of_runs first.later ?_)
      exact Runs.bind (ih distinctRest (others_untouched absent everyRest))
        fun _ _ _ rest => Runs.pure (first.append rest)

/-! ### Whole waits -/

/-- What a wait reports: the refusals on the way, and what the table it leaves adds to them. -/
def Waits (start : BackgroundJobs) (report : List BackgroundFailure) (after : Surroundings ω) : Prop :=
  ∃ failures, Reports start failures after ∧ report = collectFailures after.table failures

theorem waitForQuiescence_follows :
    Runs (following ω False) waitForQuiescence host state (Waits state.table) := by
  refine .bind resumeStopped_follows fun failures resumed _ reports => ?_
  refine .bind (?_ : Runs (following ω False) _ host resumed (Reports state.table)) fun failures _ _ reports =>
    .reads rfl (.pure ⟨failures, reports, rfl⟩)
  refine loop_follows (Reports state.table) (fun failures current reports => ?_) reports
  refine .reads rfl ?_
  split
  · exact .pure reports
  refine .reads rfl ?_
  split
  · refine .reads rfl ?_
    refine .bind (runs_following (waitForInlineTransition_follows _).observed) fun outcome after _ seen => ?_
    have reports := reports.quiet seen.1
    cases outcome with
    | ok => exact .bind resumeStopped_follows fun _ _ _ more => .pure (reports.append more)
    | error error =>
      cases error with
      | command => exact .pure reports
      | notice | runtime | panicked | waiting => exact .throw trivial
  · refine .bind (runs_following receive_follows) fun _ _ _ seen => ?_
    have reports := reports.quiet seen.1
    exact .bind resumeStopped_follows fun _ _ _ more => .pure (reports.append more)

/-- What a hang-up reports: all of that, sorted. -/
def HangsUp (start : BackgroundJobs) (report : List BackgroundFailure) (after : Surroundings ω) : Prop :=
  ∃ refused failures, Reports start (refused ++ failures) after ∧
    report = dedupByJob ((refused ++ collectFailures after.table failures).mergeSort
      fun first second => first.job.value ≤ second.job.value)

theorem hangUpAll_follows : Runs (following ω False) hangUpAll host state (HangsUp state.table) := by
  refine .bind resumeStopped_follows fun resumed middle _ reports => .reads rfl ?_
  have jobs : middle.table.liveJobs.map LiveJob.job =
      (middle.table.records.toList.filter fun entry => entry.2.isLive).map Prod.fst := by
    unfold BackgroundJobs.liveJobs
    rw [map_map]
    rfl
  obtain ⟨distinct, every⟩ := filtered_jobs middle.table JobRecord.isLive
  rw [← jobs] at distinct every
  refine .bind (hangUpJobs_follows _ distinct every) fun hungUp _ _ more => ?_
  have reports := reports.append more
  refine .bind waitForQuiescence_follows fun waited after _ ⟨failures, more, collected⟩ => ?_
  refine .pure ⟨resumed ++ hungUp, failures, reports.append more, ?_⟩
  rw [collected]

end Programs

end Background

end Opaal.Runtime
