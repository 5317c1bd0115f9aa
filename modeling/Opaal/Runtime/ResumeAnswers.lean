import Opaal.Machine.Stateful
import Opaal.Runtime.BackgroundRuns
import Opaal.Runtime.ShutdownTrace

/-!
# Stops that a resume has answered

While a session ends, a stopped job whose record says that a resume was requested should have
been continued after the last stop of any of its members.  It has, as long as no member of such
a job is seen to stop again: the job is stopped already then, and the record is not told.
-/

namespace Opaal.Runtime

open Opaal.Machine List
open BackgroundJobs

/-! ## What an observation leaves of a record -/

namespace JobRecord

variable {record after : JobRecord} {reaction : Reaction}

structure Kept (record after : JobRecord) : Prop where
  group : after.group = record.group
  members : ∀ process, process ∈ after.job.members ↔ process ∈ record.job.members
  live : after.isLive = true → record.isLive = true
  requested : after.resumeRequested = true → record.resumeRequested = true
  stopped : after.isLive = true → after.resumeRequested = true → record.job.state.isStopped = true →
    after.job.state.isStopped = true

theorem Kept.refl (record : JobRecord) : Kept record record where
  group := rfl
  members _ := .rfl
  live live := live
  requested requested := requested
  stopped _ _ stopped := stopped

theorem Coherent.unfinished_of_isLive (coherent : record.Coherent) (live : record.isLive = true) :
    record.job.state ≠ .completed := by
  unfold isLive at live
  rw [Bool.and_eq_true, Option.isNone_iff_eq_none] at live
  exact coherent.unfinished.mp live.1

variable {process : ProcessId}

/-- A record whose job was observed, and whose flag was at most taken back. -/
theorem kept_of_observed {member : JobMemberState} {job : Job}
    (observed : Job.Observed record.job process member job) (group : after.group = record.group)
    (changed : after.job = job) (live : after.isLive = true → record.isLive = true)
    (requested : after.resumeRequested = true → record.resumeRequested = true)
    (stays : after.resumeRequested = true → record.job.state.isStopped = true →
      job.state.isStopped = true ∨ job.state = .completed) (coherent : after.Coherent) : Kept record after where
  group := group
  members other := by rw [changed, observed.mem_iff]
  live := live
  requested := requested
  stopped isLive asked stopped := by
    rw [changed]
    have unfinished := coherent.unfinished_of_isLive isLive
    rw [changed] at unfinished
    exact (stays asked stopped).resolve_right unfinished

theorem observeStopped_kept (coherent : record.Coherent) {signal : Int32}
    (observes : record.observeStopped process signal = .ok (after, reaction)) (coherentAfter : after.Coherent) :
    Kept record after := by
  unfold observeStopped at observes
  rcases Job.observe_settled_effect coherent.consistent coherent.published "observe a stopped process" process
    (rfl : Job.settled (.stopped signal) = true) with ⟨_, run⟩ | ⟨job, run, observed, _, _, stays⟩
  · have attempt : record.job.attempt (Job.observeStopped process signal) = .ok (false, record.job) :=
      attempt_rejected run
    rw [attempt] at observes
    cases observes
    exact .refl record
  · have attempt : record.job.attempt (Job.observeStopped process signal) = .ok (true, job) :=
      attempt_accepted run
    rw [attempt] at observes
    change (if (true && !record.job.state.isStopped && job.state.isStopped) = true then Except.ok _ else Except.ok _) = _
      at observes
    split at observes
    · cases observes
      exact kept_of_observed observed rfl rfl (fun live => live) (fun asked => nomatch asked) (fun asked => nomatch asked)
        coherentAfter
    · cases observes
      exact kept_of_observed observed rfl rfl (fun live => live) (fun asked => asked) (fun _ => stays) coherentAfter

theorem observeContinued_kept (coherent : record.Coherent)
    (observes : record.observeContinued process = .ok (after, reaction)) (coherentAfter : after.Coherent) :
    Kept record after := by
  unfold observeContinued at observes
  rcases Job.observe_continued_effect coherent.consistent coherent.published process with
    ⟨_, run⟩ | ⟨_, run, observed, _⟩
  · rw [attempt_rejected run] at observes
    cases observes
    exact Kept.refl record
  · rw [attempt_accepted run] at observes
    cases observes
    exact kept_of_observed observed rfl rfl (fun live => live) (fun asked => nomatch asked) (fun asked => nomatch asked)
      coherentAfter

theorem complete_some (completes : record.complete = .ok after) :
    ∃ completion, after = { record with completion := some completion } := by
  unfold complete at completes
  split at completes
  · contradiction
  next latest _ =>
  obtain ⟨completion, _, completes⟩ := bind_ok completes
  cases completes
  exact ⟨completion, rfl⟩

theorem observeCompleted_kept (coherent : record.Coherent) {status : ProcessStatus}
    {observedAt : Instant} (observes : record.observeCompleted process status observedAt = .ok (after, reaction))
    (coherentAfter : after.Coherent) : Kept record after := by
  unfold observeCompleted at observes
  cases started : record.memberStarted[process]? with
  | none =>
    simp only [started] at observes
    cases observes
    exact .refl record
  | some startedAt =>
  obtain ⟨ended, translated, _⟩ := languageStatus_leaf status startedAt observedAt
  simp only [started, translated] at observes
  rcases Job.observe_settled_effect coherent.consistent coherent.published "observe a completed process" process
    (rfl : Job.settled (.completed ended) = true) with ⟨error, run⟩ | ⟨job, run, observed, _, _, stays⟩
  · have attempt : record.job.attempt (Job.observeCompleted process ended) = .ok (false, record.job) :=
      attempt_rejected run
    change (record.job.attempt (Job.observeCompleted process ended) >>= _) = _ at observes
    rw [attempt] at observes
    cases observes
    exact .refl record
  have attempt : record.job.attempt (Job.observeCompleted process ended) = .ok (true, job) :=
    attempt_accepted run
  change (record.job.attempt (Job.observeCompleted process ended) >>= _) = _ at observes
  rw [attempt] at observes
  let final := record.withTerminal job process ended observedAt
  change (if job.state = .completed then final.complete >>= fun after => .ok (after, _) else
    if (!record.job.state.isStopped && job.state.isStopped) = true then .ok _ else .ok _) = _ at observes
  split at observes
  · obtain ⟨_, completes, observes⟩ := bind_ok observes
    cases observes
    obtain ⟨_, rfl⟩ := complete_some completes
    exact kept_of_observed observed rfl rfl (fun live => nomatch live) (fun asked => asked) (fun _ => stays)
      coherentAfter
  · split at observes
    all_goals
      cases observes
      exact kept_of_observed observed rfl rfl (fun live => live) (fun asked => asked) (fun _ => stays) coherentAfter

theorem observe_kept (coherent : record.Coherent) {observation : ChildObservation}
    (observes : record.observe observation = .ok (after, reaction)) : Kept record after := by
  obtain ⟨_, _, run, coherentAfter, _⟩ := observe_effect coherent observation
  rw [observes] at run
  cases run
  cases observation with
  | stopped => exact observeStopped_kept coherent observes coherentAfter
  | continued => exact observeContinued_kept coherent observes coherentAfter
  | completed => exact observeCompleted_kept coherent observes coherentAfter
  | failed _ _ error cleanup =>
    change Except.ok (record.observeFailed error cleanup) = _ at observes
    unfold observeFailed at observes
    split at observes
    · cases observes
      exact .refl record
    · cases observes
      exact ⟨rfl, fun _ => .rfl, fun live => absurd live (by simp [isLive]), fun asked => asked,
        fun live => absurd live (by simp [isLive])⟩

/-- A further stop of a stopped job changes nothing but the member. -/
theorem observe_stopped_again {job : JobId} {signal : Int32}
    (observes : record.observe (.stopped job process signal) = .ok (after, reaction))
    (stopped : record.job.state.isStopped = true) :
    after.isLive = record.isLive ∧ after.resumeRequested = record.resumeRequested := by
  change record.observeStopped process signal = _ at observes
  unfold observeStopped at observes
  obtain ⟨⟨accepted, job⟩, _, observes⟩ := bind_ok observes
  rw [stopped] at observes
  change (if (accepted && !true && job.state.isStopped) = true then _ else Except.ok _) = _ at observes
  rw [Bool.not_true, Bool.and_false, Bool.false_and, if_neg Bool.false_ne_true] at observes
  cases observes
  exact ⟨rfl, rfl⟩

end JobRecord

namespace Background

/-! ## Answers -/

/-- A stop of a member of a job. -/
def StopOf (job : JobId) (record : JobRecord) : Event → Prop
  | .observed (.stopped other process _) => other = job ∧ process ∈ record.job.members
  | _ => False

/-- The group of a job was continued after the last stop of any of its members. -/
def Answered (events : List Event) (job : JobId) (record : JobRecord) : Prop :=
  ∃ earlier later, events = earlier ++ .signalled job record.group .continue_ true :: later ∧
    ∀ event ∈ later, ¬ StopOf job record event

/-- Every stop of a live job whose resume was requested is answered. -/
def AllAnswered (events : List Event) (table : BackgroundJobs) : Prop :=
  ∀ (job : JobId) (record : JobRecord), table.records[job]? = some record → record.isLive = true →
    record.job.state.isStopped = true → record.resumeRequested = true → Answered events job record

/-- A stop that is not noticed: that of a member of a stopped job whose resume was requested. -/
def Overlooked (table : BackgroundJobs) : Event → Prop
  | .observed (.stopped job process _) => ∃ record, table.records[job]? = some record ∧ record.isLive = true ∧
      record.job.state.isStopped = true ∧ record.resumeRequested = true ∧ process ∈ record.job.members
  | _ => False

/-- What makes the answers last: a live job whose resume was requested is still stopped. -/
def Attended (events : List Event) (table : BackgroundJobs) : Prop :=
  ∀ (job : JobId) (record : JobRecord), table.records[job]? = some record → record.isLive = true →
    record.resumeRequested = true → record.job.state.isStopped = true ∧ Answered events job record

section Answers

variable {table final : BackgroundJobs} {events happened : List Event} {job : JobId} {record after : JobRecord}

theorem Answered.append (answered : Answered events job record) (quiet : ∀ event ∈ happened, ¬ StopOf job record event) :
    Answered (events ++ happened) job record := by
  obtain ⟨earlier, later, rfl, none⟩ := answered
  refine ⟨earlier, later ++ happened, by rw [append_assoc, cons_append], fun event listed => ?_⟩
  rcases mem_append.mp listed with old | new
  · exact none event old
  · exact quiet event new

theorem stopOf_congr (members : ∀ process, process ∈ after.job.members ↔ process ∈ record.job.members) (event : Event) :
    StopOf job after event ↔ StopOf job record event := by
  unfold StopOf
  split
  · rw [members]
  · rfl

theorem Answered.congr (answered : Answered events job record) (group : after.group = record.group)
    (members : ∀ process, process ∈ after.job.members ↔ process ∈ record.job.members) : Answered events job after := by
  obtain ⟨earlier, later, split, none⟩ := answered
  rw [← group] at split
  exact ⟨earlier, later, split, fun event listed stops => none event listed ((stopOf_congr members event).mp stops)⟩

/-- A stop is not answered as long as nothing follows it. -/
theorem stop_unanswered {event : Event} (stops : StopOf job record event) : ¬ Answered (events ++ [event]) job record := by
  rintro ⟨_, later, split, none⟩
  rcases eq_nil_or_concat later with rfl | ⟨_, _, rfl⟩
  · have same := (append_inj' split rfl).2
    cases same
    exact stops
  · rw [concat_eq_append, ← cons_append, ← append_assoc] at split
    have same := (append_inj' split rfl).2
    cases same
    exact none _ (by rw [concat_eq_append]; exact mem_append_right _ mem_cons_self) stops

theorem getElem?_react (reaction : Reaction) (other : JobId) :
    (table.react job record reaction).records[other]? = if job = other then some record else table.records[other]? := by
  have queued : ∀ (table : BackgroundJobs) (kind : JobNoticeKind) (command : String),
      (table.queueNotice job kind command).records = table.records := by
    intro table kind command
    unfold queueNotice
    split
    · rfl
    · split
      · rfl
      · rfl
  have records : (table.react job record reaction).records = (table.withRecord job record).records := by
    unfold react
    cases reaction.queued with
    | none => cases reaction.clearStoppedNotice <;> rfl
    | some kind =>
      rw [queued]
      cases reaction.clearStoppedNotice <;> rfl
  rw [records, getElem?_withRecord]

theorem replaced (invariant : table.Invariant) (found : table.records[job]? = some record)
    (coherent : record.Coherent → after.Coherent) (same : after.job = record.job) :
    (table.withRecord job after).Invariant :=
  invariant.same_job found (coherent (invariant.coherent job record found)) same

theorem move_invariant (move : Move table happened final) (invariant : table.Invariant) : final.Invariant := by
  cases move with
  | ignored | hungUp => exact invariant
  | observed observation found observes =>
    obtain ⟨_, _, run, coherent, effect⟩ :=
      JobRecord.observe_effect (invariant.coherent _ _ found) observation
    rw [observes] at run
    cases run
    exact BackgroundJobs.react_invariant invariant found coherent effect
  | resumed found => exact replaced invariant found (fun coherent => coherent) rfl
  | @resumeRefused job record _ found =>
    have asked : (table.withRecord job record.requested).Invariant :=
      replaced invariant found (fun coherent => coherent) rfl
    have here : (table.withRecord job record.requested).records[job]? = some record.requested := by
      rw [getElem?_withRecord, if_pos rfl]
    exact replaced asked here (fun coherent => coherent) rfl
  | hangUpRefused _ found | polled _ found => exact replaced invariant found (fun coherent => coherent) rfl

theorem trace_invariant {allowed : BackgroundJobs → Event → Prop} {start : BackgroundJobs}
    (trace : Trace allowed start events table) (invariant : start.Invariant) : table.Invariant := by
  induction trace with
  | refl => exact invariant
  | step _ _ move ih => exact move_invariant move ih

/-- One changed record, in a table whose others were attended to. -/
theorem Attended.changed (attended : Attended events table)
    (records : ∀ other : JobId, final.records[other]? = if job = other then some after else table.records[other]?)
    (quiet : ∀ event ∈ happened, ∀ other record, table.records[other]? = some record → other ≠ job →
      ¬ StopOf other record event)
    (here : after.isLive = true → after.resumeRequested = true →
      after.job.state.isStopped = true ∧ Answered (events ++ happened) job after) :
    Attended (events ++ happened) final := by
  intro other record found live asked
  rw [records] at found
  split at found
  · next same =>
    subst same
    cases found
    exact here live asked
  · next differs =>
    obtain ⟨stopped, answered⟩ := attended other record found live asked
    exact ⟨stopped, answered.append fun event listed => quiet event listed other record found (Ne.symm differs)⟩

/-- What happens to one job is no stop of another. -/
theorem signal_no_stop {other : JobId} {group : ProcessGroupId} {signal : JobSignal} {delivered : Bool} :
    ∀ event ∈ [Event.signalled other group signal delivered], ¬ StopOf job record event := by
  intro event listed stops
  rw [mem_singleton.mp listed] at stops
  exact stops

theorem observed_no_stop {observation : ChildObservation} (other : observation.job ≠ job) :
    ∀ event ∈ [Event.observed observation], ¬ StopOf job record event := by
  intro event listed stops
  rw [mem_singleton.mp listed] at stops
  cases observation with
  | stopped => exact other stops.1
  | continued | completed | failed => exact stops

/-- What happens keeps the answers, unless a stop is overlooked. -/
theorem move_attended (move : Move table happened final) (invariant : table.Invariant)
    (heeded : ∀ event ∈ happened, ¬ Overlooked table event) (attended : Attended events table) :
    Attended (events ++ happened) final := by
  cases move with
  | ignored observation unknown =>
    intro other record found live asked
    obtain ⟨stopped, answered⟩ := attended other record found live asked
    refine ⟨stopped, answered.append (observed_no_stop ?_)⟩
    rintro rfl
    rw [unknown] at found
    contradiction
  | @observed record _ _ observation found observes =>
    have kept := JobRecord.observe_kept (invariant.coherent _ _ found) observes
    refine attended.changed (getElem?_react _) (fun event listed other _ _ differs =>
      observed_no_stop (Ne.symm differs) event listed) fun live asked => ?_
    have liveBefore := kept.live live
    have askedBefore := kept.requested asked
    obtain ⟨stopped, answered⟩ := attended _ record found liveBefore askedBefore
    refine ⟨kept.stopped live asked stopped, (answered.congr kept.group kept.members).append fun event listed stops => ?_⟩
    have same := mem_singleton.mp listed
    refine heeded event listed ?_
    subst same
    cases observation with
    | stopped _ process =>
      exact ⟨record, found, liveBefore, stopped, askedBefore, (kept.members process).mp stops.2⟩
    | continued | completed | failed => exact stops
  | @resumed _ _ _ awaits =>
    refine attended.changed getElem?_withRecord
      (fun event listed _ _ _ _ => signal_no_stop event listed) fun _ _ => ?_
    unfold JobRecord.awaitsResume at awaits
    rw [Bool.and_eq_true] at awaits
    exact ⟨awaits.2, events, [], rfl, fun _ listed => nomatch listed⟩
  | @resumeRefused job record message =>
    have ended : (record.requested.quarantined message).isLive = false := by
      simp [JobRecord.isLive, JobRecord.quarantined]
    have records : ∀ other : JobId, ((table.withRecord job record.requested).withRecord job
        (record.requested.quarantined message)).records[other]? =
        if job = other then some (record.requested.quarantined message) else table.records[other]? := by
      intro other
      rw [getElem?_withRecord, getElem?_withRecord]
      split
      · rfl
      · rfl
    exact attended.changed records (fun event listed _ _ _ _ => signal_no_stop event listed)
      fun live => absurd live (ne_true_of_eq_false ended)
  | hungUp found live =>
    intro other record found live asked
    obtain ⟨stopped, answered⟩ := attended other record found live asked
    exact ⟨stopped, answered.append signal_no_stop⟩
  | hangUpRefused _ _ live =>
    exact attended.changed getElem?_withRecord (fun event listed _ _ _ _ => signal_no_stop event listed)
      fun live => absurd live (by simp [JobRecord.isLive, JobRecord.quarantined])
  | polled _ found =>
    refine attended.changed getElem?_withRecord (fun event listed => nomatch listed) fun live asked => ?_
    rw [append_nil]
    obtain ⟨stopped, answered⟩ := attended _ _ found live asked
    exact ⟨stopped, answered⟩

/-- An overlooked stop is one that no continuation answers. -/
theorem overlooked_unanswered {event : Event} (move : Move table [event] final) (invariant : table.Invariant)
    (overlooked : Overlooked table event) : ¬ AllAnswered (events ++ [event]) final := by
  cases event with
  | signalled job group signal delivered => exact overlooked.elim
  | observed observation =>
  cases observation with
  | continued target process => exact overlooked.elim
  | completed target process status observedAt => exact overlooked.elim
  | failed target process error cleanup => exact overlooked.elim
  | stopped target process signal =>
  obtain ⟨record, found, live, stopped, asked, member⟩ := overlooked
  cases move with
  | ignored observation unknown =>
    change table.records[target]? = none at unknown
    rw [unknown] at found
    contradiction
  | @observed stored after reaction observation present observes =>
    change table.records[target]? = some stored at present
    rw [found] at present
    cases present
    have kept := JobRecord.observe_kept (invariant.coherent _ _ found) observes
    obtain ⟨liveAfter, askedAfter⟩ := JobRecord.observe_stopped_again observes stopped
    rw [live] at liveAfter
    rw [asked] at askedAfter
    intro answered
    have here : (table.react target after reaction).records[target]? = some after := by
      rw [getElem?_react, if_pos rfl]
    have stops : StopOf target after (.observed (.stopped target process signal)) := ⟨rfl, (kept.members process).mpr member⟩
    exact stop_unanswered stops (answered target after here liveAfter (kept.stopped liveAfter askedAfter stopped) askedAfter)

theorem attended_trace {start : BackgroundJobs} (trace : Trace (fun table event => ¬ Overlooked table event) start events table)
    (invariant : start.Invariant) (attended : Attended [] start) : Attended events table := by
  induction trace with
  | refl => exact attended
  | step trace heeded move ih => exact move_attended move (trace_invariant trace invariant) heeded ih

end Answers

/-- What a program that only makes moves leaves is reached by a trace. -/
theorem left_traced {ω α : Type} {program : JobsM ω α} (host : Host ω) (start : Surroundings ω)
    {post : α → Surroundings ω → Prop} (runs : Runs (following ω False) program host start post) :
    ∃ events, Trace anything start.table events (left (program host start)) := by
  have outcome := runs trivial
  cases result : program host start with
  | ok | error =>
    rw [result] at outcome
    obtain ⟨⟨events, trace, _⟩, _⟩ := outcome
    exact ⟨events, trace⟩

/-- From a table none of whose live jobs was asked to resume, every stop stays answered as
long as none is overlooked, and not for a moment longer. -/
theorem stops_answered {start : BackgroundJobs} (reachable : Reachable start)
    (unasked : ∀ (job : JobId) (record : JobRecord), start.records[job]? = some record → record.isLive = true →
      record.resumeRequested = false) :
    (∀ events table, Trace (fun table event => ¬ Overlooked table event) start events table → AllAnswered events table) ∧
    (∀ events table event after, Trace anything start events table → Move table [event] after →
      Overlooked table event → ¬ AllAnswered (events ++ [event]) after) ∧
    ∀ (ω : Type) (host : Host ω) (world : ω),
      (∃ events, Trace anything start events (left (waitForQuiescence host ⟨start, world⟩))) ∧
        ∃ events, Trace anything start events (left (hangUpAll host ⟨start, world⟩)) := by
  have invariant := reachable_invariant reachable
  refine ⟨?_, ?_, fun ω host world => 
    ⟨left_traced host ⟨start, world⟩ waitForQuiescence_follows, left_traced host ⟨start, world⟩ hangUpAll_follows⟩⟩
  · intro events table trace job record found live stopped asked
    have attended : Attended [] start := by
      intro job record found live asked
      rw [unasked job record found live] at asked
      contradiction
    exact (attended_trace trace invariant attended job record found live asked).2
  · intro events table event after trace move overlooked
    exact overlooked_unanswered move (trace_invariant trace invariant) overlooked

/-! ## A stop that is reported twice -/

theorem startedTable_unasked (job : JobId) (record : JobRecord) (found : startedTable.records[job]? = some record)
    (_ : record.isLive = true) : record.resumeRequested = false := by
  have only : startedTable.records = (∅ : Std.ExtTreeMap JobId JobRecord).insert firstJob runningRecord := rfl
  rw [only, Std.ExtTreeMap.getElem?_insert] at found
  split at found
  · cases found
    rfl
  · contradiction

theorem stops_answered_started :
    Reachable startedTable ∧ ∀ events table,
      Trace (fun table event => ¬ Overlooked table event) startedTable events table → AllAnswered events table :=
  ⟨startedTable_runs.1, (stops_answered startedTable_runs.1 startedTable_unasked).1⟩

/-- A stopped job that is resumed and reports a further stop is not resumed again. -/
theorem stop_reported_twice :
    ∃ events table, Reachable startedTable ∧ Trace anything startedTable events table ∧ ¬ AllAnswered events table := by
  let stopped := startedTable.react firstJob stoppedRecord ⟨some .stopped, false⟩
  have stops : Move startedTable [.observed (.stopped firstJob firstProcess 19)] stopped :=
    .observed (.stopped firstJob firstProcess 19) startedTable_runs.2.1 rfl
  have found : stopped.records[firstJob]? = some stoppedRecord := by rw [getElem?_react, if_pos rfl]
  have resumes := Move.resumed found rfl
  let resumed := stopped.withRecord firstJob stoppedRecord.requested
  have foundAgain : resumed.records[firstJob]? = some stoppedRecord.requested := by
    rw [getElem?_withRecord, if_pos rfl]
  have again : Move resumed [.observed (.stopped firstJob firstProcess 19)]
      (resumed.react firstJob stoppedRecord.requested ⟨none, false⟩) :=
    .observed (.stopped firstJob firstProcess 19) foundAgain rfl
  have trace := (Trace.of_move stops).trans (Trace.of_move resumes)
  have invariant := trace_invariant trace (reachable_invariant startedTable_runs.1)
  refine ⟨_, _, startedTable_runs.1, trace.trans (Trace.of_move again), overlooked_unanswered again invariant ?_⟩
  exact ⟨stoppedRecord.requested, foundAgain, rfl, rfl, rfl, by decide⟩


end Background

end Opaal.Runtime
