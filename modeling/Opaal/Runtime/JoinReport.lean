import Opaal.Runtime.BackgroundRuns
import Opaal.Runtime.ShutdownTrace

/-!
# The report of a session that ends

A canonical report has one entry for each job that failed, in the order of their identities.
A hang-up sorts what it reports.  A join reports the refused signals first, as they happened,
so that its report is canonical exactly when they happened in order and before all others.
-/

namespace Opaal.Runtime.Background

open Opaal.Machine List

section Session

variable {ω : Type}

/-- Resumes, waits for and drains every job of a session; one without a table has none. -/
def joinBackgroundJobs : JobsM ω (List BackgroundFailure) := do
  let failures ← waitForQuiescence
  drainNotices
  return failures

/-- Resumes, hangs up, waits for and drains every job of a session. -/
def hangUpBackgroundJobs : JobsM ω (List BackgroundFailure) := do
  let failures ← hangUpAll
  drainNotices
  return failures

end Session

/-! ## Canonical reports -/

/-- Ended with a code that is missing or not zero, or not observed to the end. -/
def Failed (record : JobRecord) : Prop :=
  record.observationFailed = true ∨ ∃ status, record.completion = some status ∧ status.code ≠ some 0

/-- The jobs to report: those that refused a signal, and those whose records failed. -/
def Failing (events : List Event) (table : BackgroundJobs) (job : JobId) : Prop :=
  job ∈ refusals events ∨ ∃ record, table.records[job]? = some record ∧ Failed record

def Before (first second : JobId) : Prop := first.value.toNat < second.value.toNat

structure Canonical (events : List Event) (table : BackgroundJobs) (report : List BackgroundFailure) : Prop where
  ordered : (report.map BackgroundFailure.job).Pairwise Before
  exact : ∀ job, job ∈ report.map BackgroundFailure.job ↔ Failing events table job

/-- Signals are refused in the order of the jobs, and by jobs before all others that fail. -/
def RefusedInOrder (events : List Event) (table : BackgroundJobs) : Prop :=
  (refusals events).Pairwise Before ∧
    ∀ job ∈ refusals events, ∀ other, Failing events table other → other ∉ refusals events → Before job other

section Collecting

variable {table : BackgroundJobs} {failures : List BackgroundFailure} {events : List Event}

theorem failureReason_isSome {record : JobRecord} : (failureReason record).isSome = true ↔ Failed record := by
  unfold failureReason Failed
  cases record.observationFailed with
  | true => simp
  | false =>
    cases record.completion with
    | none => simp
    | some status =>
      by_cases zero : status.code = some 0
      · simp [zero]
      · simp [zero]

theorem failureReason_kind {record : JobRecord} {reason : BackgroundFailureReason}
    (found : failureReason record = some reason) :
    (∃ message, reason = .observation message) ∨ ∃ status, reason = .exited status := by
  unfold failureReason at found
  split at found
  · cases found
    exact .inl ⟨_, rfl⟩
  split at found
  · split at found
    · cases found
      exact .inr ⟨_, rfl⟩
    · contradiction
  · contradiction

/-- The entry of a record that failed and is not reported yet. -/
def collected (failures : List BackgroundFailure) (entry : JobId × JobRecord) : Option BackgroundFailure :=
  if failures.any fun failure => failure.job = entry.1 then none
  else (failureReason entry.2).map fun reason => ⟨entry.1, entry.2.command, reason⟩

theorem foldl_collected (entries : List (JobId × JobRecord)) (distinct : (entries.map Prod.fst).Nodup) :
    entries.foldl (fun failures (job, record) =>
      if failures.any fun failure => failure.job = job then failures
      else
        match failureReason record with
        | some reason => failures ++ [⟨job, record.command, reason⟩]
        | none => failures) failures = failures ++ entries.filterMap (collected failures) := by
  induction entries generalizing failures with
  | nil => rw [foldl_nil, filterMap_nil, append_nil]
  | cons entry _ ih =>
    obtain ⟨job, record⟩ := entry
    obtain ⟨absent, distinctRest⟩ := nodup_cons.mp distinct
    rw [foldl_cons, filterMap_cons]
    by_cases reported : (failures.any fun failure => failure.job = job) = true
    · simp only [collected, reported, if_true]
      exact ih distinctRest
    cases reason : failureReason record with
    | none =>
      simp only [collected, reported, reason, Option.map_none]
      exact ih distinctRest
    | some reason =>
      simp only [collected, reported, reason, Option.map_some, Bool.false_eq_true, if_false]
      rw [ih distinctRest, append_assoc, singleton_append]
      refine congrArg (fun rest => failures ++ _ :: rest) (filterMap_congr fun entry listed => ?_)
      have other : job ≠ entry.1 := by
        rintro rfl
        exact absent (mem_map.mpr ⟨entry, listed, rfl⟩)
      simp [collected, other]

theorem collectFailures_eq (table : BackgroundJobs) (failures : List BackgroundFailure) :
    collectFailures table failures = failures ++ table.records.toList.filterMap (collected failures) := by
  refine foldl_collected _ ?_
  have distinct := (filtered_jobs table fun _ => true).1
  rw [filter_true] at distinct
  exact distinct

theorem collected_some {entry : JobId × JobRecord} {failure : BackgroundFailure}
    (added : collected failures entry = some failure) :
    failure.job = entry.1 ∧ (∀ other ∈ failures, other.job ≠ entry.1) ∧ Failed entry.2 ∧ isRefusal failure = false := by
  unfold collected at added
  split at added
  · contradiction
  next fresh =>
  obtain ⟨_, found, rfl⟩ := Option.map_eq_some_iff.mp added
  refine ⟨rfl, ?_, failureReason_isSome.mp (by rw [found]; rfl), ?_⟩
  · intro other listed same
    exact fresh (any_eq_true.mpr ⟨other, listed, by simp [same]⟩)
  · rcases failureReason_kind found with ⟨_, rfl⟩ | ⟨_, rfl⟩
    · rfl
    · rfl

theorem ordered_collected (table : BackgroundJobs) (failures : List BackgroundFailure) :
    ((table.records.toList.filterMap (collected failures)).map BackgroundFailure.job).Pairwise Before := by
  rw [pairwise_map, pairwise_filterMap]
  refine (Std.ExtTreeMap.ordered_keys_toList (t := table.records)).imp ?_
  intro first second less one added other added'
  rw [(collected_some added).1, (collected_some added').1]
  exact Nat.compare_eq_lt.mp less

theorem mem_collected (table : BackgroundJobs) (failures : List BackgroundFailure) (job : JobId) :
    job ∈ (table.records.toList.filterMap (collected failures)).map BackgroundFailure.job ↔
      (∃ record, table.records[job]? = some record ∧ Failed record) ∧ job ∉ failures.map BackgroundFailure.job := by
  rw [mem_map]
  constructor
  · rintro ⟨failure, listed, rfl⟩
    obtain ⟨⟨job, record⟩, entry, added⟩ := mem_filterMap.mp listed
    obtain ⟨same, fresh, failed, _⟩ := collected_some added
    rw [same]
    refine ⟨⟨record, Std.ExtTreeMap.mem_toList_iff_getElem?_eq_some.mp entry, failed⟩, ?_⟩
    intro reported
    obtain ⟨other, listed, equal⟩ := mem_map.mp reported
    exact fresh other listed equal
  · rintro ⟨⟨record, found, failed⟩, fresh⟩
    obtain ⟨reason, reasoned⟩ := Option.isSome_iff_exists.mp (failureReason_isSome.mpr failed)
    have unreported : ¬ (failures.any fun failure => failure.job = job) = true := by
      intro reported
      obtain ⟨other, listed, same⟩ := any_eq_true.mp reported
      exact fresh (mem_map.mpr ⟨other, listed, of_decide_eq_true same⟩)
    refine ⟨⟨job, record.command, reason⟩, mem_filterMap.mpr ⟨(job, record),
      Std.ExtTreeMap.mem_toList_iff_getElem?_eq_some.mpr found, ?_⟩, rfl⟩
    simp [collected, unreported, reasoned]

theorem mem_collectFailures (table : BackgroundJobs) (failures : List BackgroundFailure) (job : JobId) :
    job ∈ (collectFailures table failures).map BackgroundFailure.job ↔
      job ∈ failures.map BackgroundFailure.job ∨ ∃ record, table.records[job]? = some record ∧ Failed record := by
  rw [collectFailures_eq, map_append, mem_append, mem_collected]
  constructor
  · rintro (refused | ⟨failed, _⟩)
    · exact .inl refused
    · exact .inr failed
  · rintro (refused | failed)
    · exact .inl refused
    · by_cases refused : job ∈ failures.map BackgroundFailure.job
      · exact .inl refused
      · exact .inr ⟨failed, refused⟩

theorem collectFailures_canonical_iff (reports : failures.map BackgroundFailure.job = refusals events) :
    Canonical events table (collectFailures table failures) ↔ RefusedInOrder events table := by
  have sorted : ((collectFailures table failures).map BackgroundFailure.job).Pairwise Before ↔
      RefusedInOrder events table := by
    rw [collectFailures_eq, map_append, pairwise_append, reports]
    constructor
    · rintro ⟨refused, _, before⟩
      refine ⟨refused, fun job listed other failing fresh => before job listed other ?_⟩
      rw [mem_collected, reports]
      rcases failing with refused | failed
      · exact absurd refused fresh
      · exact ⟨failed, fresh⟩
    · rintro ⟨refused, before⟩
      refine ⟨refused, ordered_collected table failures, fun job listed other late => ?_⟩
      rw [mem_collected, reports] at late
      exact before job listed other (.inr late.1) late.2
  constructor
  · intro canonical
    exact sorted.mp canonical.ordered
  · intro inOrder
    refine ⟨sorted.mpr inOrder, fun job => ?_⟩
    rw [mem_collectFailures, reports]
    rfl

/-- The refusals are told from what is added by their reasons. -/
theorem refusals_collectFailures (refused : failures.all isRefusal = true) :
    (collectFailures table failures).filter isRefusal = failures := by
  rw [collectFailures_eq, filter_append, filter_eq_self.mpr (all_eq_true.mp refused),
    filter_eq_nil_iff.mpr, append_nil]
  intro failure listed
  obtain ⟨_, _, added⟩ := mem_filterMap.mp listed
  rw [(collected_some added).2.2.2]
  exact Bool.false_ne_true

/-! ## Sorted reports -/

variable (report : List BackgroundFailure)

theorem mem_dedupByJob (job : JobId) :
    job ∈ (dedupByJob report).map BackgroundFailure.job ↔ job ∈ report.map BackgroundFailure.job := by
  induction report with
  | nil => rfl
  | cons _ _ ih =>
    rw [map_cons, mem_cons, ← ih, dedupByJob]
    split
    · next empty => rw [empty]; simp
    · next next rest found =>
      rw [found]
      split
      · next same => simp [same]
      · simp

/-- What is sorted has no job twice once neighbours differ. -/
theorem ordered_dedupByJob (sorted : report.Pairwise fun first second => first.job.value.toNat ≤ second.job.value.toNat) :
    ((dedupByJob report).map BackgroundFailure.job).Pairwise Before := by
  induction report with
  | nil => exact List.Pairwise.nil
  | cons failure report ih =>
    obtain ⟨least, sortedRest⟩ := pairwise_cons.mp sorted
    have ordered := ih sortedRest
    have above : ∀ job ∈ (dedupByJob report).map BackgroundFailure.job,
        failure.job.value.toNat ≤ job.value.toNat := by
      intro job listed
      obtain ⟨other, member, rfl⟩ := mem_map.mp ((mem_dedupByJob report job).mp listed)
      exact least other member
    rw [dedupByJob]
    split
    · exact pairwise_singleton _ _
    · next next rest found =>
      rw [found, map_cons] at ordered above
      obtain ⟨first, later⟩ := pairwise_cons.mp ordered
      split
      · next same =>
        rw [map_cons, same]
        exact ordered
      · next differ =>
        refine pairwise_cons.mpr ⟨?_, ordered⟩
        have less : Before failure.job next.job :=
          Nat.lt_of_le_of_ne (above next.job mem_cons_self)
            fun same => differ (JobId.ext (UInt64.toNat_inj.mp same))
        intro job listed
        rcases mem_cons.mp listed with rfl | later
        · exact less
        · exact Nat.lt_trans less (first job later)

theorem sorted_canonical {report : List BackgroundFailure}
    (exact' : ∀ job, job ∈ report.map BackgroundFailure.job ↔ Failing events table job) :
    Canonical events table
      (dedupByJob (report.mergeSort fun first second => first.job.value ≤ second.job.value)) where
  ordered := by
    refine ordered_dedupByJob _ ?_
    refine (pairwise_mergeSort ?_ ?_ report).imp fun less => UInt64.le_iff_toNat_le.mp (of_decide_eq_true less)
    · intro first second third one two
      simp only [decide_eq_true_eq, UInt64.le_iff_toNat_le] at one two ⊢
      omega
    · intro first second
      simp only [Bool.or_eq_true, decide_eq_true_eq, UInt64.le_iff_toNat_le]
      omega
  exact job := by
    rw [mem_dedupByJob, ← exact' job]
    exact ((mergeSort_perm _ _).map _).mem_iff

end Collecting

/-! ## Joins and hang-ups -/

/-- A report that a session returns is what its wait returned before the notices were
drained. -/
theorem drained_ok {ω : Type} {wait : JobsM ω (List BackgroundFailure)} {host : Host ω} {state after : Surroundings ω}
    {report : List BackgroundFailure}
    (returned : (do let failures ← wait; drainNotices; return failures : JobsM ω (List BackgroundFailure)) host state =
      .ok report after) : ∃ ended, wait host state = .ok report ended := by
  cases waited : wait host state with
  | error =>
    rw [error_bind waited] at returned
    cases returned
  | ok _ ended =>
    rw [ok_bind waited] at returned
    cases drained : drainNotices host ended with
    | error =>
      rw [error_bind drained] at returned
      cases returned
    | ok =>
      rw [ok_bind drained] at returned
      cases returned
      exact ⟨ended, rfl⟩

/-- The report of a hang-up is canonical; that of a join is exactly when the signals were
refused in order. -/
theorem background_report_canonical {ω : Type} (host : Host ω) (start : Surroundings ω) :
    (∀ report after, joinBackgroundJobs host start = .ok report after →
      ∃ events ended, Trace anything start.table events ended.table ∧
        waitForQuiescence host start = .ok report ended ∧
        refusals events = (report.filter isRefusal).map BackgroundFailure.job ∧
        (Canonical events ended.table report ↔ RefusedInOrder events ended.table)) ∧
    ∀ report after, hangUpBackgroundJobs host start = .ok report after →
      ∃ events ended, Trace anything start.table events ended.table ∧
        hangUpAll host start = .ok report ended ∧ Canonical events ended.table report := by
  constructor
  · intro report after returned
    obtain ⟨ended, waited⟩ := drained_ok returned
    have follows : Runs (following ω False) waitForQuiescence host start (Waits start.table) :=
      waitForQuiescence_follows
    have outcome := follows trivial
    rw [waited] at outcome
    obtain ⟨failures, ⟨events, trace, reports, refused⟩, rfl⟩ := outcome.2
    refine ⟨events, ended, trace, waited, ?_, collectFailures_canonical_iff reports⟩
    rw [refusals_collectFailures refused, reports]
  · intro report after returned
    obtain ⟨ended, hungUp⟩ := drained_ok returned
    have follows : Runs (following ω False) hangUpAll host start (HangsUp start.table) := hangUpAll_follows
    have outcome := follows trivial
    rw [hungUp] at outcome
    obtain ⟨_, _, ⟨events, trace, reports, _⟩, rfl⟩ := outcome.2
    refine ⟨events, ended, trace, hungUp, sorted_canonical fun job => ?_⟩
    rw [map_append, mem_append, mem_collectFailures, ← or_assoc, ← mem_append, ← map_append, reports]
    rfl

/-! ## A join that reports a later job first -/

def secondJob : JobId := ⟨2, by decide⟩

/-- Two jobs, of which the first has ended badly and the second has stopped. -/
def endedAndStopped : BackgroundJobs :=
  left (perform .applyPendingObservations scripted ⟨left (perform (.start ⟨1, false⟩ "sleep 60") scripted ⟨startedTable, []⟩),
    [.completed firstJob firstProcess (.exited 1) ⟨1⟩, .stopped secondJob firstProcess 19]⟩)

/-- A host whose process groups cannot be signalled. -/
def refusing : Host (List ChildObservation) :=
  { scripted with
    patience := 8
    signalProcessGroup := fun _ _ world => (.error ⟨"no such group"⟩, world) }

def reported {ω : Type} : EStateM.Result BackgroundError (Surroundings ω) (List BackgroundFailure) → List JobId
  | .ok report _ => report.map BackgroundFailure.job
  | .error _ _ => []

/-- The second job refuses its continuation, and is reported before the first. -/
theorem join_report_unordered :
    Reachable endedAndStopped ∧
      reported (joinBackgroundJobs refusing ⟨endedAndStopped, []⟩) = [secondJob, firstJob] ∧
      ¬ [secondJob, firstJob].Pairwise Before := by
  refine ⟨⟨true, .step (.step (.step (.refl _) (.perform scripted [])) (.perform scripted [])) (.perform scripted _)⟩, ?_, ?_⟩
  · decide +kernel
  · simp [Before, firstJob, secondJob]

end Opaal.Runtime.Background
