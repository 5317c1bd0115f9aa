import Opaal.Runtime.Background

/-!
# The invariant of the job table

`Invariant` ties the records, the notices and the two counters together, and `Evolves`
says how a later table may differ from an earlier one.  Both are shown here for the
changes the operations make: one lemma for each.
-/

namespace Opaal.Runtime

open List
open Std.ExtTreeMap (getElem?_erase mem_erase mem_iff_isSome_getElem? mem_insert)

/-- The first identity a counter has not given out. -/
def bound : Option UInt64 → Nat
  | some value => value.toNat
  | none => 2 ^ 64

@[simp]
theorem bound_some (value : UInt64) : bound (some value) = value.toNat := rfl

theorem bound_checkedSucc (value : UInt64) : bound (checkedSucc value) = value.toNat + 1 := by
  have small := value.toNat_lt
  unfold checkedSucc
  split
  · next fits =>
    rw [bound_some, UInt64.toNat_add]
    exact Nat.mod_eq_of_lt fits
  · show 2 ^ 64 = value.toNat + 1
    omega

namespace BackgroundJobs

/-- Whether a notice is about the state of a job. -/
def isStateNotice (job : JobId) (notice : JobNotice) : Bool := notice.job = job && notice.kind.isState

/-- What a pending stopped notice says of a record: that its job has stopped and not been
acknowledged, unless it completed when no notice could be queued any more. -/
def AwaitsStopped (table : BackgroundJobs) (record : JobRecord) : Prop :=
  (record.job.state.isStopped = true ∧ record.job.noticePending = true) ∨
    (table.nextNotice = none ∧ record.job.state = .completed)

/-- What holds of the table between operations. -/
structure Invariant (table : BackgroundJobs) : Prop where
  coherent : ∀ (job : JobId) (record : JobRecord), table.records[job]? = some record → record.Coherent
  issuedJobs : ∀ job, job ∈ table.records → job.value.toNat < bound table.nextJob
  positive : table.nextJob ≠ some 0
  issued : ∀ notice ∈ table.notices, notice.id.value.toNat < bound table.nextNotice
  ordered : table.notices.Pairwise fun earlier later => earlier.id.value.toNat < later.id.value.toNat
  single : ∀ job, table.notices.countP (isStateNotice job) ≤ 1
  stopped : ∀ notice ∈ table.notices, notice.kind = .stopped →
    ∃ record, table.records[notice.job]? = some record ∧ table.AwaitsStopped record
  completed : ∀ notice ∈ table.notices, notice.kind = .completed →
    ∃ record, table.records[notice.job]? = some record ∧ record.job.state = .completed

/-- How a table may follow another: identities are only taken from the counters, and a
record that is gone was allowed to leave. -/
structure Evolves (leaving : JobId → Prop) (before after : BackgroundJobs) : Prop where
  jobs : bound before.nextJob ≤ bound after.nextJob
  notices : bound before.nextNotice ≤ bound after.nextNotice
  newJobs : ∀ job, job ∈ after.records → job ∈ before.records ∨ bound before.nextJob ≤ job.value.toNat
  newNotices : ∀ notice ∈ after.notices, notice ∈ before.notices ∨ bound before.nextNotice ≤ notice.id.value.toNat
  left : ∀ job, job ∈ before.records → job ∉ after.records → leaving job

variable {leaving : JobId → Prop}

theorem Evolves.refl (table : BackgroundJobs) : Evolves leaving table table where
  jobs := Nat.le_refl _
  notices := Nat.le_refl _
  newJobs _ present := .inl present
  newNotices _ present := .inl present
  left _ present missing := absurd present missing

theorem Evolves.trans {first second third : BackgroundJobs} (one : Evolves leaving first second)
    (two : Evolves leaving second third) : Evolves leaving first third where
  jobs := Nat.le_trans one.jobs two.jobs
  notices := Nat.le_trans one.notices two.notices
  newJobs job present := by
    rcases two.newJobs job present with earlier | new
    · exact one.newJobs job earlier
    · exact .inr (Nat.le_trans one.jobs new)
  newNotices notice present := by
    rcases two.newNotices notice present with earlier | new
    · exact one.newNotices notice earlier
    · exact .inr (Nat.le_trans one.notices new)
  left job present missing := by
    by_cases middle : job ∈ second.records
    · exact two.left job middle missing
    · exact one.left job present middle

theorem Evolves.mono {wider : JobId → Prop} {before after : BackgroundJobs} (evolves : Evolves leaving before after)
    (weaken : ∀ job, leaving job → wider job) :
    Evolves wider before after where
  jobs := evolves.jobs
  notices := evolves.notices
  newJobs := evolves.newJobs
  newNotices := evolves.newNotices
  left job present missing := weaken job (evolves.left job present missing)

theorem new_invariant (manageForeground : Bool) : (new manageForeground).Invariant where
  coherent job record found := by simp [new] at found
  issuedJobs job present := by simp [new] at present
  positive := by
    show some (1 : UInt64) ≠ some 0
    decide
  issued notice listed := by simp [new] at listed
  ordered := List.Pairwise.nil
  single job := by simp [new]
  stopped notice listed := by simp [new] at listed
  completed notice listed := by simp [new] at listed

section Changes

variable {table : BackgroundJobs} {job : JobId} {record after : JobRecord}

/-! ## Records -/

theorem getElem?_withRecord (other : JobId) :
    (table.withRecord job record).records[other]? = if job = other then some record else table.records[other]? := by
  unfold withRecord
  rw [Std.ExtTreeMap.getElem?_insert]
  simp

theorem mem_of_found (found : table.records[job]? = some record) : job ∈ table.records := by
  rw [mem_iff_isSome_getElem?, found]
  rfl

theorem found_of_mem (present : job ∈ table.records) : ∃ record, table.records[job]? = some record :=
  Option.isSome_iff_exists.mp (mem_iff_isSome_getElem?.mp present)

theorem mem_withRecord (other : JobId) :
    other ∈ (table.withRecord job record).records ↔ job = other ∨ other ∈ table.records := by
  unfold withRecord
  rw [mem_insert, Std.LawfulEqOrd.compare_eq_iff_eq]

/-- A record replaced by one that still owes its notices. -/
structure Keeps (record after : JobRecord) : Prop where
  stopped : record.job.state.isStopped = true → record.job.noticePending = true →
    after.job.state.isStopped = true ∧ after.job.noticePending = true
  completed : record.job.state = .completed → after.job.state = .completed

theorem Keeps.of_job (same : after.job = record.job) : Keeps record after where
  stopped stopped pending := by rw [same]; exact ⟨stopped, pending⟩
  completed completed := by rw [same]; exact completed

variable {leaving : JobId → Prop} {notices : List JobNotice} {notice : JobNotice} {value : UInt64}
  {kind : JobNoticeKind} {before : BackgroundJobs}

theorem Evolves.withRecord (found : table.records[job]? = some record) :
    Evolves leaving table (table.withRecord job after) where
  jobs := Nat.le_refl _
  notices := Nat.le_refl _
  newJobs other present := by
    rcases (mem_withRecord other).mp present with rfl | listed
    · exact .inl (mem_of_found found)
    · exact .inl listed
  newNotices notice listed := .inl listed
  left other present missing := absurd ((mem_withRecord other).mpr (.inr present)) missing

/-- Fewer notices. -/
theorem Invariant.sublist (invariant : table.Invariant) (fewer : notices.Sublist table.notices) : Invariant { table with notices := notices } where
  coherent := invariant.coherent
  issuedJobs := invariant.issuedJobs
  positive := invariant.positive
  issued notice listed := invariant.issued notice (fewer.subset listed)
  ordered := invariant.ordered.sublist fewer
  single other := Nat.le_trans fewer.countP_le (invariant.single other)
  stopped notice listed := invariant.stopped notice (fewer.subset listed)
  completed notice listed := invariant.completed notice (fewer.subset listed)

theorem Evolves.sublist (fewer : notices.Sublist table.notices) : Evolves leaving table { table with notices := notices } where
  jobs := Nat.le_refl _
  notices := Nat.le_refl _
  newJobs _ present := .inl present
  newNotices _ listed := .inl (fewer.subset listed)
  left _ present missing := absurd present missing

theorem Invariant.retain (invariant : table.Invariant) (keeps : JobNotice → Bool) : (table.retain keeps).Invariant :=
  invariant.sublist filter_sublist

theorem Evolves.retain (keeps : JobNotice → Bool) : Evolves leaving table (table.retain keeps) :=
  Evolves.sublist filter_sublist

section

variable (invariant : table.Invariant)
include invariant

/-- A record replaced in a table whose notices about its state still fit. -/
theorem Invariant.replace (issued : job.value.toNat < bound table.nextJob) (coherent : after.Coherent)
    (stopped : ∀ notice ∈ table.notices, notice.job = job → notice.kind = .stopped → table.AwaitsStopped after)
    (completed : ∀ notice ∈ table.notices, notice.job = job → notice.kind = .completed → after.job.state = .completed) : (table.withRecord job after).Invariant where
  coherent other stored present := by
    rw [getElem?_withRecord] at present
    split at present
    · cases present
      exact coherent
    · exact invariant.coherent other stored present
  issuedJobs other present := by
    rcases (mem_withRecord other).mp present with rfl | listed
    · exact issued
    · exact invariant.issuedJobs other listed
  positive := invariant.positive
  issued := invariant.issued
  ordered := invariant.ordered
  single := invariant.single
  stopped notice listed isStopped := by
    rw [getElem?_withRecord]
    split
    · next same => exact ⟨after, rfl, stopped notice listed same.symm isStopped⟩
    · exact invariant.stopped notice listed isStopped
  completed notice listed isCompleted := by
    rw [getElem?_withRecord]
    split
    · next same => exact ⟨after, rfl, completed notice listed same.symm isCompleted⟩
    · exact invariant.completed notice listed isCompleted

theorem Invariant.replace_silent (issued : job.value.toNat < bound table.nextJob) (coherent : after.Coherent)
    (silent : ∀ notice ∈ table.notices, notice.job = job → notice.kind.isState = false) :
    (table.withRecord job after).Invariant := by
  apply invariant.replace issued coherent
  all_goals
    intro notice listed about kind
    have quiet := silent notice listed about
    rw [kind] at quiet
    contradiction

variable (found : table.records[job]? = some record)
include found

theorem Invariant.within : job.value.toNat < bound table.nextJob := invariant.issuedJobs job (mem_of_found found)

/-- The record a stopped notice is about. -/
theorem Invariant.awaits (listed : notice ∈ table.notices) (about : notice.job = job) (kind : notice.kind = .stopped) :
    table.AwaitsStopped record := by
  obtain ⟨stored, present, awaits⟩ := invariant.stopped notice listed kind
  rw [about, found] at present
  cases present
  exact awaits

/-- The record a completed notice is about. -/
theorem Invariant.ended (listed : notice ∈ table.notices) (about : notice.job = job) (kind : notice.kind = .completed) :
    record.job.state = .completed := by
  obtain ⟨stored, present, completed⟩ := invariant.completed notice listed kind
  rw [about, found] at present
  cases present
  exact completed

theorem Invariant.withRecord (coherent : after.Coherent) (keeps : Keeps record after) : (table.withRecord job after).Invariant := by
  apply invariant.replace (invariant.within found) coherent
  · intro notice listed about kind
    rcases invariant.awaits found listed about kind with ⟨stopped, pending⟩ | ⟨exhausted, completed⟩
    · exact .inl (keeps.stopped stopped pending)
    · exact .inr ⟨exhausted, keeps.completed completed⟩
  · intro notice listed about kind
    exact keeps.completed (invariant.ended found listed about kind)

/-- A change that leaves the job of a record alone. -/
theorem Invariant.same_job (coherent : after.Coherent) (same : after.job = record.job) : (table.withRecord job after).Invariant :=
  invariant.withRecord found coherent (Keeps.of_job same)

/-- A record whose job runs again, with its stopped notice cleared. -/
theorem Invariant.resumed (coherent : after.Coherent) (live : record.job.state ≠ .completed) :
    ((table.withRecord job after).clearStopped job).Invariant := by
  have cleared : (table.clearStopped job).Invariant := invariant.retain _
  have replaced : ((table.clearStopped job).withRecord job after).Invariant := by
    apply cleared.replace (cleared.within found) coherent
    · intro notice listed about kind
      have kept := (mem_filter.mp listed).2
      simp [about, kind] at kept
    · intro notice listed about kind
      have earlier := (mem_filter.mp listed).1
      exact absurd (invariant.ended found earlier about kind) live
  exact replaced

end

theorem getElem?_erase_silent (silent : ∀ notice ∈ table.notices, notice.job = job → notice.kind.isState = false)
    (listed : notice ∈ table.notices) (kind : notice.kind.isState = true) :
    (table.records.erase job)[notice.job]? = table.records[notice.job]? := by
  rw [getElem?_erase, if_neg]
  intro same
  have state := silent notice listed (Std.LawfulEqOrd.eq_of_compare same).symm
  rw [kind] at state
  contradiction

/-- A record taken out of a table without notices about its state. -/
theorem Invariant.erase (invariant : table.Invariant)
    (silent : ∀ notice ∈ table.notices, notice.job = job → notice.kind.isState = false) :
    Invariant { table with records := table.records.erase job } where
  coherent other stored present := by
    simp only [getElem?_erase] at present
    split at present
    · contradiction
    · exact invariant.coherent other stored present
  issuedJobs other present := by
    simp only [mem_erase] at present
    exact invariant.issuedJobs other present.2
  positive := invariant.positive
  issued := invariant.issued
  ordered := invariant.ordered
  single := invariant.single
  stopped notice listed kind := by
    obtain ⟨stored, present, awaits⟩ := invariant.stopped notice listed kind
    exact ⟨stored, (getElem?_erase_silent silent listed (by rw [kind]; rfl)).trans present, awaits⟩
  completed notice listed kind := by
    obtain ⟨stored, present, completed⟩ := invariant.completed notice listed kind
    exact ⟨stored, (getElem?_erase_silent silent listed (by rw [kind]; rfl)).trans present, completed⟩

theorem Evolves.erase (allowed : leaving job) :
    Evolves leaving table { table with records := table.records.erase job } where
  jobs := Nat.le_refl _
  notices := Nat.le_refl _
  newJobs other present := by
    simp only [mem_erase] at present
    exact .inl present.2
  newNotices _ listed := .inl listed
  left other present missing := by
    simp only [mem_erase, not_and] at missing
    by_cases same : compare job other = .eq
    · rw [← Std.LawfulEqOrd.eq_of_compare same]
      exact allowed
    · exact absurd present (missing same)

/-! ## Notices -/

/-- What a notice says of the record it is about. -/
def Tells (kind : JobNoticeKind) (record : JobRecord) : Prop :=
  match kind with
  | .stopped => record.job.state.isStopped = true ∧ record.job.noticePending = true
  | .completed => record.job.state = .completed
  | .started _ | .observationFailed _ => True

/-- The next identity of a notice is given out. -/
theorem Invariant.reserveNotice (invariant : table.Invariant) (next : table.nextNotice = some value) :
    Invariant { table with nextNotice := checkedSucc value } where
  coherent := invariant.coherent
  issuedJobs := invariant.issuedJobs
  positive := invariant.positive
  issued notice listed := by
    have issued := invariant.issued notice listed
    rw [next, bound_some] at issued
    rw [bound_checkedSucc]
    omega
  ordered := invariant.ordered
  single := invariant.single
  stopped notice listed kind := by
    obtain ⟨record, found, awaits⟩ := invariant.stopped notice listed kind
    refine ⟨record, found, ?_⟩
    rcases awaits with pending | ⟨exhausted, _⟩
    · exact .inl pending
    · rw [next] at exhausted
      contradiction
  completed := invariant.completed

/-- A notice under an identity that was given out last. -/
theorem Invariant.append (invariant : table.Invariant) (notice : JobNotice)
    (issued : notice.id.value.toNat < bound table.nextNotice)
    (latest : ∀ earlier ∈ table.notices, earlier.id.value.toNat < notice.id.value.toNat)
    (about : notice.kind.isState = true →
      ∃ record, table.records[notice.job]? = some record ∧ Tells notice.kind record)
    (silent : notice.kind.isState = true →
      ∀ earlier ∈ table.notices, earlier.job = notice.job → earlier.kind.isState = false) :
    Invariant { table with notices := table.notices ++ [notice] } where
  coherent := invariant.coherent
  issuedJobs := invariant.issuedJobs
  positive := invariant.positive
  issued other listed := by
    rcases mem_append.mp listed with earlier | new
    · exact invariant.issued other earlier
    · rw [mem_singleton.mp new]
      exact issued
  ordered := by
    rw [pairwise_append]
    refine ⟨invariant.ordered, pairwise_singleton _ _, ?_⟩
    intro earlier listed other new
    rw [mem_singleton.mp new]
    exact latest earlier listed
  single job := by
    rw [countP_append, countP_singleton]
    split
    · next state =>
      simp only [isStateNotice, Bool.and_eq_true, decide_eq_true_eq] at state
      have none : table.notices.countP (isStateNotice job) = 0 := by
        rw [countP_eq_zero]
        intro earlier listed
        rw [isStateNotice, Bool.and_eq_true, decide_eq_true_eq]
        rintro ⟨same, earlierState⟩
        have quiet := silent state.2 earlier listed (by rw [same, state.1])
        rw [quiet] at earlierState
        contradiction
      omega
    · have single := invariant.single job
      omega
  stopped other listed isStopped := by
    rcases mem_append.mp listed with earlier | new
    · exact invariant.stopped other earlier isStopped
    · rw [mem_singleton.mp new] at isStopped ⊢
      obtain ⟨record, found, tells⟩ := about (by rw [isStopped]; rfl)
      rw [isStopped] at tells
      exact ⟨record, found, .inl tells⟩
  completed other listed isCompleted := by
    rcases mem_append.mp listed with earlier | new
    · exact invariant.completed other earlier isCompleted
    · rw [mem_singleton.mp new] at isCompleted ⊢
      obtain ⟨record, found, tells⟩ := about (by rw [isCompleted]; rfl)
      rw [isCompleted] at tells
      exact ⟨record, found, tells⟩

/-- A notice under the next identity. -/
theorem Invariant.push (invariant : table.Invariant) (command : String) (next : table.nextNotice = some value)
    (about : kind.isState = true → ∃ record, table.records[job]? = some record ∧ Tells kind record)
    (silent : kind.isState = true → ∀ notice ∈ table.notices, notice.job = job → notice.kind.isState = false) :
    Invariant { table with
      nextNotice := checkedSucc value
      notices := table.notices ++ [⟨⟨value⟩, job, kind, command⟩] } := by
  apply (invariant.reserveNotice next).append ⟨⟨value⟩, job, kind, command⟩ _ _ about silent
  · show value.toNat < bound (checkedSucc value)
    rw [bound_checkedSucc]
    omega
  · intro earlier listed
    have issued := invariant.issued earlier listed
    rw [next, bound_some] at issued
    exact issued

theorem Evolves.reserveNotice (next : table.nextNotice = some value) :
    Evolves leaving table { table with nextNotice := checkedSucc value } where
  jobs := Nat.le_refl _
  notices := by
    rw [next, bound_checkedSucc, bound_some]
    omega
  newJobs _ present := .inl present
  newNotices _ listed := .inl listed
  left _ present missing := absurd present missing

theorem Evolves.append (evolves : Evolves leaving before table) (new : bound before.nextNotice ≤ notice.id.value.toNat) :
    Evolves leaving before { table with notices := table.notices ++ [notice] } where
  jobs := evolves.jobs
  notices := evolves.notices
  newJobs := evolves.newJobs
  newNotices other listed := by
    rcases mem_append.mp listed with earlier | last
    · exact evolves.newNotices other earlier
    · rw [mem_singleton.mp last]
      exact .inr new
  left := evolves.left

theorem queueNotice_none (exhausted : table.nextNotice = none) (kind : JobNoticeKind) (command : String) :
    table.queueNotice job kind command = table := by
  unfold queueNotice
  split
  · rfl
  · next value next =>
    rw [next] at exhausted
    contradiction

/-- The notices that stay when another one is queued. -/
def displaced (table : BackgroundJobs) (job : JobId) (kind : JobNoticeKind) : BackgroundJobs :=
  if kind.isState then table.retain fun notice => notice.job ≠ job || !notice.kind.isState else table

theorem queueNotice_some (next : table.nextNotice = some value) (kind : JobNoticeKind) (command : String) : table.queueNotice job kind command =
      { table.displaced job kind with
        nextNotice := checkedSucc value
        notices := (table.displaced job kind).notices ++ [⟨⟨value⟩, job, kind, command⟩] } := by
  unfold queueNotice
  split
  · next exhausted =>
    rw [next] at exhausted
    contradiction
  · next other found =>
    rw [next] at found
    cases found
    rfl

theorem Evolves.queueNotice (kind : JobNoticeKind) (command : String) :
    Evolves leaving table (table.queueNotice job kind command) := by
  cases next : table.nextNotice with
  | none =>
    rw [queueNotice_none next]
    exact Evolves.refl table
  | some value =>
    rw [queueNotice_some next]
    have fewer : Evolves leaving table (table.displaced job kind) := by
      unfold displaced
      split
      · exact Evolves.retain _
      · exact Evolves.refl table
    have same : (table.displaced job kind).nextNotice = some value := by
      unfold displaced
      split
      · exact next
      · exact next
    have counted : bound (table.displaced job kind).nextNotice ≤ value.toNat := by
      rw [same]
      exact Nat.le_refl _
    exact fewer.trans ((Evolves.reserveNotice same).append counted)

/-- A notice that is not about the state of a job. -/
theorem Invariant.queueNotice (invariant : table.Invariant) (plain : kind.isState = false) (command : String) : (table.queueNotice job kind command).Invariant := by
  cases next : table.nextNotice with
  | none =>
    rw [queueNotice_none next]
    exact invariant
  | some value =>
    have same : table.displaced job kind = table := by
      unfold displaced
      rw [if_neg (by simp [plain])]
    rw [queueNotice_some next, same]
    apply invariant.push command next
    all_goals
      intro state
      rw [plain] at state
      contradiction

/-- News about the state of a job: the record is replaced, and the notice takes the place
of the one before it while there are identities left. -/
theorem Invariant.news (invariant : table.Invariant) (found : table.records[job]? = some record) (coherent : after.Coherent)
    (state : kind.isState = true) (tells : Tells kind after) (command : String)
    (stopped : ∀ notice ∈ table.notices, notice.job = job → notice.kind = .stopped → table.nextNotice = none → after.job.state = .completed)
    (live : record.job.state ≠ .completed) :
    ((table.withRecord job after).queueNotice job kind command).Invariant := by
  cases next : table.nextNotice with
  | none =>
    have nextAfter : (table.withRecord job after).nextNotice = none := next
    rw [queueNotice_none nextAfter]
    apply invariant.replace (invariant.within found) coherent
    · intro notice listed about isStopped
      exact .inr ⟨next, stopped notice listed about isStopped next⟩
    · intro notice listed about isCompleted
      exact absurd (invariant.ended found listed about isCompleted) live
  | some value =>
    have nextAfter : (table.withRecord job after).nextNotice = some value := next
    let others := table.retain fun notice => notice.job ≠ job || !notice.kind.isState
    have fewer : others.Invariant := invariant.retain _
    have silent : ∀ notice ∈ others.notices, notice.job = job → notice.kind.isState = false := by
      intro notice listed about
      have kept := (mem_filter.mp listed).2
      simpa [about] using kept
    have replaced : (others.withRecord job after).Invariant :=
      fewer.replace_silent (fewer.within found) coherent silent
    have exchanged : (table.withRecord job after).displaced job kind = others.withRecord job after := if_pos state
    rw [queueNotice_some nextAfter, exchanged]
    apply replaced.push command next
    · intro _
      refine ⟨after, ?_, tells⟩
      rw [getElem?_withRecord, if_pos rfl]
    · intro _ notice listed about
      exact silent notice listed about

/-! ## Observations -/

theorem react_invariant (invariant : table.Invariant) (found : table.records[job]? = some record)
    (coherent : after.Coherent) {reaction : Reaction} (effect : JobRecord.Effect record after reaction) :
    (table.react job after reaction).Invariant := by
  cases effect with
  | @quiet queued other stopped completed =>
    have replaced : (table.withRecord job after).Invariant := invariant.withRecord found coherent ⟨stopped, completed⟩
    cases queued with
    | none => exact replaced
    | some kind => exact replaced.queueNotice (other kind rfl) after.command
  | resumed live => exact invariant.resumed found coherent live
  | stopped live running stopped pending =>
    have tells : Tells .stopped after := ⟨stopped, pending⟩
    apply invariant.news found coherent rfl tells after.command _ live
    intro notice listed about isStopped _
    -- There is no stopped notice of a job that ran until now.
    rcases invariant.awaits found listed about isStopped with ⟨was, _⟩ | ⟨_, ended⟩
    · rw [running] at was
      contradiction
    · exact absurd ended live
  | completed live completed =>
    have tells : Tells .completed after := completed
    apply invariant.news found coherent rfl tells after.command _ live
    intro _ _ _ _ _
    exact completed

theorem react_evolves (found : table.records[job]? = some record) (reaction : Reaction) :
    Evolves leaving table (table.react job after reaction) := by
  unfold react
  have cleared : Evolves leaving table
      (if reaction.clearStoppedNotice then (table.withRecord job after).clearStopped job
        else table.withRecord job after) := by
    split
    · exact (Evolves.withRecord found).trans (Evolves.retain _)
    · exact Evolves.withRecord found
  simp only
  split
  · exact cleared
  · exact cleared.trans (Evolves.queueNotice _ _)

/-! ## Identities and new records -/

/-- The next identity of a job is given out. -/
theorem Invariant.reserveJob (invariant : table.Invariant) (next : table.nextJob = some value) :
    Invariant { table with nextJob := checkedSucc value } where
  coherent := invariant.coherent
  issuedJobs other present := by
    have issued := invariant.issuedJobs other present
    rw [next, bound_some] at issued
    rw [bound_checkedSucc]
    omega
  positive := by
    show checkedSucc value ≠ some 0
    intro zero
    have counted := bound_checkedSucc value
    rw [zero, bound_some] at counted
    change 0 = value.toNat + 1 at counted
    omega
  issued := invariant.issued
  ordered := invariant.ordered
  single := invariant.single
  stopped := invariant.stopped
  completed := invariant.completed

theorem Evolves.reserveJob (next : table.nextJob = some value) :
    Evolves leaving table { table with nextJob := checkedSucc value } where
  jobs := by
    rw [next, bound_checkedSucc, bound_some]
    omega
  notices := Nat.le_refl _
  newJobs _ present := .inl present
  newNotices _ listed := .inl listed
  left _ present missing := absurd present missing

/-- A record under an identity that was given out and is not in use. -/
theorem Invariant.publish (invariant : table.Invariant) (issued : job.value.toNat < bound table.nextJob)
    (new : job ∉ table.records) (coherent : record.Coherent) : (table.withRecord job record).Invariant := by
  apply invariant.replace issued coherent
  · intro notice listed about kind
    obtain ⟨_, found, _⟩ := invariant.stopped notice listed kind
    exact absurd (mem_of_found found) (about ▸ new)
  · intro notice listed about kind
    obtain ⟨_, found, _⟩ := invariant.completed notice listed kind
    exact absurd (mem_of_found found) (about ▸ new)

theorem Evolves.publish (evolves : Evolves leaving before table) (new : bound before.nextJob ≤ job.value.toNat) : Evolves leaving before (table.withRecord job record) where
  jobs := evolves.jobs
  notices := evolves.notices
  newJobs other present := by
    rcases (mem_withRecord other).mp present with rfl | listed
    · exact .inr new
    · exact evolves.newJobs other listed
  newNotices := evolves.newNotices
  left other present missing := by
    apply evolves.left other present
    intro listed
    exact missing ((mem_withRecord other).mpr (.inr listed))

end Changes

end BackgroundJobs

end Opaal.Runtime
