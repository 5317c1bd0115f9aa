import Mathlib.Data.List.Nodup
import Mathlib.Data.List.Perm.Basic
import Opaal.Lsp.Server

/-!
# Tracked jobs

As long as the server is not shut down it tracks exactly the jobs that are pending or with
the worker.  A raised flag of such a job has a reason: the client asked to cancel it, or
the workspace has a newer generation than its snapshot.
-/

namespace Opaal.Lsp

open List

open Opaal.Json (Tree)
open Coordinator

def JobKind.requestId : JobKind → Option Tree
  | .diagnostics => none
  | .request id _ _ => some id

/-- How a job is tracked. -/
def TrackedControl.of (job : Job) : TrackedControl := ⟨job.serial, job.kind.requestId⟩

namespace Server

/-- The jobs with the worker, or on their way to it or back. -/
def inFlight (server : Server) : List Job :=
  server.channel.toList ++ server.working.toList ++ (server.finished.map Prod.fst).toList

def jobs (server : Server) : List Job := server.coordinator.pending ++ server.inFlight

end Server

/-- The client asked to cancel the job after it was queued. -/
def ExplicitlyCancelled (received : List Received) (job : Job) : Prop :=
  ∃ entry ∈ received, job.serial < entry.nextSerial ∧
    ∃ target, cancelTarget entry.message = some target ∧ job.kind.requestId = some target

/-- The snapshot of a job is of this generation or an older one. -/
structure Taken (snapshot : WorkspaceSnapshot) (workspace : Workspace) : Prop where
  older : snapshot.generation ≤ workspace.generation
  documents : snapshot.generation = workspace.generation → snapshot.documents = workspace.documents

/-- A job is told that it was overtaken, and its raised flags have a reason. -/
structure Reasoned (server : Server) (job : Job) : Prop where
  invalidated : (server.coordinator.flags job.serial).invalidated = true ↔
    job.snapshot.generation < server.coordinator.workspace.generation
  cancelled : (server.coordinator.flags job.serial).cancelled = true →
    ExplicitlyCancelled server.history.received job

structure Tracking (server : Server) : Prop where
  held : server.inFlight.length = if server.coordinator.workerBusy then 1 else 0
  below : ∀ job ∈ server.jobs, job.serial < server.coordinator.nextSerial
  distinct : (server.jobs.map Job.serial).Nodup
  tracked : server.coordinator.lifecycle ≠ .shutdownRequested →
    server.coordinator.controls.Perm (server.jobs.map .of)
  dropped : server.coordinator.lifecycle = .shutdownRequested →
    server.coordinator.controls = [] ∧ server.coordinator.pending = []
  untouched : server.coordinator.lifecycle = .waitingForInitialize →
    server.jobs = [] ∧ server.coordinator.workspace.generation = 0
  taken : ∀ job ∈ server.jobs, Taken job.snapshot server.coordinator.workspace
  reasoned : server.coordinator.lifecycle ≠ .shutdownRequested → ∀ job ∈ server.jobs, Reasoned server job
  computed : ∀ job result, server.finished = some (job, result) →
    Computes (server.coordinator.flags job.serial) job result

section Preserved

variable {server after : Server}

/-! ## Flags -/

variable {job : Job} {result : WorkerResult}

theorem Computes.raised {control raised : RequestControl} (computes : Computes control job result)
    (more : control.isCancelled = true → raised.isCancelled = true) :
    Computes raised job result := by
  cases computes with
  | diagnostics result kind stopped generation =>
    exact .diagnostics result kind (fun none => more (stopped none)) generation
  | request id method params outcome kind stopped =>
    exact .request id method params outcome kind (fun cancelled => more (stopped cancelled))

theorem mem_inFlight_finished (finished : server.finished = some (job, result)) :
    job ∈ server.inFlight := by
  simp [Server.inFlight, finished]

theorem mem_jobs_finished (finished : server.finished = some (job, result)) :
    job ∈ server.jobs :=
  mem_append_right _ (mem_inFlight_finished finished)

/-- Two jobs that are tracked under one serial number are the same. -/
theorem Tracking.same_job (tracking : Tracking server) {first second : Job} (firstListed : first ∈ server.jobs)
    (secondListed : second ∈ server.jobs) (same : first.serial = second.serial) : first = second :=
  inj_on_of_nodup_map tracking.distinct firstListed secondListed same

/-- A tracked control belongs to a job. -/
theorem Tracking.job_of_control (tracking : Tracking server)
    (alive : server.coordinator.lifecycle ≠ .shutdownRequested) {control : TrackedControl}
    (listed : control ∈ server.coordinator.controls) : ∃ job ∈ server.jobs, TrackedControl.of job = control :=
  mem_map.mp ((tracking.tracked alive).mem_iff.mp listed)

theorem ExplicitlyCancelled.more {received later : List Received} (explicit : ExplicitlyCancelled received job)
    (more : ∀ entry ∈ received, entry ∈ later) :
    ExplicitlyCancelled later job := by
  obtain ⟨entry, listed, after, named⟩ := explicit
  exact ⟨entry, more entry listed, after, named⟩

/-! ## Steps that only move jobs -/

/-- The coordinator is running or waits to be initialized as before, or has just been
initialized. -/
def Continues (before after : Lifecycle) : Prop :=
  after = before ∨ before = .waitingForInitialize ∧ after = .running

theorem Continues.shut {before now : Lifecycle} (continues : Continues before now) :
    now = .shutdownRequested ↔ before = .shutdownRequested := by
  rcases continues with rfl | ⟨rfl, rfl⟩
  · rfl
  · simp

theorem Continues.waiting {before now : Lifecycle} (continues : Continues before now)
    (waiting : now = .waitingForInitialize) : before = .waitingForInitialize := by
  rcases continues with rfl | ⟨rfl, rfl⟩
  · exact waiting
  · contradiction

/-- A step that lets jobs go, or changes what the invariant does not speak of. -/
theorem Tracking.narrowed (tracking : Tracking server) (jobs : ∀ job ∈ after.jobs, job ∈ server.jobs)
    (distinct : (after.jobs.map Job.serial).Nodup)
    (held : after.inFlight.length = if after.coordinator.workerBusy then 1 else 0)
    (nextSerial : after.coordinator.nextSerial = server.coordinator.nextSerial)
    (lifecycle : Continues server.coordinator.lifecycle after.coordinator.lifecycle)
    (tracked : server.coordinator.lifecycle ≠ .shutdownRequested →
      after.coordinator.controls.Perm (after.jobs.map TrackedControl.of))
    (dropped : server.coordinator.lifecycle = .shutdownRequested →
      after.coordinator.controls = [] ∧ after.coordinator.pending = [])
    (generation : after.coordinator.workspace.generation = server.coordinator.workspace.generation)
    (documents : after.coordinator.workspace.documents = server.coordinator.workspace.documents)
    (flags : after.coordinator.flags = server.coordinator.flags)
    (received : ∀ entry ∈ server.history.received, entry ∈ after.history.received)
    (computed : ∀ job result, after.finished = some (job, result) →
      Computes (server.coordinator.flags job.serial) job result) : Tracking after where
  held := held
  below job listed := by
    rw [nextSerial]
    exact tracking.below job (jobs job listed)
  distinct := distinct
  tracked alive := tracked fun shut => alive (lifecycle.shut.mpr shut)
  dropped shut := dropped (lifecycle.shut.mp shut)
  untouched waiting := by
    obtain ⟨none, first⟩ := tracking.untouched (lifecycle.waiting waiting)
    rw [none] at jobs
    exact ⟨eq_nil_of_subset_nil jobs, by rw [generation]; exact first⟩
  taken job listed := by
    obtain ⟨older, same⟩ := tracking.taken job (jobs job listed)
    exact ⟨by rw [generation]; exact older, by rw [generation, documents]; exact same⟩
  reasoned alive job listed := by
    obtain ⟨invalidated, cancelled⟩ :=
      tracking.reasoned (fun shut => alive (lifecycle.shut.mpr shut)) job (jobs job listed)
    constructor
    · rw [flags, generation]
      exact invalidated
    · rw [flags]
      intro raised
      exact (cancelled raised).more received
  computed job result finished := by
    rw [flags]
    exact computed job result finished

/-- A step that rearranges the jobs. -/
theorem Tracking.rearranged (tracking : Tracking server) (jobs : after.jobs.Perm server.jobs)
    (held : after.inFlight.length = if after.coordinator.workerBusy then 1 else 0)
    (nextSerial : after.coordinator.nextSerial = server.coordinator.nextSerial)
    (lifecycle : Continues server.coordinator.lifecycle after.coordinator.lifecycle)
    (controls : after.coordinator.controls = server.coordinator.controls)
    (generation : after.coordinator.workspace.generation = server.coordinator.workspace.generation)
    (documents : after.coordinator.workspace.documents = server.coordinator.workspace.documents)
    (flags : after.coordinator.flags = server.coordinator.flags)
    (pending : server.coordinator.pending = [] → after.coordinator.pending = [])
    (received : ∀ entry ∈ server.history.received, entry ∈ after.history.received)
    (computed : ∀ job result, after.finished = some (job, result) →
      Computes (server.coordinator.flags job.serial) job result) : Tracking after := by
  refine tracking.narrowed (fun _ listed => jobs.mem_iff.mp listed)
    ((jobs.map Job.serial).nodup_iff.mpr tracking.distinct) held nextSerial lifecycle ?_ ?_ generation documents flags
    received computed
  · intro alive
    rw [controls]
    exact (tracking.tracked alive).trans (jobs.symm.map TrackedControl.of)
  · intro shut
    obtain ⟨noControls, noPending⟩ := tracking.dropped shut
    exact ⟨by rw [controls]; exact noControls, pending noPending⟩

theorem inFlight_nil (free : server.inFlight = []) :
    server.channel = none ∧ server.working = none ∧ server.finished = none := by
  simp only [Server.inFlight, append_eq_nil_iff] at free
  exact ⟨by simpa using free.1.1, by simpa using free.1.2, by simpa using free.2⟩

/-- Starting the next job hands the first pending one to an idle worker. -/
theorem start_cases (held : server.inFlight.length = if server.coordinator.workerBusy then 1 else 0) :
    (server.start = server ∧ (server.coordinator.pending ≠ [] → server.coordinator.workerBusy = true)) ∨
    ∃ job rest, server.coordinator.pending = job :: rest ∧ server.inFlight = [] ∧
      server.start = { server with
        coordinator := { server.coordinator with pending := rest, workerBusy := true }, channel := some job } := by
  cases busy : server.coordinator.workerBusy with
  | true =>
    left
    exact ⟨by simp [Server.start, startNext, busy], fun _ => rfl⟩
  | false =>
    have free : server.inFlight = [] := by
      rw [busy] at held
      exact length_eq_zero_iff.mp held
    have channel := (inFlight_nil free).1
    cases queue : server.coordinator.pending with
    | nil =>
      left
      exact ⟨by simp [Server.start, startNext, busy, queue], fun some => absurd rfl some⟩
    | cons job rest =>
      right
      exact ⟨job, rest, rfl, free, by simp [Server.start, startNext, busy, queue, channel]⟩

theorem start_tracking (tracking : Tracking server) : Tracking server.start := by
  rcases start_cases tracking.held with ⟨same, _⟩ | ⟨job, rest, queue, free, started⟩
  · rw [same]
    exact tracking
  · obtain ⟨channel, working, finished⟩ := inFlight_nil free
    rw [started]
    refine tracking.rearranged ?_ ?_ rfl (.inl rfl) rfl rfl rfl rfl ?_ (fun _ listed => listed) ?_
    · simp [Server.jobs, Server.inFlight, working, finished, channel, queue]
    · simp [Server.inFlight, working, finished]
    · intro none
      rw [queue] at none
      contradiction
    · intro other result done
      rw [show server.finished = some (other, result) from done] at finished
      contradiction

/-- After each event the worker is busy as long as something is pending. -/
theorem start_started (tracking : Tracking server) :
    server.start.coordinator.pending ≠ [] → server.start.coordinator.workerBusy = true := by
  rcases start_cases tracking.held with ⟨same, busy⟩ | ⟨_, _, _, _, started⟩
  · rw [same]
    exact busy
  · rw [started]
    exact fun _ => rfl

/-! ## Messages -/

section Messages

variable {replies : List Reply} {coordinator : Coordinator} {history : History}

/-- Flags are raised of tracked jobs only, and stay raised. -/
theorem raise_flags (self : Coordinator) (selects : TrackedControl → Bool) (flag : RequestControl → RequestControl)
    (serial : Nat) :
    (self.raise selects flag).flags serial = self.flags serial ∨
      (∃ control ∈ self.controls, control.serial = serial ∧ selects control = true) ∧
        (self.raise selects flag).flags serial = flag (self.flags serial) := by
  unfold raise
  simp only
  split
  · next raised =>
    obtain ⟨control, listed, both⟩ := any_eq_true.mp raised
    simp only [Bool.and_eq_true, decide_eq_true_eq] at both
    exact .inr ⟨⟨control, listed, both⟩, rfl⟩
  · exact .inl rfl

theorem raise_isCancelled (self : Coordinator) (selects : TrackedControl → Bool)
    {flag : RequestControl → RequestControl} (raises : ∀ control, control.isCancelled = true →
      (flag control).isCancelled = true) (serial : Nat) (raised : (self.flags serial).isCancelled = true) :
    ((self.raise selects flag).flags serial).isCancelled = true := by
  rcases raise_flags self selects flag serial with same | ⟨_, now⟩
  · rw [same]
    exact raised
  · rw [now]
    exact raises _ raised

theorem cancelled_tracking (tracking : Tracking server) {message target : Tree}
    (named : cancelTarget message = some target)
    (received : history.received = server.history.received ++ [⟨message, server.coordinator.nextSerial⟩]) :
    Tracking (server.send replies
      (server.coordinator.raise (fun tracked => tracked.requestId = some target) cancel) history) := by
  have earlier : ∀ entry ∈ server.history.received, entry ∈ history.received := by
    intro entry listed
    rw [received]
    exact mem_append_left _ listed
  refine ⟨tracking.held, tracking.below, tracking.distinct, tracking.tracked, tracking.dropped, tracking.untouched,
    tracking.taken, ?_, ?_⟩
  · intro alive job listed
    obtain ⟨invalidated, cancelled⟩ := tracking.reasoned alive job listed
    rcases raise_flags server.coordinator (fun tracked => tracked.requestId = some target) cancel
      job.serial with same | ⟨⟨_, tracked, serial, selected⟩, raised⟩
    · rw [← same] at invalidated
      refine ⟨invalidated, ?_⟩
      intro raised
      exact (cancelled (by rw [← same]; exact raised)).more earlier
    · have kept : (cancel (server.coordinator.flags job.serial)).invalidated = true ↔ _ := invalidated
      rw [← raised] at kept
      refine ⟨kept, ?_⟩
      · intro _
        obtain ⟨other, otherListed, control_of⟩ := tracking.job_of_control alive tracked
        have same : other = job := by
          apply tracking.same_job otherListed listed
          rw [← serial, ← control_of]
          rfl
        refine ⟨⟨message, server.coordinator.nextSerial⟩, ?_, tracking.below job listed, target, named, ?_⟩
        · show _ ∈ history.received
          rw [received]
          simp
        · rw [← same]
          rw [← control_of] at selected
          exact of_decide_eq_true selected
  · intro job result finished
    exact (tracking.computed job result finished).raised (raise_isCancelled _ _ (fun _ _ => rfl) _)

/-- A new job is tracked, with new flags and a snapshot of the workspace as it is. -/
theorem queue_tracking (tracking : Tracking server) (running : server.coordinator.lifecycle = .running)
    (kind : JobKind) (received : ∀ entry ∈ server.history.received, entry ∈ history.received) :
    Tracking (server.send replies (server.coordinator.queue kind.requestId kind) history) := by
  let job : Job :=
    ⟨server.coordinator.nextSerial, kind, server.coordinator.workspace.diagnosticSnapshot, server.coordinator.encoding⟩
  have jobs : (server.send replies (server.coordinator.queue kind.requestId kind) history).jobs.Perm
      (server.jobs ++ [job]) := by
    show (server.coordinator.pending ++ [job] ++ server.inFlight).Perm
      (server.coordinator.pending ++ server.inFlight ++ [job])
    rw [append_assoc, append_assoc]
    exact List.Perm.append_left _ perm_append_comm
  have alive : server.coordinator.lifecycle ≠ .shutdownRequested := by
    rw [running]
    simp
  have flags : ∀ serial, serial < server.coordinator.nextSerial →
      (server.coordinator.queue kind.requestId kind).flags serial = server.coordinator.flags serial := by
    intro serial earlier
    exact if_neg (by omega)
  refine ⟨tracking.held, ?_, ?_, ?_, ?_, ?_, ?_, ?_, ?_⟩
  · intro other listed
    show other.serial < server.coordinator.nextSerial + 1
    rcases mem_append.mp (jobs.mem_iff.mp listed) with old | new
    · have before := tracking.below other old
      omega
    · rw [mem_singleton.mp new]
      show server.coordinator.nextSerial < server.coordinator.nextSerial + 1
      omega
  · rw [(jobs.map Job.serial).nodup_iff, map_append]
    refine nodup_append.mpr ⟨tracking.distinct, by simp, ?_⟩
    intro first old second new same
    obtain ⟨other, listed, rfl⟩ := mem_map.mp old
    have before := tracking.below other listed
    have fresh : second = server.coordinator.nextSerial := by simpa [job] using new
    omega
  · intro _
    refine List.Perm.trans ?_ (jobs.symm.map TrackedControl.of)
    rw [map_append]
    exact (tracking.tracked alive).append_right _
  · intro shut
    contradiction
  · intro waiting
    rw [show server.coordinator.lifecycle = .waitingForInitialize from waiting] at running
    contradiction
  · intro other listed
    rcases mem_append.mp (jobs.mem_iff.mp listed) with old | new
    · exact tracking.taken other old
    · rw [mem_singleton.mp new]
      exact ⟨Nat.le_refl _, fun _ => rfl⟩
  · intro _ other listed
    rcases mem_append.mp (jobs.mem_iff.mp listed) with old | new
    · obtain ⟨invalidated, cancelled⟩ := tracking.reasoned alive other old
      have same := flags other.serial (tracking.below other old)
      rw [← same] at invalidated
      refine ⟨invalidated, ?_⟩
      intro raised
      exact (cancelled (by rw [← same]; exact raised)).more received
    · rw [mem_singleton.mp new]
      have fresh : (server.coordinator.queue kind.requestId kind).flags job.serial = .new := if_pos rfl
      constructor
      · refine iff_of_false ?_ (Nat.lt_irrefl _)
        intro raised
        have lowered : RequestControl.new.invalidated = true := by
          rw [← fresh]
          exact raised
        contradiction
      · intro raised
        have lowered : RequestControl.new.cancelled = true := by
          rw [← fresh]
          exact raised
        contradiction
  · intro other result finished
    have before := tracking.below other (mem_jobs_finished finished)
    show Computes ((server.coordinator.queue kind.requestId kind).flags other.serial) other result
    rw [flags other.serial before]
    exact tracking.computed other result finished

/-- The workspace has a newer generation: all jobs are told, and pending diagnostics are
dropped. -/
def supersede (self : Coordinator) (workspace : Workspace) : Coordinator :=
  let self := raise { self with workspace := workspace } (fun _ => true) invalidate
  let removed := (self.pending.filter Job.isDiagnostics).map Job.serial
  { self with
    pending := self.pending.filter fun job => !job.isDiagnostics
    controls := self.controls.filter fun tracked => !removed.contains tracked.serial }

/-- Dropping pending diagnostics and their controls keeps controls and jobs together. -/
theorem dropped_perm {controls : List TrackedControl} {pending inFlight : List Job}
    (distinct : ((pending ++ inFlight).map Job.serial).Nodup)
    (tracked : controls.Perm ((pending ++ inFlight).map TrackedControl.of)) :
    let removed := (pending.filter Job.isDiagnostics).map Job.serial
    (controls.filter fun control => !removed.contains control.serial).Perm
      (((pending.filter fun job => !job.isDiagnostics) ++ inFlight).map TrackedControl.of) := by
  intro removed
  have same : ∀ first ∈ pending ++ inFlight, ∀ second ∈ pending ++ inFlight, first.serial = second.serial →
      first = second := by
    intro first firstListed second secondListed
    exact inj_on_of_nodup_map distinct firstListed secondListed
  have kept : ∀ job ∈ pending, (!removed.contains (TrackedControl.of job).serial) = !job.isDiagnostics := by
    intro job listed
    cases diagnostics : job.isDiagnostics with
    | true =>
      have member : job.serial ∈ removed := mem_map.mpr ⟨job, by simp [listed, diagnostics], rfl⟩
      simp [TrackedControl.of, member]
    | false =>
      have absent : job.serial ∉ removed := by
        intro member
        obtain ⟨other, filtered, serial⟩ := mem_map.mp member
        obtain ⟨otherListed, otherDiagnostics⟩ := mem_filter.mp filtered
        have equal := same other (by simp [otherListed]) job (by simp [listed]) serial
        rw [equal, diagnostics] at otherDiagnostics
        contradiction
      simp [TrackedControl.of, absent]
  have untouched : ∀ job ∈ inFlight, (!removed.contains (TrackedControl.of job).serial) = true := by
    intro job listed
    have absent : job.serial ∉ removed := by
      intro member
      obtain ⟨other, filtered, serial⟩ := mem_map.mp member
      obtain ⟨otherListed, _⟩ := mem_filter.mp filtered
      rw [map_append] at distinct
      exact (nodup_append.mp distinct).2.2 other.serial (mem_map_of_mem otherListed) job.serial
        (mem_map_of_mem listed) serial
    simp [TrackedControl.of, absent]
  have filtered := tracked.filter fun control => !removed.contains control.serial
  rw [filter_map, filter_append] at filtered
  have first : pending.filter ((fun control => !removed.contains control.serial) ∘ TrackedControl.of) =
      pending.filter fun job => !job.isDiagnostics := filter_congr kept
  have second : inFlight.filter ((fun control => !removed.contains control.serial) ∘ TrackedControl.of) = inFlight :=
    filter_eq_self.mpr untouched
  rw [first, second] at filtered
  exact filtered

variable {workspace : Workspace}

section

variable (tracking : Tracking server) (running : server.coordinator.lifecycle = .running)
  (changes : server.coordinator.workspace.Changed workspace)
  (received : ∀ entry ∈ server.history.received, entry ∈ history.received)
include tracking running changes received

theorem supersede_tracking :
    Tracking (server.send replies (supersede server.coordinator workspace) history) := by
  have alive : server.coordinator.lifecycle ≠ .shutdownRequested := by
    rw [running]
    simp
  have sublist : ((server.send replies (supersede server.coordinator workspace) history).jobs).Sublist server.jobs :=
    List.Sublist.append_right filter_sublist _
  have newer : workspace.generation = server.coordinator.workspace.generation + 1 := changes.generation
  refine ⟨tracking.held, ?_, ?_, ?_, ?_, ?_, ?_, ?_, ?_⟩
  · intro job listed
    exact tracking.below job (sublist.subset listed)
  · exact (sublist.map Job.serial).nodup tracking.distinct
  · intro _
    exact dropped_perm tracking.distinct (tracking.tracked alive)
  · intro shut
    exact absurd shut alive
  · intro waiting
    rw [show server.coordinator.lifecycle = .waitingForInitialize from waiting] at running
    contradiction
  · intro job listed
    have older := (tracking.taken job (sublist.subset listed)).older
    constructor
    · show job.snapshot.generation ≤ workspace.generation
      omega
    · intro same
      have equal : job.snapshot.generation = workspace.generation := same
      omega
  · intro _ job listed
    have older := (tracking.taken job (sublist.subset listed)).older
    have reasons := tracking.reasoned alive job (sublist.subset listed)
    constructor
    · refine iff_of_true ?_ (show job.snapshot.generation < workspace.generation by omega)
      have tracked := (tracking.tracked alive).mem_iff.mpr (mem_map_of_mem (sublist.subset listed))
      have told : server.coordinator.controls.any (fun control => control.serial = job.serial && true) = true :=
        any_eq_true.mpr ⟨_, tracked, by simp [TrackedControl.of]⟩
      exact congrArg RequestControl.invalidated (if_pos told)
    · intro raised
      refine (reasons.cancelled ?_).more received
      rcases raise_flags { server.coordinator with workspace := workspace } (fun _ => true) invalidate
        job.serial with same | ⟨_, now⟩
      · have before : ((raise { server.coordinator with workspace := workspace } (fun _ => true)
            invalidate).flags job.serial).cancelled = true := raised
        rw [same] at before
        exact before
      · have before : ((raise { server.coordinator with workspace := workspace } (fun _ => true)
            invalidate).flags job.serial).cancelled = true := raised
        rw [now] at before
        exact before
  · intro job result finished
    refine (tracking.computed job result finished).raised ?_
    exact raise_isCancelled { server.coordinator with workspace := workspace } _
      (fun control raised => by simp [invalidate, RequestControl.isCancelled]) _

theorem changed_tracking :
    Tracking (server.send replies (server.coordinator.changed workspace) history) := by
  have superseded : Tracking (server.send [] (supersede server.coordinator workspace) server.history) :=
    supersede_tracking tracking running changes (fun _ listed => listed)
  exact queue_tracking superseded running .diagnostics received

end

theorem shutdown_tracking (tracking : Tracking server) :
    Tracking (server.send replies
      { server.coordinator.cancelPendingRequests.2 with lifecycle := .shutdownRequested } history) := by
  have sublist : (server.send replies
      { server.coordinator.cancelPendingRequests.2 with lifecycle := .shutdownRequested } history).jobs.Sublist
        server.jobs := sublist_append_right _ _
  refine ⟨tracking.held, ?_, ?_, ?_, fun _ => ⟨rfl, rfl⟩, ?_, ?_, ?_, ?_⟩
  · intro job listed
    exact tracking.below job (sublist.subset listed)
  · exact (sublist.map Job.serial).nodup tracking.distinct
  · intro alive
    exact absurd rfl alive
  · intro waiting
    contradiction
  · intro job listed
    exact tracking.taken job (sublist.subset listed)
  · intro alive
    exact absurd rfl alive
  · intro job result finished
    exact (tracking.computed job result finished).raised (raise_isCancelled _ _ (fun _ _ => rfl) _)

theorem answered_tracking (tracking : Tracking server) (lifecycle : Continues server.coordinator.lifecycle
      coordinator.lifecycle)
    (same : coordinator = { server.coordinator with
      lifecycle := coordinator.lifecycle, encoding := coordinator.encoding,
      relatedInformation := coordinator.relatedInformation })
    (received : ∀ entry ∈ server.history.received, entry ∈ history.received) :
    Tracking (server.send replies coordinator history) := by
  have pending : coordinator.pending = server.coordinator.pending := by rw [same]
  have busy : coordinator.workerBusy = server.coordinator.workerBusy := by rw [same]
  refine tracking.rearranged ?_ ?_ ?_ lifecycle ?_ ?_ ?_ ?_ ?_ received tracking.computed
  · show (coordinator.pending ++ server.inFlight).Perm (server.coordinator.pending ++ server.inFlight)
    rw [pending]
  · show server.inFlight.length = if coordinator.workerBusy then 1 else 0
    rw [busy]
    exact tracking.held
  · show coordinator.nextSerial = _
    rw [same]
  · show coordinator.controls = _
    rw [same]
  · show coordinator.workspace.generation = _
    rw [same]
  · show coordinator.workspace.documents = _
    rw [same]
  · show coordinator.flags = _
    rw [same]
  · intro none
    show coordinator.pending = []
    rw [pending]
    exact none

/-- Handling a message keeps track of the jobs. -/
theorem handled_tracking (tracking : Tracking server) {message : Tree}
    (handled : Handled server.coordinator message replies coordinator) :
    Tracking (server.send replies coordinator (server.receive message coordinator)) := by
  have received : ∀ entry ∈ server.history.received,
      entry ∈ (server.receive message coordinator).received := by
    intro entry listed
    exact mem_append_left _ listed
  cases handled with
  | answered _ _ lifecycle same =>
    refine answered_tracking tracking ?_ same received
    rcases lifecycle with ⟨kept, _⟩ | initialized
    · exact .inl kept
    · exact .inr initialized
  | cancelled named => exact cancelled_tracking tracking named rfl
  | queued running id method params => exact queue_tracking tracking running (.request id method params) received
  | changed running changes => exact changed_tracking tracking running changes received
  | shutdown => exact shutdown_tracking tracking

end Messages

/-! ## Results -/

section Results

variable {job : Job} {result : WorkerResult} {replies : List Reply} {coordinator : Coordinator} {history : History}

theorem Computes.serial {control : RequestControl} (computes : Computes control job result) :
    result.serial = job.serial := by
  cases computes with
  | diagnostics | request => rfl

/-- A finished job is the only one in flight. -/
theorem Tracking.alone (tracking : Tracking server) (finished : server.finished = some (job, result)) :
    server.inFlight = [job] ∧ Server.inFlight { server with finished := none } = [] := by
  have held := tracking.held
  have length : server.inFlight.length =
      server.channel.toList.length + server.working.toList.length + 1 := by
    simp [Server.inFlight, finished, Nat.add_assoc]
  have empty : server.channel.toList.length = 0 ∧ server.working.toList.length = 0 := by
    split at held
    · omega
    · omega
  have channel := length_eq_zero_iff.mp empty.1
  have working := length_eq_zero_iff.mp empty.2
  exact ⟨by simp [Server.inFlight, finished, channel, working], by simp [Server.inFlight, channel, working]⟩

theorem Tracking.jobs_finished (tracking : Tracking server) (finished : server.finished = some (job, result)) :
    server.jobs = server.coordinator.pending ++ [job] := by
  unfold Server.jobs
  rw [(tracking.alone finished).1]

/-- Releasing a job keeps controls and jobs together. -/
theorem released_perm {controls : List TrackedControl} {pending : List Job}
    (distinct : ((pending ++ [job]).map Job.serial).Nodup)
    (tracked : controls.Perm ((pending ++ [job]).map .of)) :
    (controls.eraseP fun control => control.serial = job.serial).Perm (pending.map .of) := by
  have turned : controls.Perm (.of job :: pending.map .of) := by
    refine tracked.trans ?_
    rw [map_append]
    exact perm_append_singleton _ _
  have once : controls.Pairwise fun first second =>
      decide (first.serial = job.serial) = true → decide (second.serial = job.serial) = true → False := by
    have serials : (controls.map TrackedControl.serial).Nodup := by
      rw [(tracked.map TrackedControl.serial).nodup_iff, map_map]
      exact distinct
    refine (pairwise_map.mp serials).imp ?_
    intro first second different firstSame secondSame
    exact different ((of_decide_eq_true firstSame).trans (of_decide_eq_true secondSame).symm)
  have erased := turned.eraseP (fun control => decide (control.serial = job.serial)) once
  rw [eraseP_cons_of_pos (by simp [TrackedControl.of])] at erased
  exact erased

/-- A result keeps track of the other jobs. -/
theorem completed_tracking (tracking : Tracking server) (finished : server.finished = some (job, result))
    (completed : Completed server.coordinator result replies coordinator)
    (received : history.received = server.history.received) :
    Tracking (Server.send { server with finished := none } replies coordinator history) := by
  obtain ⟨flight, free⟩ := tracking.alone finished
  have jobs := tracking.jobs_finished finished
  have serial := (tracking.computed job result finished).serial
  have pendingListed : ∀ other ∈ server.coordinator.pending, other ∈ server.jobs := by
    intro other listed
    exact mem_append_left _ listed
  -- Whatever the result does, it leaves these as they are.
  have frame : ∀ next : Coordinator, next.pending = server.coordinator.pending → next.workerBusy = false →
      next.nextSerial = server.coordinator.nextSerial → next.lifecycle = server.coordinator.lifecycle →
      next.flags = server.coordinator.flags →
      next.workspace.generation = server.coordinator.workspace.generation →
      next.workspace.documents = server.coordinator.workspace.documents →
      (server.coordinator.lifecycle ≠ .shutdownRequested →
        next.controls.Perm (server.coordinator.pending.map TrackedControl.of)) →
      (server.coordinator.lifecycle = .shutdownRequested → next.controls = []) →
      Tracking (Server.send { server with finished := none } replies next history) := by
    intro next pending idle nextSerial lifecycle flags generation documents tracked dropped
    have jobsAfter : (Server.send { server with finished := none } replies next history).jobs =
        server.coordinator.pending := by
      show next.pending ++ Server.inFlight { server with finished := none } = _
      rw [free, pending, append_nil]
    refine tracking.narrowed ?_ ?_ ?_ nextSerial (.inl lifecycle) ?_ ?_ generation documents flags ?_ ?_
    · rw [jobsAfter]
      exact pendingListed
    · rw [jobsAfter]
      exact ((sublist_append_left _ _).map Job.serial).nodup tracking.distinct
    · show (Server.inFlight { server with finished := none }).length = if next.workerBusy then 1 else 0
      rw [free, idle]
      rfl
    · rw [jobsAfter]
      exact tracked
    · intro shut
      exact ⟨dropped shut, pending.trans (tracking.dropped shut).2⟩
    · intro entry listed
      show entry ∈ history.received
      rw [received]
      exact listed
    · intro other otherResult none
      contradiction
  have released : ∀ number, number = job.serial → server.coordinator.lifecycle ≠ .shutdownRequested →
      (server.coordinator.release number).controls.Perm (server.coordinator.pending.map TrackedControl.of) := by
    intro number same alive
    have distinct := tracking.distinct
    have tracked := tracking.tracked alive
    rw [jobs] at distinct tracked
    rw [same]
    exact released_perm distinct tracked
  have none : ∀ number, server.coordinator.lifecycle = .shutdownRequested →
      (server.coordinator.release number).controls = [] := by
    intro number shut
    simp [release, (tracking.dropped shut).1]
  cases completed with
  | dropped untracked =>
    refine frame _ rfl rfl rfl rfl rfl rfl rfl ?_ (fun shut => (tracking.dropped shut).1)
    intro alive
    have listed : TrackedControl.of job ∈ server.coordinator.controls :=
      (tracking.tracked alive).mem_iff.mpr (mem_map_of_mem (mem_jobs_finished finished))
    exact absurd serial.symm (untracked _ listed)
  | @silent number =>
    exact frame _ rfl rfl rfl rfl rfl rfl rfl (released number serial) (none number)
  | @published number =>
    exact frame _ rfl rfl rfl rfl rfl rfl rfl (released number serial) (none number)
  | @answered number =>
    exact frame _ rfl rfl rfl rfl rfl rfl rfl (released number serial) (none number)

end Results

/-! ## Every order -/

/-- A job that is worked on is the only one in flight. -/
theorem Tracking.computing (tracking : Tracking server) (working : server.working = some job) :
    server.channel = none ∧ server.finished = none := by
  have held := tracking.held
  have length : server.inFlight.length = server.channel.toList.length + 1 +
      (server.finished.map Prod.fst).toList.length := by
    simp only [Server.inFlight, working, length_append, Option.toList_some, length_singleton]
  have empty : server.channel.toList.length = 0 ∧ (server.finished.map Prod.fst).toList.length = 0 := by
    split at held
    · omega
    · omega
  exact ⟨by simpa using length_eq_zero_iff.mp empty.1, by simpa using length_eq_zero_iff.mp empty.2⟩

theorem record_received (server : Server) (job : Job) (result : WorkerResult) :
    (server.record job result).received = server.history.received := by
  cases result with
  | diagnostics | request => rfl

theorem step_tracking (tracking : Tracking server) (step : ServerStep server after) : Tracking after := by
  cases step with
  | message _ _ handled => exact start_tracking (handled_tracking tracking (handled_of _ handled))
  | parseError =>
    exact answered_tracking tracking (.inl rfl) rfl (fun _ listed => listed)
  | @take job queued idle free =>
    refine tracking.rearranged ?_ ?_ rfl (.inl rfl) rfl rfl rfl rfl (fun none => none) (fun _ listed => listed) ?_
    · simp [Server.jobs, Server.inFlight, queued, idle, free]
    · have held := tracking.held
      simp [Server.inFlight, queued, idle, free] at held ⊢
      exact held
    · intro other result finished
      rw [show server.finished = some (other, result) from finished] at free
      contradiction
  | @compute _ _ working computes =>
    have held := tracking.held
    have free := tracking.computing working
    refine tracking.rearranged ?_ ?_ rfl (.inl rfl) rfl rfl rfl rfl (fun none => none) (fun _ listed => listed) ?_
    · simp [Server.jobs, Server.inFlight, working, free.1, free.2]
    · simp [Server.inFlight, working, free.1, free.2] at held ⊢
      exact held
    · intro other otherResult finished
      cases finished
      exact computes
  | @complete job result _ _ finished completes =>
    exact start_tracking (completed_tracking tracking finished (completed_of completes) (record_received server job result))

theorem initial_tracking : Tracking .initial := by
  refine ⟨rfl, ?_, nodup_nil, fun _ => List.Perm.refl _, ?_, fun _ => ⟨rfl, rfl⟩, ?_, ?_, ?_⟩
  · intro job listed
    contradiction
  · intro shut
    contradiction
  · intro job listed
    contradiction
  · intro _ job listed
    contradiction
  · intro job result finished
    contradiction

end Preserved

end Opaal.Lsp
