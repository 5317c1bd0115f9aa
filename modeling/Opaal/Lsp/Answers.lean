import Opaal.Lsp.Tracking

/-!
# Answers

Every request that was queued is answered once: when the worker is done with it, or when
the server shuts down.  An answer says what the state of the workspace and the flags of the
request allow it to say.
-/

namespace Opaal.Lsp

open List

open Opaal.Json (Tree)
open Server

/-- What may be sent for a request. -/
inductive Answer (received : List Received) (request : Job) (sent : Sent) : Prop where
  /-- The server shuts down. -/
  | closing (id : Tree) (kind : request.kind.requestId = some id) (closing : sent.closing = true)
      (message : sent.reply.message = requestFailureResponse id .requestCancelled)
  /-- The client asked for it. -/
  | cancelled (id : Tree) (kind : request.kind.requestId = some id) (alive : sent.closing = false)
      (explicit : ExplicitlyCancelled received request)
      (message : sent.reply.message = requestFailureResponse id .requestCancelled)
  /-- The workspace has a newer generation. -/
  | overtaken (id : Tree) (kind : request.kind.requestId = some id) (alive : sent.closing = false)
      (newer : request.snapshot.generation < sent.workspace.generation)
      (message : sent.reply.message = requestFailureResponse id .contentModified)
  /-- The workspace is the one the request was queued with. -/
  | current (id : Tree) (outcome : Except RequestError Tree) (kind : request.kind.requestId = some id)
      (alive : sent.closing = false) (same : sent.workspace = request.snapshot)
      (completed : outcome ≠ .error .requestCancelled) (message : sent.reply.message = answer id outcome)

/-- The last message that answers a request comes before the answer to the shutdown. -/
def Closed (sent : List Sent) : Prop :=
  ∃ before id after, sent.map Sent.reply = before ++ ⟨none, successResponse id .null⟩ :: after ∧
    ∀ reply ∈ after, reply.job = none

structure Answers (server : Server) : Prop where
  listed : ∀ job ∈ server.jobs, job.isDiagnostics = false → job ∈ server.history.requests
  requests : ∀ request ∈ server.history.requests, request.isDiagnostics = false ∧
    request.serial < server.coordinator.nextSerial
  same : ∀ job ∈ server.jobs, ∀ request ∈ server.history.requests, request.serial = job.serial → request = job
  counted : ∀ request ∈ server.history.requests,
    (server.history.sent.map fun sent => sent.reply.job).count (some request.serial) =
      if request.serial ∈ server.coordinator.controls.map TrackedControl.serial then 0 else 1
  below : ∀ sent ∈ server.history.sent, ∀ serial, sent.reply.job = some serial →
    serial < server.coordinator.nextSerial
  answers : ∀ sent ∈ server.history.sent, ∀ request ∈ server.history.requests,
    sent.reply.job = some request.serial → Answer server.history.received request sent
  closed : server.coordinator.lifecycle = .shutdownRequested → Closed server.history.sent

section Preserved

variable {server after : Server} {replies : List Reply} {coordinator : Coordinator} {history : History}

theorem Answer.more {received later : List Received} {request : Job} {sent : Sent}
    (answer : Answer received request sent) (more : ∀ entry ∈ received, entry ∈ later) : Answer later request sent := by
  cases answer with
  | closing id kind closing message => exact .closing id kind closing message
  | cancelled id kind alive explicit message => exact .cancelled id kind alive (explicit.more more) message
  | overtaken id kind alive newer message => exact .overtaken id kind alive newer message
  | current id outcome kind alive same completed message => exact .current id outcome kind alive same completed message

theorem jobs_sentBy (replies : List Reply) (coordinator : Coordinator) :
    ((replies.map (sentBy coordinator)).map fun sent => sent.reply.job) = replies.map Reply.job := by
  rw [map_map]
  rfl

theorem Closed.append {sent : List Sent} (closed : Closed sent) {more : List Sent}
    (unqueued : ∀ entry ∈ more, entry.reply.job = none) : Closed (sent ++ more) := by
  obtain ⟨before, id, rest, split, silent⟩ := closed
  refine ⟨before, id, rest ++ more.map Sent.reply, ?_, ?_⟩
  · rw [map_append, split]
    simp
  · intro reply listed
    rcases mem_append.mp listed with old | new
    · exact silent reply old
    · obtain ⟨entry, member, rfl⟩ := mem_map.mp new
      exact unqueued entry member

section

variable (answers : Answers server)
  (jobs : ∀ job ∈ after.jobs, job ∈ server.jobs ∨ job.isDiagnostics = true ∧ server.coordinator.nextSerial ≤ job.serial)
  (nextSerial : server.coordinator.nextSerial ≤ after.coordinator.nextSerial)
  (requests : after.history.requests = server.history.requests)
include answers jobs nextSerial requests

/-- A step that queues no request. -/
theorem Answers.sends (received : ∀ entry ∈ server.history.received, entry ∈ after.history.received) {more : List Sent}
    (sent : after.history.sent = server.history.sent ++ more)
    (counted : ∀ request ∈ server.history.requests, (if request.serial ∈ server.coordinator.controls.map TrackedControl.serial then 0 else 1) + (more.map fun entry => entry.reply.job).count (some request.serial) = if request.serial ∈ after.coordinator.controls.map TrackedControl.serial then 0 else 1)
    (below : ∀ entry ∈ more, ∀ serial, entry.reply.job = some serial → serial < after.coordinator.nextSerial)
    (answered : ∀ entry ∈ more, ∀ request ∈ server.history.requests, entry.reply.job = some request.serial → Answer after.history.received request entry)
    (closed : after.coordinator.lifecycle = .shutdownRequested → Closed after.history.sent) : Answers after where
  listed job listed requested := by
    rw [requests]
    rcases jobs job listed with old | ⟨diagnostics, _⟩
    · exact answers.listed job old requested
    · rw [requested] at diagnostics
      contradiction
  requests request listed := by
    rw [requests] at listed
    obtain ⟨kind, below⟩ := answers.requests request listed
    exact ⟨kind, by omega⟩
  same job listed request requested serial := by
    rw [requests] at requested
    rcases jobs job listed with old | ⟨_, new⟩
    · exact answers.same job old request requested serial
    · have below := (answers.requests request requested).2
      omega
  counted request listed := by
    rw [requests] at listed
    rw [sent, map_append, count_append, answers.counted request listed]
    exact counted request listed
  below entry listed serial same := by
    rw [sent] at listed
    rcases mem_append.mp listed with old | new
    · have before := answers.below entry old serial same
      omega
    · exact below entry new serial same
  answers entry listed request requested same := by
    rw [requests] at requested
    rw [sent] at listed
    rcases mem_append.mp listed with old | new
    · exact (answers.answers entry old request requested same).more received
    · exact answered entry new request requested same
  closed := closed

/-- A step that queues no request and answers none. -/
theorem Answers.silent
    (controls : ∀ request ∈ server.history.requests, request.serial ∈ after.coordinator.controls.map TrackedControl.serial ↔ request.serial ∈ server.coordinator.controls.map TrackedControl.serial)
    (received : ∀ entry ∈ server.history.received, entry ∈ after.history.received) {more : List Sent}
    (sent : after.history.sent = server.history.sent ++ more)
    (unanswered : ∀ entry ∈ more, ∀ request ∈ server.history.requests, entry.reply.job ≠ some request.serial)
    (moreBelow : ∀ entry ∈ more, ∀ serial, entry.reply.job = some serial → serial < after.coordinator.nextSerial)
    (closed : after.coordinator.lifecycle = .shutdownRequested → Closed after.history.sent) : Answers after := by
  refine answers.sends jobs nextSerial requests received sent ?_ moreBelow ?_ closed
  · intro request listed
    have none : (more.map fun entry => entry.reply.job).count (some request.serial) = 0 := by
      rw [count_eq_zero]
      intro member
      obtain ⟨entry, sentMore, same⟩ := mem_map.mp member
      exact unanswered entry sentMore request listed same
    simp [none, controls request listed]
  · intro entry listed request requested same
    exact absurd same (unanswered entry listed request requested)

end

theorem start_answers (tracking : Tracking server) (answers : Answers server) : Answers server.start := by
  rcases start_cases tracking.held with ⟨same, _⟩ | ⟨_, _, queue, free, started⟩
  · rw [same]
    exact answers
  · have jobs : ∀ other ∈ server.start.jobs, other ∈ server.jobs := by
      intro other listed
      obtain ⟨channel, working, finished⟩ := inFlight_nil free
      rw [started] at listed
      simp only [Server.jobs, inFlight, working, finished, channel, queue] at listed ⊢
      simp at listed ⊢
      rcases listed with later | first
      · exact .inr later
      · exact .inl first
    have nothing : server.start.history.sent = server.history.sent ++ [] := by
      rw [started, append_nil]
    refine answers.silent (fun other listed => .inl (jobs other listed)) ?_ ?_ ?_ ?_ nothing (by simp) (by simp) ?_
    · rw [started]
    · rw [started]
    · intro request _
      rw [started]
    · intro entry listed
      exact listed
    · rw [started]
      exact answers.closed

/-! ## Messages -/

section Messages

variable {message : Tree}

/-- Jobs that are old or diagnostics are no new requests. -/
theorem fresh_none (tracking : Tracking server) {pending : List Job}
    (known : ∀ job ∈ pending, job ∈ server.coordinator.pending ∨ job.isDiagnostics = true) :
    pending.filter (fun job => server.coordinator.nextSerial ≤ job.serial && !job.isDiagnostics) = [] := by
  rw [filter_eq_nil_iff]
  intro job listed
  rcases known job listed with old | diagnostics
  · have below := tracking.below job (mem_append_left _ old)
    simp
    omega
  · simp [diagnostics]

/-- A message with such jobs queues no request. -/
theorem receive_none (tracking : Tracking server)
    (pending : ∀ job ∈ coordinator.pending, job ∈ server.coordinator.pending ∨ job.isDiagnostics = true) :
    (server.receive message coordinator).requests = server.history.requests := by
  show server.history.requests ++ _ = _
  rw [fresh_none tracking pending, append_nil]

/-- A message that is answered at once, or not at all. -/
theorem unqueued_answers (answers : Answers server)
    (unqueued : ∀ reply ∈ replies, reply.job = none) (pending : coordinator.pending = server.coordinator.pending)
    (controls : coordinator.controls = server.coordinator.controls)
    (nextSerial : coordinator.nextSerial = server.coordinator.nextSerial)
    (lifecycle : Continues server.coordinator.lifecycle coordinator.lifecycle)
    (requests : history.requests = server.history.requests) (sent : history.sent = server.history.sent)
    (received : ∀ entry ∈ server.history.received, entry ∈ history.received) :
    Answers (server.send replies coordinator history) := by
  have silent : ∀ entry ∈ replies.map (sentBy coordinator), entry.reply.job = none := by
    intro entry listed
    obtain ⟨reply, member, rfl⟩ := mem_map.mp listed
    exact unqueued reply member
  have more : (server.send replies coordinator history).history.sent =
      server.history.sent ++ replies.map (sentBy coordinator) := by
    show history.sent ++ _ = _
    rw [sent]
  refine answers.silent ?_ (Nat.le_of_eq nextSerial.symm) requests ?_ received more ?_ ?_ ?_
  · intro job listed
    left
    have inPending : job ∈ coordinator.pending ++ server.inFlight := listed
    rw [pending] at inPending
    exact inPending
  · intro request _
    show request.serial ∈ coordinator.controls.map TrackedControl.serial ↔ _
    rw [controls]
  · intro entry listed request _ same
    rw [silent entry listed] at same
    contradiction
  · intro entry listed serial same
    rw [silent entry listed] at same
    contradiction
  · intro shut
    rw [more]
    exact (answers.closed (lifecycle.shut.mp shut)).append silent

theorem queued_answers (tracking : Tracking server) (answers : Answers server)
    (running : server.coordinator.lifecycle = .running) (id : Tree) (method : String) (params : Tree) :
    Answers (server.send [] (server.coordinator.queueRequest id method params)
      (server.receive message (server.coordinator.queueRequest id method params))) := by
  let request : Job := ⟨server.coordinator.nextSerial, .request id method params,
    server.coordinator.workspace.diagnosticSnapshot, server.coordinator.encoding⟩
  let queued := server.coordinator.queueRequest id method params
  have requests : (server.receive message queued).requests = server.history.requests ++ [request] := by
    show server.history.requests ++ (server.coordinator.pending ++ [request]).filter _ = _
    rw [filter_append, fresh_none tracking fun job listed => .inl listed]
    simp [request, Job.isDiagnostics]
  have requested : ∀ other ∈ (server.receive message queued).requests,
      other ∈ server.history.requests ∨ other = request := by
    intro other listed
    rw [requests, mem_append, mem_singleton] at listed
    exact listed
  have jobs : ∀ job ∈ server.coordinator.pending ++ [request] ++ server.inFlight, job ∈ server.jobs ∨ job = request := by
    intro job listed
    rw [mem_append, mem_append, mem_singleton] at listed
    rcases listed with (old | new) | flight
    · exact .inl (mem_append_left _ old)
    · exact .inr new
    · exact .inl (mem_append_right _ flight)
  have sent : (server.send [] queued (server.receive message queued)).history.sent = server.history.sent := append_nil _
  refine ⟨?_, ?_, ?_, ?_, ?_, ?_, ?_⟩
  · intro job listed kind
    show job ∈ (server.receive message queued).requests
    rw [requests]
    rcases jobs job listed with old | rfl
    · exact mem_append_left _ (answers.listed job old kind)
    · simp
  · intro other listed
    rcases requested other listed with old | rfl
    · obtain ⟨kind, below⟩ := answers.requests other old
      exact ⟨kind, Nat.lt_succ_of_lt below⟩
    · exact ⟨rfl, Nat.lt_succ_self _⟩
  · intro job listed other member serial
    rcases jobs job listed with old | rfl
    · rcases requested other member with earlier | rfl
      · exact answers.same job old other earlier serial
      · have below := tracking.below job old
        have number : server.coordinator.nextSerial = job.serial := serial
        omega
    · rcases requested other member with earlier | rfl
      · have below := (answers.requests other earlier).2
        have number : other.serial = server.coordinator.nextSerial := serial
        omega
      · rfl
  · intro other listed
    rw [sent]
    show _ = if other.serial ∈ (server.coordinator.controls ++ [_]).map TrackedControl.serial then 0 else 1
    rcases requested other listed with old | rfl
    · have different : other.serial ≠ server.coordinator.nextSerial := by
        have below := (answers.requests other old).2
        omega
      rw [answers.counted other old]
      simp [different]
    · have unanswered : (server.history.sent.map fun sent => sent.reply.job).count (some request.serial) = 0 := by
        rw [count_eq_zero]
        intro counted
        obtain ⟨entry, sentBefore, same⟩ := mem_map.mp counted
        exact Nat.lt_irrefl _ (answers.below entry sentBefore request.serial same)
      rw [unanswered]
      simp [request]
  · intro entry listed serial same
    rw [sent] at listed
    exact Nat.lt_succ_of_lt (answers.below entry listed serial same)
  · intro entry listed other member same
    rw [sent] at listed
    rcases requested other member with old | rfl
    · exact (answers.answers entry listed other old same).more (fun _ old => mem_append_left _ old)
    · exact absurd (answers.below entry listed _ same) (Nat.lt_irrefl _)
  · intro shut
    rw [show server.coordinator.lifecycle = .shutdownRequested from shut] at running
    contradiction

theorem changed_answers (tracking : Tracking server) (answers : Answers server)
    (running : server.coordinator.lifecycle = .running) (workspace : Workspace) :
    Answers (server.send [] (server.coordinator.changed workspace)
      (server.receive message (server.coordinator.changed workspace))) := by
  let diagnostics : Job := ⟨server.coordinator.nextSerial, .diagnostics, workspace.diagnosticSnapshot,
    server.coordinator.encoding⟩
  have pending : (server.coordinator.changed workspace).pending =
      (server.coordinator.pending.filter fun job => !job.isDiagnostics) ++ [diagnostics] := rfl
  have requests : (server.receive message (server.coordinator.changed workspace)).requests =
      server.history.requests := by
    apply receive_none tracking
    intro job listed
    rcases mem_append.mp listed with old | new
    · exact .inl (mem_filter.mp old).1
    · rw [mem_singleton.mp new]
      exact .inr rfl
  have sent : (server.send [] (server.coordinator.changed workspace)
      (server.receive message (server.coordinator.changed workspace))).history.sent = server.history.sent ++ [] := rfl
  refine answers.silent ?_ (Nat.le_succ _) requests ?_ (fun _ old => mem_append_left _ old) sent (by simp) (by simp) ?_
  · intro job listed
    have split : job ∈ (server.coordinator.changed workspace).pending ++ server.inFlight := listed
    rcases mem_append.mp split with queue | flight
    · rcases mem_append.mp queue with old | new
      · exact .inl (mem_append_left _ (mem_filter.mp old).1)
      · rw [mem_singleton.mp new]
        exact .inr ⟨rfl, Nat.le_refl _⟩
    · exact .inl (mem_append_right _ flight)
  · intro request requested
    obtain ⟨kind, below⟩ := answers.requests request requested
    let removed := (server.coordinator.pending.filter Job.isDiagnostics).map Job.serial
    have controls : (server.coordinator.changed workspace).controls =
        (server.coordinator.controls.filter fun control => !removed.contains control.serial) ++
          [⟨server.coordinator.nextSerial, none⟩] := rfl
    -- Only diagnostics are dropped, and they have other serial numbers.
    have kept : request.serial ∉ removed := by
      intro member
      obtain ⟨job, filtered, serial⟩ := mem_map.mp member
      obtain ⟨listed, isDiagnostics⟩ := mem_filter.mp filtered
      have same := answers.same job (mem_append_left _ listed) request requested serial.symm
      rw [← same, kind] at isDiagnostics
      contradiction
    have different : request.serial ≠ server.coordinator.nextSerial := by omega
    show request.serial ∈ (server.coordinator.changed workspace).controls.map TrackedControl.serial ↔ _
    rw [controls, map_append]
    constructor
    · intro member
      rcases mem_append.mp member with old | new
      · obtain ⟨control, filtered, serial⟩ := mem_map.mp old
        exact mem_map.mpr ⟨control, (mem_filter.mp filtered).1, serial⟩
      · exact absurd (by simpa using new) different
    · intro member
      obtain ⟨control, listed, serial⟩ := mem_map.mp member
      refine mem_append_left _ (mem_map.mpr ⟨control, mem_filter.mpr ⟨listed, ?_⟩, serial⟩)
      rw [serial]
      simpa using kept
  · intro shut
    rw [show server.coordinator.lifecycle = .shutdownRequested from shut] at running
    contradiction

/-- The jobs that are answered when the server shuts down. -/
theorem closing_jobs (self : Coordinator) :
    (self.cancelPendingRequests.1.map Reply.job).Sublist (self.controls.map fun control => some control.serial) := by
  show ((self.controls.filterMap _).map Reply.job).Sublist _
  induction self.controls with
  | nil => exact .refl _
  | cons control _ ih =>
    cases asked : control.requestId with
    | none =>
      rw [filterMap_cons_none (by simp [asked])]
      exact ih.cons _
    | some =>
      rw [filterMap_cons_some (by rw [asked]; rfl)]
      exact ih.cons_cons _

theorem mem_closing {self : Coordinator} {reply : Reply} (listed : reply ∈ self.cancelPendingRequests.1) :
    ∃ control ∈ self.controls, ∃ id, control.requestId = some id ∧
      reply = ⟨some control.serial, requestFailureResponse id .requestCancelled⟩ := by
  obtain ⟨control, member, made⟩ := mem_filterMap.mp listed
  obtain ⟨id, asked, rfl⟩ := Option.map_eq_some_iff.mp made
  exact ⟨control, member, id, asked, rfl⟩

theorem shutdown_answers (tracking : Tracking server) (answers : Answers server)
    (running : server.coordinator.lifecycle = .running) (id : Tree) :
    let closing : Coordinator := { server.coordinator.cancelPendingRequests.2 with lifecycle := .shutdownRequested }
    Answers (server.send (server.coordinator.cancelPendingRequests.1 ++ [⟨none, successResponse id .null⟩]) closing
      (server.receive message closing)) := by
  intro closing
  have alive : server.coordinator.lifecycle ≠ .shutdownRequested := by
    rw [running]
    simp
  have requests : (server.receive message closing).requests = server.history.requests := by
    apply receive_none tracking
    intro job listed
    contradiction
  have flight : ∀ job, job ∈ server.inFlight → job ∈ server.jobs := fun job listed => mem_append_right _ listed
  -- The request a control is kept for.
  have owner : ∀ control ∈ server.coordinator.controls, ∀ request ∈ server.history.requests,
      control.serial = request.serial → control = .of request := by
    intro control listed request requested serial
    obtain ⟨job, member, control_of⟩ := tracking.job_of_control alive listed
    have same : request = job := by
      apply answers.same job member request requested
      rw [← serial, ← control_of]
      rfl
    rw [same]
    exact control_of.symm
  have distinct : (server.coordinator.controls.map fun control => some control.serial).Nodup := by
    have serials : (server.coordinator.controls.map TrackedControl.serial).Nodup := by
      rw [((tracking.tracked alive).map TrackedControl.serial).nodup_iff, map_map]
      exact tracking.distinct
    have wrapped := serials.map (Option.some_injective Nat)
    rw [map_map] at wrapped
    exact wrapped
  refine answers.sends (fun job listed => .inl (flight job listed)) (Nat.le_refl _) requests
    (fun _ old => mem_append_left _ old) rfl ?_ ?_ ?_ ?_
  · intro request requested
    rw [jobs_sentBy, map_append, count_append]
    have answered : (server.coordinator.cancelPendingRequests.1.map Reply.job).count (some request.serial) =
        if request.serial ∈ server.coordinator.controls.map TrackedControl.serial then 1 else 0 := by
      have once := (closing_jobs server.coordinator).nodup distinct
      split
      · next member =>
        obtain ⟨control, listed, serial⟩ := mem_map.mp member
        have kept := owner control listed request requested serial
        have kind := (answers.requests request requested).1
        refine count_eq_one_of_mem once (mem_map.mpr ?_)
        cases asked : request.kind with
        | diagnostics => simp [Job.isDiagnostics, asked] at kind
        | request requestId =>
          refine ⟨⟨some control.serial, requestFailureResponse requestId .requestCancelled⟩, ?_, by rw [serial]⟩
          refine mem_filterMap.mpr ⟨control, listed, ?_⟩
          rw [kept]
          simp [TrackedControl.of, JobKind.requestId, asked]
      · next absent =>
        rw [count_eq_zero]
        intro member
        obtain ⟨control, listed, serial⟩ := mem_map.mp ((closing_jobs server.coordinator).subset member)
        exact absent (mem_map.mpr ⟨control, listed, Option.some.inj serial⟩)
    rw [answered]
    split <;> rfl
  · intro entry listed serial same
    obtain ⟨reply, member, rfl⟩ := mem_map.mp listed
    rcases mem_append.mp member with cancelled | last
    · obtain ⟨control, tracked, requestId, _, rfl⟩ := mem_closing cancelled
      obtain ⟨job, jobListed, control_of⟩ := tracking.job_of_control alive tracked
      rw [← Option.some.inj same, ← control_of]
      exact tracking.below job jobListed
    · rw [mem_singleton.mp last] at same
      contradiction
  · intro entry listed request requested same
    obtain ⟨reply, member, rfl⟩ := mem_map.mp listed
    rcases mem_append.mp member with cancelled | last
    · obtain ⟨control, tracked, requestId, asked, rfl⟩ := mem_closing cancelled
      rw [owner control tracked request requested (Option.some.inj same)] at asked
      exact .closing requestId asked rfl rfl
    · rw [mem_singleton.mp last] at same
      contradiction
  · intro _
    refine ⟨server.history.sent.map Sent.reply ++ server.coordinator.cancelPendingRequests.1, id, [], ?_, by simp⟩
    show (server.history.sent ++ List.map (sentBy closing) _).map Sent.reply = _
    rw [map_append, map_map, append_assoc]
    congr 1
    exact map_id _

/-- Handling a message keeps the account of the answers. -/
theorem handled_answers (tracking : Tracking server) (answers : Answers server)
    (handled : Handled server.coordinator message replies coordinator) :
    Answers (server.send replies coordinator (server.receive message coordinator)) := by
  cases handled with
  | answered unqueued _ lifecycle same =>
    have pending : coordinator.pending = server.coordinator.pending := by rw [same]
    refine unqueued_answers answers unqueued pending (by rw [same]) (by rw [same]) ?_ ?_ rfl (fun _ old => mem_append_left _ old)
    · rcases lifecycle with ⟨kept, _⟩ | initialized
      · exact .inl kept
      · exact .inr initialized
    · apply receive_none tracking
      intro job listed
      rw [pending] at listed
      exact .inl listed
  | cancelled =>
    refine unqueued_answers answers (by simp) rfl rfl rfl (.inl rfl) ?_ rfl (fun _ old => mem_append_left _ old)
    exact receive_none tracking (fun job listed => .inl listed)
  | queued running id method params => exact queued_answers tracking answers running id method params
  | changed running => exact changed_answers tracking answers running _
  | shutdown running id => exact shutdown_answers tracking answers running id

end Messages

/-! ## Results -/

section Results

variable {job : Job} {result : WorkerResult}

theorem Tracking.alive_of_tracked (tracking : Tracking server) {serial : Nat}
    (tracked : ∃ control ∈ server.coordinator.controls, control.serial = serial) :
    server.coordinator.lifecycle ≠ .shutdownRequested := by
  intro shut
  obtain ⟨control, listed, _⟩ := tracked
  rw [(tracking.dropped shut).1] at listed
  contradiction

/-- What finishing a tracked request comes to. -/
theorem finish_answer (tracking : Tracking server) {generation : Nat} {id : Tree} {outcome : Except RequestError Tree}
    (alive : server.coordinator.lifecycle ≠ .shutdownRequested)
    (finished : server.finished = some (job, .request job.serial id generation outcome)) {sent : Sent}
    (message : sent.reply.message = answer id (server.coordinator.finish job.serial generation outcome))
    (open_ : sent.closing = false) (workspace : sent.workspace = server.coordinator.workspace.diagnosticSnapshot) :
    Answer server.history.received job sent := by
  have listed := mem_jobs_finished finished
  obtain ⟨older, documents⟩ := tracking.taken job listed
  obtain ⟨invalidated, cancelled⟩ := tracking.reasoned alive job listed
  have computes := tracking.computed job _ finished
  cases computes with
  | request _ method params _ kind stopped =>
    have asked : job.kind.requestId = some id := by
      rw [kind]
      rfl
    unfold Coordinator.finish at message
    cases flag : (server.coordinator.flags job.serial).cancelled with
    | true =>
      rw [flag] at message
      exact .cancelled id asked open_ (cancelled flag) message
    | false =>
      rw [flag] at message
      by_cases current : job.snapshot.generation = server.coordinator.workspace.generation
      · -- The job was not stopped, because nothing could have stopped it.
        have completed : outcome ≠ .error .requestCancelled := by
          intro same
          have raised := stopped same
          simp only [RequestControl.isCancelled, flag, Bool.false_or] at raised
          have newer := invalidated.mp raised
          omega
        have same : sent.workspace = job.snapshot := by
          rw [workspace]
          show WorkspaceSnapshot.mk _ _ = _
          rw [← current, ← documents current]
        simp only [Bool.false_eq_true, if_false, current, ne_eq, not_true_eq_false] at message
        exact .current id outcome asked open_ same completed message
      · have newer : job.snapshot.generation < sent.workspace.generation := by
          rw [workspace]
          show job.snapshot.generation < server.coordinator.workspace.generation
          omega
        simp only [Bool.false_eq_true, if_false, ne_eq, current, not_false_eq_true, if_true] at message
        exact .overtaken id asked open_ newer message

/-- A released diagnostics job takes no request with it. -/
theorem released_controls (answers : Answers server) (listed : job ∈ server.jobs)
    (diagnostics : job.isDiagnostics = true) :
    ∀ request ∈ server.history.requests,
      request.serial ∈ (server.coordinator.release job.serial).controls.map TrackedControl.serial ↔
        request.serial ∈ server.coordinator.controls.map TrackedControl.serial := by
  intro request requested
  have different : request.serial ≠ job.serial := by
    intro serial
    have same := answers.same job listed request requested serial
    rw [← same, (answers.requests request requested).1] at diagnostics
    contradiction
  have kept : ∀ control : TrackedControl, control.serial = request.serial →
      (control ∈ (server.coordinator.release job.serial).controls ↔ control ∈ server.coordinator.controls) := by
    intro control serial
    apply mem_eraseP_of_neg
    simp only [decide_eq_true_eq]
    omega
  constructor
  · intro member
    obtain ⟨control, tracked, serial⟩ := mem_map.mp member
    exact mem_map.mpr ⟨control, (kept control serial).mp tracked, serial⟩
  · intro member
    obtain ⟨control, tracked, serial⟩ := mem_map.mp member
    exact mem_map.mpr ⟨control, (kept control serial).mpr tracked, serial⟩

/-- A result keeps the account of the answers. -/
theorem completed_answers (tracking : Tracking server) (answers : Answers server)
    (finished : server.finished = some (job, result))
    (completed : Completed server.coordinator result replies coordinator)
    (requests : history.requests = server.history.requests) (sent : history.sent = server.history.sent)
    (received : history.received = server.history.received) :
    Answers (send { server with finished := none } replies coordinator history) := by
  have listed := mem_jobs_finished finished
  have free := (tracking.alone finished).2
  have jobs : ∀ next : Coordinator, next.pending = server.coordinator.pending →
      ∀ other ∈ (send { server with finished := none } replies next history).jobs, other ∈ server.jobs := by
    intro next pending other member
    have inPending : other ∈ next.pending ++ inFlight { server with finished := none } := member
    rw [free, append_nil, pending] at inPending
    exact mem_append_left _ inPending
  have more : ∀ next : Coordinator, (send { server with finished := none } replies next history).history.sent =
      server.history.sent ++ replies.map (sentBy next) := by
    intro next
    show history.sent ++ _ = _
    rw [sent]
  have sameReceived : ∀ entry ∈ server.history.received, entry ∈ history.received := by
    intro entry member
    rw [received]
    exact member
  have computes := tracking.computed job result finished
  cases completed with
  | dropped =>
    refine answers.silent (fun other member => .inl (jobs _ rfl other member)) (Nat.le_refl _) requests
      (fun _ _ => Iff.rfl) sameReceived (more _) (by simp) (by simp) ?_
    intro shut
    rw [more]
    exact (answers.closed shut).append (by simp)
  | @silent _ _ tracked =>
    have alive := tracking.alive_of_tracked tracked
    cases computes with
    | diagnostics _ kind =>
      have diagnostics : job.isDiagnostics = true := by simp [Job.isDiagnostics, kind]
      refine answers.silent (fun other member => .inl (jobs _ rfl other member)) (Nat.le_refl _) requests
        (released_controls answers listed diagnostics) sameReceived (more _) (by simp) (by simp) ?_
      intro shut
      exact absurd shut alive
  | @published serial analysis tracked live current =>
    have alive := tracking.alive_of_tracked tracked
    cases computes with
    | diagnostics _ kind _ _ =>
      have diagnostics : job.isDiagnostics = true := by simp [Job.isDiagnostics, kind]
      have serials : ∀ request ∈ server.history.requests, job.serial ≠ request.serial := by
        intro request requested serial
        have same := answers.same job listed request requested serial.symm
        rw [← same, (answers.requests request requested).1] at diagnostics
        contradiction
      refine answers.silent (fun other member => .inl (jobs _ rfl other member)) (Nat.le_refl _) requests
        (released_controls answers listed diagnostics) sameReceived (more _) ?_ ?_ ?_
      · intro entry member request requested same
        obtain ⟨reply, replied, rfl⟩ := mem_map.mp member
        obtain ⟨document, _, rfl⟩ := mem_map.mp replied
        exact serials request requested (Option.some.inj same)
      · intro entry member serial same
        obtain ⟨reply, replied, rfl⟩ := mem_map.mp member
        obtain ⟨_, _, rfl⟩ := mem_map.mp replied
        rw [← Option.some.inj same]
        exact tracking.below job listed
      · intro shut
        exact absurd shut alive
  | @answered serial _ _ _ tracked =>
    have alive := tracking.alive_of_tracked tracked
    have jobSerial : serial = job.serial := computes.serial
    subst jobSerial
    have below := tracking.below job listed
    have distinct := tracking.distinct
    have allTracked := tracking.tracked alive
    rw [tracking.jobs_finished finished] at distinct allTracked
    have erased : (server.coordinator.release job.serial).controls.Perm
        (server.coordinator.pending.map TrackedControl.of) := released_perm distinct allTracked
    rw [map_append] at distinct
    refine answers.sends (fun other member => .inl (jobs _ rfl other member)) (Nat.le_refl _) requests sameReceived
      (more _) ?_ ?_ ?_ ?_
    · intro other old
      rw [jobs_sentBy]
      show _ = if other.serial ∈ (server.coordinator.release job.serial).controls.map TrackedControl.serial then 0 else 1
      have serials : ∀ number, number ∈ (server.coordinator.release job.serial).controls.map TrackedControl.serial ↔
          number ∈ server.coordinator.pending.map Job.serial := by
        intro number
        rw [(erased.map TrackedControl.serial).mem_iff, map_map]
        rfl
      have before : ∀ number, number ∈ server.coordinator.controls.map TrackedControl.serial ↔
          number ∈ server.coordinator.pending.map Job.serial ∨ number = job.serial := by
        intro number
        rw [((tracking.tracked alive).map TrackedControl.serial).mem_iff, map_map,
          tracking.jobs_finished finished]
        simp [TrackedControl.of]
      by_cases mine : other.serial = job.serial
      · have absent : job.serial ∉ server.coordinator.pending.map Job.serial := by
          intro member
          exact (nodup_append.mp distinct).2.2 job.serial member job.serial (by simp) rfl
        simp [before, serials, mine, absent]
      · have different : job.serial ≠ other.serial := fun same => mine same.symm
        simp [before, serials, mine, different]
    · intro entry member serial same
      obtain ⟨reply, replied, rfl⟩ := mem_map.mp member
      rw [mem_singleton.mp replied] at same
      rw [← Option.some.inj same]
      exact below
    · intro entry member other old same
      obtain ⟨_, replied, rfl⟩ := mem_map.mp member
      rw [mem_singleton.mp replied] at same ⊢
      rw [answers.same job listed other old (Option.some.inj same).symm]
      show Answer history.received job _
      rw [received]
      exact finish_answer tracking alive finished rfl (decide_eq_false alive) rfl
    · intro shut
      exact absurd shut alive

end Results

/-! ## Every order -/

/-- The worker is busy as long as something is pending. -/
def Started (server : Server) : Prop := server.coordinator.pending ≠ [] → server.coordinator.workerBusy = true

/-- What holds in every state the server reaches. -/
structure Accounted (server : Server) : Prop where
  tracking : Tracking server
  answers : Answers server
  started : Started server

theorem step_accounted (accounted : Accounted server) (step : ServerStep server after) : Accounted after := by
  obtain ⟨tracking, answers, started⟩ := accounted
  refine ⟨step_tracking tracking step, ?_, ?_⟩
  · cases step with
    | message _ _ handled =>
      have handling := handled_of _ handled
      exact start_answers (handled_tracking tracking handling) (handled_answers tracking answers handling)
    | parseError =>
      exact unqueued_answers answers (by simp) rfl rfl rfl (.inl rfl) rfl rfl (fun _ listed => listed)
    | @take _ queued idle free =>
      refine answers.silent ?_ (Nat.le_refl _) rfl (fun _ _ => .rfl) (fun _ listed => listed)
        (append_nil _).symm (by simp) (by simp) answers.closed
      intro other listed
      left
      simpa [Server.jobs, inFlight, queued, idle, free] using listed
    | @compute _ _ working =>
      refine answers.silent ?_ (Nat.le_refl _) rfl (fun _ _ => .rfl) (fun _ listed => listed)
        (append_nil _).symm (by simp) (by simp) answers.closed
      intro other listed
      left
      obtain ⟨channel, finished⟩ := tracking.computing working
      simpa [Server.jobs, inFlight, working, channel, finished] using listed
    | @complete job result _ coordinator finished completes =>
      have completed := completed_of completes
      have kept : (server.record job result).requests = server.history.requests ∧
          (server.record job result).sent = server.history.sent := by
        cases result with
        | diagnostics | request => exact ⟨rfl, rfl⟩
      have received := record_received server job result
      exact start_answers (completed_tracking tracking finished completed received)
        (completed_answers tracking answers finished completed kept.1 kept.2 received)
  · cases step with
    | message _ _ handled => exact start_started (handled_tracking tracking (handled_of _ handled))
    | parseError | take | compute => exact started
    | @complete job result _ _ finished completes =>
      exact start_started (completed_tracking tracking finished (completed_of completes) (record_received server job result))

theorem initial_accounted : Accounted .initial where
  tracking := initial_tracking
  answers := by
    refine ⟨?_, ?_, ?_, ?_, ?_, ?_, ?_⟩
    · intro job listed
      contradiction
    · intro request listed
      contradiction
    · intro job listed
      contradiction
    · intro request listed
      contradiction
    · intro sent listed
      contradiction
    · intro sent listed
      contradiction
    · intro shut
      contradiction
  started := fun some => absurd rfl some

theorem accounted_inductive : serverSystem.Inductive Accounted where
  initial server initial := by
    rw [show server = .initial from initial]
    exact initial_accounted
  step _ _ accounted step := step_accounted accounted step
  disturb _ _ _ disturbed := disturbed.elim

end Preserved

/-! ## What the client sees -/

theorem success_ne_failure (id result other : Tree) (error : RequestError) :
    successResponse id result ≠ requestFailureResponse other error := by
  simp [successResponse, requestFailureResponse, errorResponse]

theorem failure_inj {id other : Tree} {error second : RequestError}
    (same : requestFailureResponse id error = requestFailureResponse other second) : error = second := by
  cases error <;> cases second <;>
    first | rfl | simp [requestFailureResponse, errorResponse, RequestError.message] at same

/-- What an answer may be, read off the message. -/
theorem Answer.read {received : List Received} {request : Job} {sent : Sent} (answered : Answer received request sent) :
    (∃ id, request.kind.requestId = some id ∧
      ((∃ result, sent.reply.message = successResponse id result) ∨
        ∃ error, sent.reply.message = requestFailureResponse id error)) ∧
    (∀ id result, sent.reply.message = successResponse id result → sent.workspace = request.snapshot) ∧
    (∀ id, sent.reply.message = requestFailureResponse id .requestCancelled →
      sent.closing = true ∨ ExplicitlyCancelled received request) ∧
    (sent.closing = false → ¬ ExplicitlyCancelled received request →
      sent.workspace.generation ≠ request.snapshot.generation →
      ∃ id, request.kind.requestId = some id ∧ sent.reply.message = requestFailureResponse id .contentModified) := by
  cases answered with
  | closing id kind closing message =>
    refine ⟨⟨id, kind, .inr ⟨_, message⟩⟩, ?_, fun _ _ => .inl closing, ?_⟩
    · intro other result same
      rw [message] at same
      exact absurd same.symm (success_ne_failure _ _ _ _)
    · intro alive
      rw [closing] at alive
      contradiction
  | cancelled id kind _ explicit message =>
    refine ⟨⟨id, kind, .inr ⟨_, message⟩⟩, ?_, fun _ _ => .inr explicit, ?_⟩
    · intro other result same
      rw [message] at same
      exact absurd same.symm (success_ne_failure _ _ _ _)
    · intro _ unasked
      exact absurd explicit unasked
  | overtaken id kind alive newer message =>
    refine ⟨⟨id, kind, .inr ⟨_, message⟩⟩, ?_, ?_, fun _ _ _ => ⟨id, kind, message⟩⟩
    · intro other result same
      rw [message] at same
      exact absurd same.symm (success_ne_failure _ _ _ _)
    · intro other same
      rw [message] at same
      have equal := failure_inj same
      contradiction
  | current id outcome kind _ same completed message =>
    refine ⟨⟨id, kind, ?_⟩, fun _ _ _ => same, ?_, ?_⟩
    · cases outcome with
      | ok result => exact .inl ⟨result, message⟩
      | error error => exact .inr ⟨error, message⟩
    · intro other cancelled
      rw [message] at cancelled
      cases outcome with
      | ok => exact absurd cancelled (success_ne_failure _ _ _ _)
      | error =>
        have equal := failure_inj cancelled
        rw [equal] at completed
        exact absurd rfl completed
    · intro _ _ different
      rw [same] at different
      exact absurd rfl different

theorem Accounted.busy {server : Server} (accounted : Accounted server)
    (tracked : server.coordinator.controls ≠ []) : server.inFlight ≠ [] := by
  intro free
  obtain ⟨tracking, _, started⟩ := accounted
  have alive : server.coordinator.lifecycle ≠ .shutdownRequested := by
    intro shut
    exact tracked (tracking.dropped shut).1
  have pending : server.coordinator.pending = [] := by
    by_contra some
    have held := tracking.held
    rw [free, started some] at held
    contradiction
  have all := tracking.tracked alive
  rw [Server.jobs, pending, free] at all
  exact tracked all.eq_nil

/-- In every state the server reaches, whatever the order of messages and results.

A queued request has no answer while it is tracked and exactly one afterwards; as long as
anything is tracked the worker holds a job, and when the server shuts down nothing is.  An
answer has the id of its request; it is a success only when the workspace is still the one
the request was queued with, says that the request was cancelled only when the client asked
for it or the server shuts down, and otherwise says so when the workspace has changed.
After the answer to the shutdown no request is answered, and before it the tracked controls
are those of the pending jobs and of the job with the worker. -/
theorem answers_exactly_once (server : Server) (reachable : serverSystem.Reachable server) :
    (∀ request ∈ server.history.requests,
      (server.history.sent.map fun sent => sent.reply.job).count (some request.serial) =
        if request.serial ∈ server.coordinator.controls.map TrackedControl.serial then 0 else 1) ∧
    (server.coordinator.controls ≠ [] → server.inFlight ≠ []) ∧
    (∀ sent ∈ server.history.sent, ∀ request ∈ server.history.requests, sent.reply.job = some request.serial →
      (∃ id, request.kind.requestId = some id ∧
        ((∃ result, sent.reply.message = successResponse id result) ∨
          ∃ error, sent.reply.message = requestFailureResponse id error)) ∧
      (∀ id result, sent.reply.message = successResponse id result → sent.workspace = request.snapshot) ∧
      (∀ id, sent.reply.message = requestFailureResponse id .requestCancelled →
        sent.closing = true ∨ ExplicitlyCancelled server.history.received request) ∧
      (sent.closing = false → ¬ ExplicitlyCancelled server.history.received request →
        sent.workspace.generation ≠ request.snapshot.generation →
        ∃ id, request.kind.requestId = some id ∧
          sent.reply.message = requestFailureResponse id .contentModified)) ∧
    (server.coordinator.lifecycle = .shutdownRequested →
      server.coordinator.controls = [] ∧ Closed server.history.sent) ∧
    (server.coordinator.lifecycle ≠ .shutdownRequested →
      server.coordinator.controls.Perm ((server.coordinator.pending ++ server.inFlight).map .of)) ∧
    ((server.coordinator.pending ++ server.inFlight).map Job.serial).Nodup ∧ server.inFlight.length ≤ 1 := by
  have accounted := accounted_inductive.reachable reachable
  have held := accounted.tracking.held
  refine ⟨accounted.answers.counted, accounted.busy, ?_, ?_, accounted.tracking.tracked, accounted.tracking.distinct, ?_⟩
  · intro sent listed request requested same
    exact (accounted.answers.answers sent listed request requested same).read
  · intro shut
    exact ⟨(accounted.tracking.dropped shut).1, accounted.answers.closed shut⟩
  · rw [held]
    split <;> omega

/-- A hover request right after the server was set up is tracked and not yet answered. -/
theorem answers_exactly_once_hover : ∃ server request, serverSystem.Reachable server ∧
    server.history.requests = [request] ∧ server.coordinator.controls = [⟨0, some (count 2)⟩] ∧
      (server.history.sent.map fun sent => sent.reply.job).count (some request.serial) = 0 := by
  let host : Host := ⟨fun _ => none, fun _ => .error "", fun _ => true⟩
  let setUp : Tree := .object [("id", count 1), ("jsonrpc", .string "2.0"), ("method", .string "initialize"),
    ("params", .object [])]
  let hover : Tree := .object [("id", count 2), ("jsonrpc", .string "2.0"),
    ("method", .string "textDocument/hover")]
  let answered := Coordinator.handle host setUp .new
  let ready : Server := Server.initial.proceed answered.1.output answered.2 (Server.initial.receive setUp answered.2)
  let queued := Coordinator.handle host hover ready.coordinator
  let asked : Server := ready.proceed queued.1.output queued.2 (ready.receive hover queued.2)
  have first : serverSystem.step .initial ready := ServerStep.message host setUp rfl rfl
  have second : serverSystem.step ready asked := ServerStep.message host hover rfl rfl
  have reachable : serverSystem.Reachable asked := ⟨.initial, 2, 0, rfl, .step (.step (.refl _) first) second⟩
  have requests : asked.history.requests = [⟨0, .request (count 2) "textDocument/hover" .null, ⟨0, ∅⟩, .utf16⟩] := rfl
  have controls : asked.coordinator.controls = [⟨0, some (count 2)⟩] := rfl
  have counted := (answers_exactly_once asked reachable).1
  rw [requests, controls] at counted
  exact ⟨asked, _, reachable, requests, controls, (counted _ (by simp)).trans (by simp)⟩

end Opaal.Lsp
