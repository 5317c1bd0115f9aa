import Opaal.Lsp.Coordinator
import Opaal.Machine.System

/-!
# The server as a system

Client messages, the worker and the coordinator take steps in any order.  What the worker
makes of a job is left open, but for this: it reports a stopped job only after a flag of
the job was raised, and its analysis has the generation of its snapshot.  A history records
what was received, queued and sent.
-/

namespace Opaal.Lsp

open Opaal.Json (Tree Members)

namespace Coordinator

/-- Hand the first pending job to an idle worker through its channel. -/
def startNext (self : Coordinator) (channel : Option Job) : Coordinator × Option Job :=
  if self.workerBusy then (self, channel)
  else
    match self.pending with
    | [] => (self, channel)
    | job :: pending =>
      match channel with
      | some _ => ({ self with pending := job :: pending }, channel)
      | none => ({ self with pending := pending, workerBusy := true }, some job)

end Coordinator

/-- A message that was sent and the workspace at that time. -/
structure Sent where
  reply : Reply
  workspace : WorkspaceSnapshot
  /-- Sent while the server shuts down. -/
  closing : Bool

structure Received where
  message : Tree
  /-- The serial number the next job would have got. -/
  nextSerial : Nat

/-- The analysis of a generation of the workspace and what became of it. -/
structure Analyzed where
  generation : Nat
  result : Except String (Option DiagnosticAnalysis)

structure History where
  received : List Received
  requests : List Job
  sent : List Sent
  analyzed : List Analyzed
  accepted : Option DiagnosticAnalysis

structure Server where
  coordinator : Coordinator
  /-- The job on its way to the worker. -/
  channel : Option Job
  working : Option Job
  /-- The job the worker is done with and its result on the way back. -/
  finished : Option (Job × WorkerResult)
  history : History

namespace Server

def initial : Server := ⟨.new, none, none, none, ⟨[], [], [], [], none⟩⟩

def start (server : Server) : Server :=
  let started := server.coordinator.startNext server.channel
  { server with coordinator := started.1, channel := started.2 }

/-- A message as it is sent by the coordinator in this state. -/
def sentBy (coordinator : Coordinator) (reply : Reply) : Sent :=
  ⟨reply, coordinator.workspace.diagnosticSnapshot, coordinator.lifecycle = .shutdownRequested⟩

/-- The coordinator has sent its replies. -/
def send (server : Server) (replies : List Reply) (coordinator : Coordinator) (history : History) : Server :=
  { server with
    coordinator := coordinator
    history := { history with sent := history.sent ++ replies.map (sentBy coordinator) } }

/-- Messages that the coordinator sends, and the next job is started. -/
def proceed (server : Server) (replies : List Reply) (coordinator : Coordinator) (history : History) : Server :=
  (server.send replies coordinator history).start

/-- The history with a message and the requests it queued. -/
def receive (server : Server) (message : Tree) (after : Coordinator) : History :=
  { server.history with
    received := server.history.received ++ [⟨message, server.coordinator.nextSerial⟩]
    requests := server.history.requests ++
      after.pending.filter fun job => server.coordinator.nextSerial ≤ job.serial && !job.isDiagnostics }

/-- The history with the end of a job. -/
def record (server : Server) (job : Job) (result : WorkerResult) : History :=
  match result with
  | .request _ _ _ _ => server.history
  | .diagnostics serial result =>
    { server.history with
      analyzed := server.history.analyzed ++ [⟨job.snapshot.generation, result⟩]
      accepted :=
        let (tracked, self) := server.coordinator.takeControl serial
        match result with
        | .ok (some analysis) =>
          if tracked && !(self.flags serial).isCancelled && analysis.generation = self.workspace.generation then
            some analysis
          else server.history.accepted
        | _ => server.history.accepted }

end Server

/-- What the worker may make of a job whose flags are these. -/
inductive Computes (control : RequestControl) (job : Job) : WorkerResult → Prop where
  | diagnostics (result : Except String (Option DiagnosticAnalysis)) (kind : job.kind = .diagnostics)
      (stopped : result = .ok none → control.isCancelled = true)
      (generation : ∀ analysis, result = .ok (some analysis) → analysis.generation = job.snapshot.generation) :
      Computes control job (.diagnostics job.serial result)
  | request (id : Tree) (method : String) (params : Tree) (outcome : Except RequestError Tree)
      (kind : job.kind = .request id method params)
      (stopped : outcome = .error .requestCancelled → control.isCancelled = true) :
      Computes control job (.request job.serial id job.snapshot.generation outcome)

inductive ServerStep : Server → Server → Prop where
  | message {server : Server} (host : Host) (message : Tree) {action : Action} {after : Coordinator}
      (handled : server.coordinator.handle host message = (action, after)) (stays : action.exit = none) :
      ServerStep server (server.proceed action.output after (server.receive message after))
  | parseError {server : Server} :
      ServerStep server (server.send [⟨none, errorResponse .null .parseError "Parse error"⟩] server.coordinator
        server.history)
  | take {server : Server} {job : Job} (queued : server.channel = some job) (idle : server.working = none)
      (free : server.finished = none) : ServerStep server { server with channel := none, working := some job }
  | compute {server : Server} {job : Job} {result : WorkerResult} (working : server.working = some job)
      (computes : Computes (server.coordinator.flags job.serial) job result) :
      ServerStep server { server with working := none, finished := some (job, result) }
  | complete {server : Server} {job : Job} {result : WorkerResult} {replies : List Reply} {after : Coordinator}
      (finished : server.finished = some (job, result))
      (completes : server.coordinator.complete result = (replies, after)) :
      ServerStep server
        (Server.proceed { server with finished := none } replies after (server.record job result))

/-- The server under every order of messages and of the worker's steps. -/
def serverSystem : Machine.System Server where
  initial server := server = .initial
  step := ServerStep
  disturb _ _ := False

/-! ## What a message does -/

/-- The request a message asks to cancel. -/
def cancelTarget (message : Tree) : Option Tree := do
  let object ← message.asObject
  if (object.get? "jsonrpc").bind Tree.asStr = some "2.0" ∧ object.get? "id" = none ∧
      (object.get? "method").bind Tree.asStr = some "$/cancelRequest" then
    ((object.get? "params").bind fun params => member params "id").filter validId
  else none

/-- Everything a message can do to the coordinator. -/
inductive Handled (self : Coordinator) (message : Tree) : List Reply → Coordinator → Prop where
  | answered {replies : List Reply} {after : Coordinator} (unqueued : ∀ reply ∈ replies, reply.job = none)
      (responses : ∀ reply ∈ replies, member reply.message "method" = none)
      (lifecycle : after.lifecycle = self.lifecycle ∧ after.relatedInformation = self.relatedInformation ∨
        self.lifecycle = .waitingForInitialize ∧ after.lifecycle = .running)
      (same : after = { self with
        lifecycle := after.lifecycle, encoding := after.encoding, relatedInformation := after.relatedInformation }) :
      Handled self message replies after
  | cancelled {target : Tree} (named : cancelTarget message = some target) :
      Handled self message [] (self.raise (fun tracked => tracked.requestId = some target) Coordinator.cancel)
  | queued (running : self.lifecycle = .running) (id : Tree) (method : String) (params : Tree) :
      Handled self message [] (self.queueRequest id method params)
  | changed (running : self.lifecycle = .running) {workspace : Workspace} (changes : self.workspace.Changed workspace) :
      Handled self message [] (self.changed workspace)
  | shutdown (running : self.lifecycle = .running) (id : Tree) :
      Handled self message (self.cancelPendingRequests.1 ++ [⟨none, successResponse id .null⟩])
        { self.cancelPendingRequests.2 with lifecycle := .shutdownRequested }

section Handling

variable {self : Coordinator} {message : Tree}

theorem Handled.nothing : Handled self message [] self := .answered (by simp) (by simp) (.inl ⟨rfl, rfl⟩) rfl

/-- A response is sent and nothing else happens. -/
theorem Handled.responded {response : Tree} (responds : member response "method" = none) :
    Handled self message (Action.response response).output self := by
  refine .answered ?_ ?_ (.inl ⟨rfl, rfl⟩) rfl
  · simp [Action.response]
  · simp [Action.response, responds]

theorem Handled.refused (id : Option Tree) (code : ErrorCode) (text : String) :
    Handled self message (requestError id code text).output self := by
  cases id with
  | none => exact .nothing
  | some id => exact .responded rfl

theorem cancelRequest_handled {object : Members} (version : (object.get? "jsonrpc").bind Tree.asStr = some "2.0")
    (method : (object.get? "method").bind Tree.asStr = some "$/cancelRequest") :
    Handled self (.object object) (self.cancelRequest object (object.get? "id")).1.output
      (self.cancelRequest object (object.get? "id")).2 := by
  unfold Coordinator.cancelRequest
  split
  · exact .refused _ _ _
  · next absent =>
    split
    · exact .nothing
    · next target named =>
      have silent : object.get? "id" = none := by simpa using absent
      apply Handled.cancelled
      simp [cancelTarget, Tree.asObject, version, method, silent, named]

theorem notified_handled {id : Option Tree} {handled : Coordinator} (handles : self = handled ∨
    ∃ workspace, self.workspace.Changed workspace ∧ handled = self.changed workspace)
    (running : self.lifecycle = .running) :
    Handled self message (Coordinator.notified id self handled).1.output (Coordinator.notified id self handled).2 := by
  unfold Coordinator.notified
  split
  · exact .refused _ _ _
  · rcases handles with rfl | ⟨workspace, changes, rfl⟩
    · exact .nothing
    · exact .changed running changes

variable (host : Host) (object : Members)

theorem didOpen_changed (self : Coordinator) :
    self = self.didOpen host object ∨
      ∃ workspace, self.workspace.Changed workspace ∧ self.didOpen host object = self.changed workspace := by
  unfold Coordinator.didOpen
  simp only
  split
  · exact .inl rfl
  · split
    · next opened => exact .inr ⟨_, openDocument_changed opened, rfl⟩
    · exact .inl rfl

theorem didChange_changed (self : Coordinator) :
    self = self.didChange host object ∨
      ∃ workspace, self.workspace.Changed workspace ∧ self.didChange host object = self.changed workspace := by
  unfold Coordinator.didChange
  simp only
  split
  · exact .inl rfl
  · split
    · next applied => exact .inr ⟨_, changeDocument_changed applied, rfl⟩
    · exact .inl rfl
    · exact .inl rfl

theorem didClose_changed (self : Coordinator) :
    self = self.didClose host object ∨
      ∃ workspace, self.workspace.Changed workspace ∧ self.didClose host object = self.changed workspace := by
  unfold Coordinator.didClose
  simp only
  split
  · exact .inl rfl
  · split
    · next closed => exact .inr ⟨_, closeDocument_changed closed, rfl⟩
    · exact .inl rfl

theorem beforeInitialize_handled (method : String) (object : Members) (id : Option Tree)
    (waiting : self.lifecycle = .waitingForInitialize) :
    Handled self message (self.beforeInitialize host method object id).1.output
      (self.beforeInitialize host method object id).2 := by
  unfold Coordinator.beforeInitialize
  split
  · exact .refused _ _ _
  · split
    · exact .nothing
    · split
      · exact .responded rfl
      · split
        · exact .responded rfl
        · split
          · exact .responded rfl
          · refine .answered ?_ ?_ (.inr ⟨waiting, rfl⟩) rfl
            · simp [Action.response]
            · intro reply listed
              rw [List.mem_singleton.mp listed]
              rfl

theorem running_handled (method : String) (object : Members) (id : Option Tree) (running : self.lifecycle = .running) :
    Handled self message (self.running host method object id).1.output (self.running host method object id).2 := by
  unfold Coordinator.running
  split
  · unfold notificationOnly
    split
    · exact .refused _ _ _
    · exact .nothing
  · split
    · split
      · exact .nothing
      · exact .shutdown running _
    · split
      · simp only
        split
        · exact .refused _ _ _
        · exact .refused _ _ _
      · split
        · exact notified_handled (didOpen_changed host object self) running
        · split
          · exact notified_handled (didChange_changed host object self) running
          · split
            · exact notified_handled (didClose_changed host object self) running
            · split
              · split
                · exact .nothing
                · exact .queued running _ _ _
              · exact .refused _ _ _

/-- Everything a message can do to the coordinator is one of the five things. -/
theorem handle_handled (message : Tree) (self : Coordinator) :
    Handled self message (self.handle host message).1.output (self.handle host message).2 := by
  unfold Coordinator.handle
  cases message with
  | object object =>
    unfold Coordinator.handleObject
    simp only
    split
    · exact .responded rfl
    · next valid =>
      split
      · exact .responded rfl
      · next method named =>
        split
        · exact .refused _ _ _
        · split
          · split
            · exact .nothing
            · exact .refused _ _ _
          · split
            · next cancels =>
              have version : (Members.get? object "jsonrpc").bind Tree.asStr = some "2.0" := by
                by_contra other
                apply valid
                simp [other]
              rw [cancels] at named
              exact cancelRequest_handled version named
            · split
              · next waiting => exact beforeInitialize_handled host _ object _ waiting
              · next running => exact running_handled host _ object _ running
              · exact .refused _ _ _
  | null | bool | number | string | array => exact .responded rfl

theorem handled_of {action : Action} {after : Coordinator} (handled : self.handle host message = (action, after)) :
    Handled self message action.output after := by
  have handling := handle_handled host message self
  rwa [handled] at handling

end Handling

/-! ## What a result does -/

/-- The worker is idle and the job is no longer tracked. -/
def Coordinator.release (self : Coordinator) (serial : Nat) : Coordinator :=
  { self with workerBusy := false, controls := self.controls.eraseP fun tracked => tracked.serial = serial }

/-- The answer to a request. -/
def answer (id : Tree) (outcome : Except RequestError Tree) : Tree :=
  match outcome with
  | .ok result => successResponse id result
  | .error error => requestFailureResponse id error

/-- Everything a result can do to the coordinator. -/
inductive Completed (self : Coordinator) : WorkerResult → List Reply → Coordinator → Prop where
  | dropped {result : WorkerResult} (untracked : ∀ control ∈ self.controls, control.serial ≠ result.serial) :
      Completed self result [] { self with workerBusy := false }
  | silent {serial : Nat} {result : Except String (Option DiagnosticAnalysis)}
      (tracked : ∃ control ∈ self.controls, control.serial = serial)
      (useless : (self.flags serial).isCancelled = true ∨ ∀ analysis, result = .ok (some analysis) →
        analysis.generation ≠ self.workspace.generation) :
      Completed self (.diagnostics serial result) [] (self.release serial)
  | published {serial : Nat} {analysis : DiagnosticAnalysis}
      (tracked : ∃ control ∈ self.controls, control.serial = serial)
      (live : (self.flags serial).isCancelled = false) (current : analysis.generation = self.workspace.generation) :
      Completed self (.diagnostics serial (.ok (some analysis)))
        (((Std.ExtTreeSet.ofList (self.workspace.published.keys ++
          (Workspace.collectDocuments analysis.documents).keys)).toList.filterMap
            (self.workspace.difference (Workspace.collectDocuments analysis.documents))).map fun document =>
              ⟨some serial, diagnosticMessage self.relatedInformation document⟩)
        { self.release serial with
          workspace := { self.workspace with published := Workspace.collectDocuments analysis.documents } }
  | answered {serial generation : Nat} {id : Tree} {outcome : Except RequestError Tree}
      (tracked : ∃ control ∈ self.controls, control.serial = serial) :
      Completed self (.request serial id generation outcome)
        [⟨some serial, answer id (self.finish serial generation outcome)⟩] (self.release serial)

theorem takeControl_cases (self : Coordinator) (serial : Nat) :
    (∃ control ∈ self.controls, control.serial = serial) ∧ self.takeControl serial = (true,
      { self with controls := self.controls.eraseP fun tracked => tracked.serial = serial }) ∨
    (∀ control ∈ self.controls, control.serial ≠ serial) ∧ self.takeControl serial = (false, self) := by
  unfold Coordinator.takeControl
  split
  · next tracked =>
    obtain ⟨control, listed, same⟩ := List.any_eq_true.mp tracked
    exact .inl ⟨⟨control, listed, of_decide_eq_true same⟩, rfl⟩
  · next untracked =>
    right
    refine ⟨?_, rfl⟩
    intro control listed same
    apply untracked
    exact List.any_eq_true.mpr ⟨control, listed, decide_eq_true same⟩

theorem complete_diagnostics {self idle : Coordinator} (entered : idle = { self with workerBusy := false })
    (serial : Nat) (result : Except String (Option DiagnosticAnalysis)) :
    self.complete (.diagnostics serial result) =
      if !(idle.takeControl serial).1 || ((idle.takeControl serial).2.flags serial).isCancelled then
        ([], (idle.takeControl serial).2)
      else
        match result with
        | .ok (some analysis) =>
          match (idle.takeControl serial).2.workspace.publishDiagnostics analysis with
          | (.published documents, workspace) =>
            (documents.map fun document =>
              ⟨some serial, diagnosticMessage (idle.takeControl serial).2.relatedInformation document⟩,
              { (idle.takeControl serial).2 with workspace := workspace })
          | (.stale, workspace) => ([], { (idle.takeControl serial).2 with workspace := workspace })
        | .ok none | .error _ => ([], (idle.takeControl serial).2) := by
  subst entered
  rfl

/-- Everything a result can do to the coordinator is one of the four things. -/
theorem complete_completed (result : WorkerResult) (self : Coordinator) :
    Completed self result (self.complete result).1 (self.complete result).2 := by
  let idle : Coordinator := { self with workerBusy := false }
  cases result with
  | diagnostics serial result =>
    rw [complete_diagnostics (show idle = { self with workerBusy := false } from rfl)]
    rcases takeControl_cases idle serial with ⟨tracked, taken⟩ | ⟨untracked, taken⟩
    · rw [taken]
      split
      · next cancelled => exact .silent tracked (.inl cancelled)
      · next live =>
        have active : (self.flags serial).isCancelled = false := by simpa using live
        split
        · next analysis =>
          unfold Workspace.publishDiagnostics
          by_cases current : analysis.generation = self.workspace.generation
          · simp only [ne_eq, idle, current, not_true_eq_false, if_false]
            exact .published tracked active current
          · simp only [ne_eq, idle, current, not_false_eq_true, if_true]
            refine .silent tracked (.inr ?_)
            intro other same
            cases same
            exact current
        all_goals exact .silent tracked (.inr (by simp))
    · rw [taken]
      exact .dropped untracked
  | request serial id generation outcome =>
    have unfolded : self.complete (.request serial id generation outcome) =
        if !(idle.takeControl serial).1 then ([], (idle.takeControl serial).2)
        else ([⟨some serial, answer id ((idle.takeControl serial).2.finish serial generation outcome)⟩],
          (idle.takeControl serial).2) := rfl
    rw [unfolded]
    rcases takeControl_cases idle serial with ⟨tracked, taken⟩ | ⟨untracked, taken⟩
    · rw [taken]
      exact .answered tracked
    · rw [taken]
      exact .dropped untracked

theorem completed_of {self after : Coordinator} {result : WorkerResult} {replies : List Reply}
    (completes : self.complete result = (replies, after)) : Completed self result replies after := by
  have completed := complete_completed result self
  rwa [completes] at completed

/-! ## Who owns a module -/

section Owners

variable {server after : Server} {self next : Coordinator} {message : Tree}

theorem start_workspace (server : Server) : server.start.coordinator.workspace = server.coordinator.workspace := by
  unfold Server.start Coordinator.startNext
  grind

theorem handled_owned {replies : List Reply} (owned : self.workspace.Owned) (handled : Handled self message replies next) :
    next.workspace.Owned := by
  cases handled with
  | answered _ _ _ same =>
    rw [same]
    exact owned
  | changed _ changes => exact changes.owned owned
  | cancelled | queued | shutdown => exact owned

theorem completed_owned {result : WorkerResult} {replies : List Reply} (owned : self.workspace.Owned)
    (completed : Completed self result replies next) : next.workspace.Owned := by
  cases completed with
  | dropped | silent | answered => exact owned
  | published => exact ⟨owned.owner, owned.dated, owned.apart⟩

theorem step_owned (owned : server.coordinator.workspace.Owned) (step : ServerStep server after) :
    after.coordinator.workspace.Owned := by
  cases step with
  | message _ _ handled =>
    rw [Server.proceed, start_workspace]
    exact handled_owned owned (handled_of _ handled)
  | parseError | take | compute => exact owned
  | complete _ completes =>
    rw [Server.proceed, start_workspace]
    exact completed_owned owned (completed_of completes)

theorem owned_inductive : serverSystem.Inductive fun server => server.coordinator.workspace.Owned where
  initial server initial := by
    rw [show server = .initial from initial]
    constructor <;> simp [Server.initial, Coordinator.new, Workspace.new]
  step _ _ owned step := step_owned owned step
  disturb _ _ _ disturbed := disturbed.elim

end Owners

/-- A server that was set up and asked to open a document. -/
theorem opened_reachable : ∃ server job, serverSystem.Reachable server ∧ server.coordinator.lifecycle = .running ∧
    server.coordinator.workspace.owners = [(⟨[47]⟩, "file:///a")] ∧ server.channel = some job := by
  let host : Host := ⟨some, fun _ => .ok (⟨[47]⟩, ⟨[47]⟩, false), fun _ => true⟩
  let setUp : Tree := .object [("id", count 1), ("jsonrpc", .string "2.0"), ("method", .string "initialize"),
    ("params", .object [])]
  let opening : Tree := .object [("jsonrpc", .string "2.0"), ("method", .string "textDocument/didOpen"),
    ("params", .object [("textDocument", .object [("text", .string ""), ("uri", .string "file:///a"),
      ("version", count 1)])])]
  have reachable : serverSystem.Reachable _ := ⟨.initial, 2, 0, rfl,
    .step (.step (.refl _) (ServerStep.message host setUp rfl rfl)) (ServerStep.message host opening rfl rfl)⟩
  exact ⟨_, _, reachable, rfl, rfl, rfl⟩

/-- Whatever messages arrive and whatever the file system and the worker answer, no module is open twice: the owners
are the open documents, each of its own module and of its own generation, none later than the workspace. -/
theorem open_documents_owned (server : Server) (reachable : serverSystem.Reachable server) :
    server.coordinator.workspace.Owned := owned_inductive.reachable reachable

theorem open_documents_owned_opened : ∃ server, serverSystem.Reachable server ∧ server.coordinator.workspace.Owned ∧
    server.coordinator.workspace.owners = [(⟨[47]⟩, "file:///a")] := by
  obtain ⟨server, _, reachable, _, owners, _⟩ := opened_reachable
  exact ⟨server, reachable, open_documents_owned server reachable, owners⟩

end Opaal.Lsp
