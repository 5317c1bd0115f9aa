import Opaal.Lsp.Answers

/-!
# Published diagnostics

Only differences are published.  A client that keeps, for every document, the list of the
last message about it sees exactly the diagnostics of the analysis that was accepted last;
and when the server is at rest that is the analysis of the documents as they are.
-/

namespace Opaal.Lsp

open List

open Opaal.Json (Tree)
open Server

/-! ## The client -/

/-- The document a message is about and its diagnostics. -/
def readPublication (message : Tree) : Option (DocumentUri × List Tree) := do
  let method ← (member message "method").bind Tree.asStr
  if method = "textDocument/publishDiagnostics" then
    let params ← member message "params"
    let uri ← (member params "uri").bind Tree.asStr
    let diagnostics ← (member params "diagnostics").bind Tree.asArray
    return (uri, diagnostics)
  else none

/-- What a client shows for each document. -/
abbrev Shown := DocumentUri → List Tree

/-- A message replaces the list of its document. -/
def showMessage (shown : Shown) (message : Tree) : Shown :=
  match readPublication message with
  | some (uri, diagnostics) => Function.update shown uri diagnostics
  | none => shown

def replay (shown : Shown) (messages : List Tree) : Shown := messages.foldl showMessage shown

/-- The diagnostics of a published document, and none when there is no such document. -/
def listed (published : Std.ExtTreeMap DocumentUri PublishedDocument) (uri : DocumentUri) : List WorkspaceDiagnostic :=
  (published[uri]?.map PublishedDocument.diagnostics).getD []

/-- The diagnostics of the analysis that was accepted last. -/
def acceptedDocuments (accepted : Option DiagnosticAnalysis) : Std.ExtTreeMap DocumentUri PublishedDocument :=
  match accepted with
  | none => ∅
  | some analysis => Workspace.collectDocuments analysis.documents

theorem readPublication_response {message : Tree} (response : member message "method" = none) :
    readPublication message = none := by
  simp [readPublication, response]

theorem readPublication_diagnostics (related : Bool) (document : DiagnosticDocument) :
    readPublication (diagnosticMessage related document) =
      some (document.uri, document.diagnostics.map (diagnosticValue related)) := by
  obtain ⟨_, version, _⟩ := document
  cases version with
  | none | some => rfl

theorem replay_append (shown : Shown) (first second : List Tree) :
    replay shown (first ++ second) = replay (replay shown first) second := foldl_append

/-- Messages that are no publications change nothing. -/
theorem replay_responses {messages : List Tree} (responses : ∀ message ∈ messages, readPublication message = none)
    (shown : Shown) : replay shown messages = shown := by
  induction messages generalizing shown with
  | nil => rfl
  | cons message messages ih =>
    have first : showMessage shown message = shown := by
      simp [showMessage, responses message (by simp)]
    show replay (showMessage shown message) messages = shown
    rw [first]
    exact ih (fun other later => responses other (by simp [later])) shown

/-! ## Differences -/

section Differences

variable (self : Workspace) (next : Std.ExtTreeMap DocumentUri PublishedDocument) (related : Bool)

theorem difference_uri {uri : DocumentUri} {document : DiagnosticDocument}
    (differs : self.difference next uri = some document) : document.uri = uri := by
  unfold Workspace.difference at differs
  split at differs
  all_goals
    split at differs
    · cases differs
      rfl
    · contradiction

/-- Each document is replaced by what its difference says, when it has one. -/
theorem replay_differences (uris : List DocumentUri) (distinct : uris.Nodup) (shown : Shown) (uri : DocumentUri) :
    replay shown ((uris.filterMap (self.difference next)).map (diagnosticMessage related)) uri =
      if uri ∈ uris then
        match self.difference next uri with
        | some document => document.diagnostics.map (diagnosticValue related)
        | none => shown uri
      else shown uri := by
  induction uris generalizing shown with
  | nil => rfl
  | cons first _ ih =>
    obtain ⟨absent, rest⟩ := nodup_cons.mp distinct
    cases differs : self.difference next first with
    | none =>
      rw [filterMap_cons_none differs, ih rest]
      by_cases same : uri = first
      · rw [same]
        simp [absent, differs]
      · simp [same]
    | some document =>
      have sameUri := difference_uri self next differs
      have shownNext : showMessage shown (diagnosticMessage related document) =
          Function.update shown first (document.diagnostics.map (diagnosticValue related)) := by
        simp [showMessage, readPublication_diagnostics, sameUri]
      rw [filterMap_cons_some differs, map_cons]
      show replay (showMessage shown (diagnosticMessage related document)) _ uri = _
      rw [shownNext, ih rest]
      by_cases same : uri = first
      · rw [same]
        simp [absent, differs]
      · simp [same]

/-- Publishing the differences shows the next documents in place of the former. -/
theorem replay_publication {shown : Shown}
    (before : ∀ uri, shown uri = (listed self.published uri).map (diagnosticValue related)) (uri : DocumentUri) :
    replay shown (((Std.ExtTreeSet.ofList (self.published.keys ++ next.keys)).toList.filterMap
      (self.difference next)).map (diagnosticMessage related)) uri =
        (listed next uri).map (diagnosticValue related) := by
  have distinct : ((Std.ExtTreeSet.ofList (self.published.keys ++ next.keys)).toList).Nodup :=
    Std.ExtTreeSet.distinct_toList.imp Std.ReflCmp.ne_of_cmp_ne_eq
  have member : uri ∈ (Std.ExtTreeSet.ofList (self.published.keys ++ next.keys)).toList ↔
      uri ∈ self.published ∨ uri ∈ next := by
    rw [Std.ExtTreeSet.mem_toList, Std.ExtTreeSet.mem_ofList, contains_iff_mem, mem_append,
      Std.ExtTreeMap.mem_keys, Std.ExtTreeMap.mem_keys]
  rw [replay_differences self next related _ distinct, before uri]
  unfold Workspace.difference listed
  cases now : next[uri]? with
  | some current =>
    have present : uri ∈ next := by
      rw [Std.ExtTreeMap.mem_iff_isSome_getElem?, now]
      rfl
    rw [if_pos (member.mpr (.inr present))]
    simp only
    split
    · next differs =>
      split at differs
      · cases differs
        rfl
      · contradiction
    · next same =>
      split at same
      · contradiction
      · next equal =>
        have former : self.published[uri]? = some current := by simpa using equal
        rw [former]
  | none =>
    by_cases former : uri ∈ self.published
    · rw [if_pos (member.mpr (.inl former))]
      have contained : self.published.contains uri = true := former
      rw [contained]
      rfl
    · have absent : uri ∉ next := by
        rw [Std.ExtTreeMap.mem_iff_isSome_getElem?, now]
        simp
      rw [if_neg (by rw [member]; exact not_or.mpr ⟨former, absent⟩)]
      rw [Std.ExtTreeMap.getElem?_eq_none former]

end Differences

/-! ## The server -/

/-- The messages that were sent. -/
def History.messages (history : History) : List Tree := history.sent.map fun sent => sent.reply.message

/-- The documents as they are have been analyzed, will be, or could not be. -/
def Current (server : Server) : Prop :=
  (∃ job ∈ server.jobs, job.isDiagnostics = true ∧
    job.snapshot.generation = server.coordinator.workspace.generation) ∨
  server.history.accepted.map DiagnosticAnalysis.generation = some server.coordinator.workspace.generation ∨
  ∃ entry ∈ server.history.analyzed, entry.generation = server.coordinator.workspace.generation ∧
    ∃ error, entry.result = .error error

/-- A publication was made for the generation it is an analysis of. -/
def Timely (analyzed : List Analyzed) (sent : Sent) : Prop :=
  ∃ entry ∈ analyzed, entry.generation = sent.workspace.generation ∧
    ∃ analysis, entry.result = .ok (some analysis) ∧ analysis.generation = sent.workspace.generation

structure Published (server : Server) : Prop where
  published : server.coordinator.workspace.published = acceptedDocuments server.history.accepted
  shown : ∀ uri, replay (fun _ => []) server.history.messages uri =
    (listed server.coordinator.workspace.published uri).map (diagnosticValue server.coordinator.relatedInformation)
  untouched : server.coordinator.lifecycle = .waitingForInitialize → server.history.accepted = none
  timely : ∀ sent ∈ server.history.sent, readPublication sent.reply.message ≠ none →
    Timely server.history.analyzed sent
  current : server.coordinator.lifecycle ≠ .shutdownRequested → 0 < server.coordinator.workspace.generation →
    Current server

section Preserved

variable {server after : Server} {replies : List Reply} {coordinator : Coordinator} {history : History}

/-- A step that publishes nothing and accepts nothing. -/
theorem Published.quiet (published : Published server)
    (documents : after.coordinator.workspace.published = server.coordinator.workspace.published)
    (accepted : after.history.accepted = server.history.accepted)
    (related : after.coordinator.relatedInformation = server.coordinator.relatedInformation ∨
      server.coordinator.lifecycle = .waitingForInitialize)
    (lifecycle : after.coordinator.lifecycle = .waitingForInitialize →
      server.coordinator.lifecycle = .waitingForInitialize)
    {more : List Sent} (sent : after.history.sent = server.history.sent ++ more)
    (responses : ∀ entry ∈ more, readPublication entry.reply.message = none)
    (analyzed : ∀ entry ∈ server.history.analyzed, entry ∈ after.history.analyzed)
    (current : after.coordinator.lifecycle ≠ .shutdownRequested → 0 < after.coordinator.workspace.generation →
      Current after) : Published after where
  published := by
    rw [documents, accepted]
    exact published.published
  shown uri := by
    have silent : ∀ message ∈ more.map fun entry => entry.reply.message, readPublication message = none := by
      intro message listed
      obtain ⟨entry, member, rfl⟩ := mem_map.mp listed
      exact responses entry member
    have unchanged : replay (fun _ => []) after.history.messages uri =
        replay (fun _ => []) server.history.messages uri := by
      unfold History.messages
      rw [sent, map_append, replay_append, replay_responses silent]
    rw [unchanged, published.shown uri, documents]
    rcases related with same | waiting
    · rw [same]
    · -- Nothing has been published yet, so it does not matter how it would be rendered.
      rw [published.published, published.untouched waiting]
      simp [listed, acceptedDocuments]
  untouched waiting := by
    rw [accepted]
    exact published.untouched (lifecycle waiting)
  timely entry listed publishes := by
    rw [sent] at listed
    rcases mem_append.mp listed with old | new
    · obtain ⟨analysis, member, made⟩ := published.timely entry old publishes
      exact ⟨analysis, analyzed analysis member, made⟩
    · exact absurd (responses entry new) publishes
  current := current

theorem start_published (tracking : Tracking server) (published : Published server) : Published server.start := by
  rcases start_cases tracking.held with ⟨same, _⟩ | ⟨_, _, queue, free, started⟩
  · rw [same]
    exact published
  · have sent : server.start.history.sent = server.history.sent ++ [] := by
      rw [started, append_nil]
    refine published.quiet ?_ ?_ (.inl ?_) ?_ sent (by simp) ?_ ?_
    · rw [started]
    · rw [started]
    · rw [started]
    · rw [started]
      exact fun waiting => waiting
    · intro entry listed
      rw [started]
      exact listed
    · intro alive changed
      have before := published.current (by rw [started] at alive; exact alive) (by rw [started] at changed; exact changed)
      rcases before with ⟨other, listed, diagnostics, generation⟩ | accepted | failed
      · left
        refine ⟨other, ?_, diagnostics, ?_⟩
        · obtain ⟨channel, working, finished⟩ := inFlight_nil free
          rw [started]
          simp only [Server.jobs, inFlight, working, finished, channel, queue] at listed ⊢
          simp at listed ⊢
          rcases listed with first | later
          · exact .inr first
          · exact .inl later
        · rw [started]
          exact generation
      · right
        left
        rw [started]
        exact accepted
      · right
        right
        rw [started]
        exact failed

/-- Handling a message publishes nothing. -/
theorem handled_published {message : Tree} (published : Published server)
    (handled : Handled server.coordinator message replies coordinator) :
    Published (server.send replies coordinator (server.receive message coordinator)) := by
  have cancelled : ∀ reply ∈ server.coordinator.cancelPendingRequests.1, readPublication reply.message = none := by
    intro reply listed
    obtain ⟨control, _, id, _, rfl⟩ := mem_closing listed
    exact readPublication_response rfl
  -- Jobs that stay pending or in flight keep the documents current.
  have kept : ∀ next : Coordinator, (∀ job ∈ server.jobs, job ∈ next.pending ++ server.inFlight) →
      next.workspace.generation = server.coordinator.workspace.generation →
      (next.lifecycle ≠ .shutdownRequested → server.coordinator.lifecycle ≠ .shutdownRequested) →
      next.lifecycle ≠ .shutdownRequested → 0 < next.workspace.generation →
      Current (server.send replies next (server.receive message next)) := by
    intro next jobs generation lifecycle alive changed
    rw [generation] at changed
    rcases published.current (lifecycle alive) changed with ⟨job, listed, diagnostics, same⟩ | accepted | failed
    · left
      exact ⟨job, jobs job listed, diagnostics, same.trans generation.symm⟩
    · right
      left
      show server.history.accepted.map DiagnosticAnalysis.generation = some next.workspace.generation
      rw [generation]
      exact accepted
    · right
      right
      show ∃ entry ∈ server.history.analyzed, entry.generation = next.workspace.generation ∧ _
      rw [generation]
      exact failed
  cases handled with
  | answered unqueued responses lifecycle same =>
    have pending : coordinator.pending = server.coordinator.pending := by rw [same]
    have workspace : coordinator.workspace = server.coordinator.workspace := by rw [same]
    have shut : coordinator.lifecycle ≠ .shutdownRequested → server.coordinator.lifecycle ≠ .shutdownRequested := by
      rcases lifecycle with ⟨kept, _⟩ | ⟨waiting, _⟩
      · rw [kept]
        exact fun alive => alive
      · rw [waiting]
        simp
    refine published.quiet ?_ rfl ?_ ?_ rfl ?_ (fun _ listed => listed) (kept coordinator ?_ ?_ shut)
    · show coordinator.workspace.published = _
      rw [workspace]
    · rcases lifecycle with ⟨_, related⟩ | ⟨waiting, _⟩
      · exact .inl related
      · exact .inr waiting
    · intro waiting
      rcases lifecycle with ⟨kept, _⟩ | ⟨_, running⟩
      · exact kept.symm.trans waiting
      · rw [show coordinator.lifecycle = .waitingForInitialize from waiting] at running
        contradiction
    · intro entry listed
      obtain ⟨reply, member, rfl⟩ := mem_map.mp listed
      exact readPublication_response (responses reply member)
    · intro job listed
      rw [pending]
      exact listed
    · rw [workspace]
  | cancelled =>
    refine published.quiet rfl rfl (.inl rfl) (fun waiting => waiting) rfl (by simp) (fun _ listed => listed) ?_
    exact kept _ (fun _ listed => listed) rfl (fun alive => alive)
  | queued =>
    refine published.quiet rfl rfl (.inl rfl) (fun waiting => waiting) rfl (by simp) (fun _ listed => listed) ?_
    refine kept _ ?_ rfl (fun alive => alive)
    intro job listed
    rcases mem_append.mp listed with old | flight
    · exact mem_append_left _ (mem_append_left _ old)
    · exact mem_append_right _ flight
  | @changed _ workspace changes =>
    refine published.quiet changes.published rfl (.inl rfl) (fun waiting => waiting) rfl (by simp)
      (fun _ listed => listed) ?_
    intro _ _
    left
    refine ⟨⟨server.coordinator.nextSerial, .diagnostics, workspace.diagnosticSnapshot, server.coordinator.encoding⟩,
      ?_, rfl, rfl⟩
    exact mem_append_left _ (mem_append_right _ (mem_singleton_self _))
  | shutdown running id =>
    refine published.quiet rfl rfl (.inl rfl) (fun waiting => by contradiction) rfl ?_ (fun _ listed => listed) ?_
    · intro entry listed
      obtain ⟨reply, member, rfl⟩ := mem_map.mp listed
      rcases mem_append.mp member with closing | last
      · exact cancelled reply closing
      · rw [mem_singleton.mp last]
        exact readPublication_response rfl
    · intro alive
      exact absurd rfl alive

/-! ## Results -/

section Results

variable {job : Job} {result : WorkerResult}

theorem record_analysis {serial : Nat} {analysis : DiagnosticAnalysis} :
    (server.record job (.diagnostics serial (.ok (some analysis)))).accepted =
      if (server.coordinator.takeControl serial).1 &&
          !((server.coordinator.takeControl serial).2.flags serial).isCancelled &&
          analysis.generation = (server.coordinator.takeControl serial).2.workspace.generation then some analysis
      else server.history.accepted := rfl

/-- A result of which nothing is published is not accepted. -/
theorem record_useless {serial : Nat} {outcome : Except String (Option DiagnosticAnalysis)}
    (useless : (∀ control ∈ server.coordinator.controls, control.serial ≠ serial) ∨
      (server.coordinator.flags serial).isCancelled = true ∨ ∀ analysis, outcome = .ok (some analysis) →
        analysis.generation ≠ server.coordinator.workspace.generation) :
    (server.record job (.diagnostics serial outcome)).accepted = server.history.accepted := by
  cases outcome with
  | error => rfl
  | ok found =>
    cases found with
    | none => rfl
    | some analysis =>
      rw [record_analysis]
      rcases takeControl_cases server.coordinator serial with ⟨tracked, taken⟩ | ⟨untracked, taken⟩
      · rw [taken]
        rcases useless with untracked | cancelled | other
        · obtain ⟨control, listed, same⟩ := tracked
          exact absurd same (untracked control listed)
        · simp [cancelled]
        · simp [other analysis rfl]
      · rw [taken]
        simp

theorem record_published {serial : Nat} {analysis : DiagnosticAnalysis}
    (tracked : ∃ control ∈ server.coordinator.controls, control.serial = serial)
    (live : (server.coordinator.flags serial).isCancelled = false)
    (current : analysis.generation = server.coordinator.workspace.generation) :
    (server.record job (.diagnostics serial (.ok (some analysis)))).accepted = some analysis := by
  rw [record_analysis]
  rcases takeControl_cases server.coordinator serial with ⟨_, taken⟩ | ⟨untracked, _⟩
  · rw [taken]
    simp [live, current]
  · obtain ⟨control, listed, same⟩ := tracked
    exact absurd same (untracked control listed)

/-- The flags of a job that analyzes the documents as they are have not been raised. -/
theorem Tracking.unraised (tracking : Tracking server) (alive : server.coordinator.lifecycle ≠ .shutdownRequested)
    (listed : job ∈ server.jobs) (diagnostics : job.kind = .diagnostics)
    (current : job.snapshot.generation = server.coordinator.workspace.generation) :
    (server.coordinator.flags job.serial).isCancelled = false := by
  obtain ⟨invalidated, cancelled⟩ := tracking.reasoned alive job listed
  cases invalid : (server.coordinator.flags job.serial).invalidated with
  | true =>
    have newer := invalidated.mp invalid
    omega
  | false =>
    cases cancel : (server.coordinator.flags job.serial).cancelled with
    | true =>
      obtain ⟨_, _, _, target, _, asked⟩ := cancelled cancel
      rw [diagnostics] at asked
      contradiction
    | false => simp [RequestControl.isCancelled, invalid, cancel]

/-- When a job is done, the documents are still current: another job is about them, or this
one was and its analysis was accepted or failed. -/
theorem completed_current (tracking : Tracking server) (published : Published server)
    (finished : server.finished = some (job, result)) {next : Coordinator}
    (pending : next.pending = server.coordinator.pending)
    (generation : next.workspace.generation = server.coordinator.workspace.generation)
    (accepted : history.accepted = server.history.accepted ∨
      history.accepted.map DiagnosticAnalysis.generation = some server.coordinator.workspace.generation)
    (analyzed : ∀ entry ∈ server.history.analyzed, entry ∈ history.analyzed)
    (mine : job.isDiagnostics = true → job.snapshot.generation = server.coordinator.workspace.generation →
      history.accepted.map DiagnosticAnalysis.generation = some server.coordinator.workspace.generation ∨
      ∃ entry ∈ history.analyzed, entry.generation = server.coordinator.workspace.generation ∧
        ∃ error, entry.result = .error error)
    (alive : server.coordinator.lifecycle ≠ .shutdownRequested) (changed : 0 < next.workspace.generation) :
    Current (send { server with finished := none } replies next history) := by
  show (∃ other ∈ next.pending ++ inFlight { server with finished := none }, other.isDiagnostics = true ∧
      other.snapshot.generation = next.workspace.generation) ∨
    history.accepted.map DiagnosticAnalysis.generation = some next.workspace.generation ∨
    ∃ entry ∈ history.analyzed, entry.generation = next.workspace.generation ∧ ∃ error, entry.result = .error error
  rw [(tracking.alone finished).2, append_nil, pending, generation]
  rw [generation] at changed
  rcases published.current alive changed with ⟨other, listed, diagnostics, same⟩ | before | failed
  · rw [tracking.jobs_finished finished] at listed
    rcases mem_append.mp listed with old | last
    · exact .inl ⟨other, old, diagnostics, same⟩
    · rw [mem_singleton.mp last] at diagnostics same
      exact .inr (mine diagnostics same)
  · rcases accepted with kept | now
    · right
      left
      rw [kept]
      exact before
    · exact .inr (.inl now)
  · obtain ⟨entry, member, made⟩ := failed
    exact .inr (.inr ⟨entry, analyzed entry member, made⟩)

theorem record_analyzed (entry : Analyzed) (listed : entry ∈ server.history.analyzed) :
    entry ∈ (server.record job result).analyzed := by
  cases result with
  | diagnostics => exact mem_append_left _ listed
  | request => exact listed

theorem record_sent : (server.record job result).sent = server.history.sent := by
  cases result with
  | diagnostics | request => rfl

/-- A result publishes the differences of an analysis of the documents as they are, or
nothing. -/
theorem completed_published (tracking : Tracking server) (published : Published server)
    (finished : server.finished = some (job, result))
    (completed : Completed server.coordinator result replies coordinator) :
    Published (send { server with finished := none } replies coordinator (server.record job result)) := by
  have listed := mem_jobs_finished finished
  have computes := tracking.computed job result finished
  have sent : ∀ next : Coordinator, (send { server with finished := none } replies next
      (server.record job result)).history.sent = server.history.sent ++ replies.map (sentBy next) := by
    intro next
    show (server.record job result).sent ++ _ = _
    rw [record_sent]
  cases completed with
  | dropped untracked =>
    have accepted : (server.record job result).accepted = server.history.accepted := by
      cases result with
      | diagnostics => exact record_useless (.inl untracked)
      | request => rfl
    refine published.quiet rfl accepted (.inl rfl) (fun waiting => waiting) (sent _) (by simp)
      (fun entry member => record_analyzed entry member) ?_
    intro alive changed
    have tracked : TrackedControl.of job ∈ server.coordinator.controls :=
      (tracking.tracked alive).mem_iff.mpr (mem_map_of_mem listed)
    exact absurd computes.serial.symm (untracked _ tracked)
  | @silent serial outcome tracked useless =>
    have alive := tracking.alive_of_tracked tracked
    have accepted : (server.record job (.diagnostics serial outcome)).accepted = server.history.accepted :=
      record_useless (.inr useless)
    refine published.quiet rfl accepted (.inl rfl) (fun waiting => waiting) (sent _) (by simp)
      (fun entry member => record_analyzed entry member) ?_
    intro _ changed
    refine completed_current tracking published finished rfl rfl (.inl accepted)
      (fun entry member => record_analyzed entry member) ?_ alive changed
    intro _ current
    right
    cases computes with
    | diagnostics _ kind stopped generation =>
      have live := tracking.unraised alive listed kind current
      refine ⟨⟨job.snapshot.generation, outcome⟩, mem_append_right _ (mem_singleton_self _), current, ?_⟩
      cases outcome with
      | error message => exact ⟨message, rfl⟩
      | ok found =>
        cases found with
        | none =>
          rw [stopped rfl] at live
          contradiction
        | some analysis =>
          rcases useless with cancelled | other
          · rw [cancelled] at live
            contradiction
          · exact absurd ((generation analysis rfl).trans current) (other analysis rfl)
  | @published serial analysis tracked live current =>
    have alive := tracking.alive_of_tracked tracked
    have accepted : (server.record job (.diagnostics serial (.ok (some analysis)))).accepted = some analysis :=
      record_published tracked live current
    refine ⟨?_, ?_, ?_, ?_, ?_⟩
    · rw [show (Server.history _).accepted = some analysis from accepted]
      rfl
    · intro uri
      unfold History.messages
      rw [sent, map_append, replay_append]
      have messages : ∀ (documents : List DiagnosticDocument) (next : Coordinator),
          ((documents.map fun document =>
            (⟨some serial, diagnosticMessage server.coordinator.relatedInformation document⟩ : Reply)).map
              (sentBy next)).map (fun sent => sent.reply.message) =
            documents.map (diagnosticMessage server.coordinator.relatedInformation) := by
        intro documents next
        rw [map_map, map_map]
        rfl
      rw [messages]
      exact replay_publication server.coordinator.workspace (Workspace.collectDocuments analysis.documents)
        server.coordinator.relatedInformation published.shown uri
    · intro waiting
      have none := (tracking.untouched waiting).1
      rw [none] at listed
      contradiction
    · intro entry member publishes
      rcases mem_append.mp member with old | new
      · obtain ⟨before, inside, made⟩ := published.timely entry old publishes
        exact ⟨before, record_analyzed before inside, made⟩
      · obtain ⟨reply, _, rfl⟩ := mem_map.mp new
        cases computes with
        | diagnostics _ _ _ generation =>
          refine ⟨⟨job.snapshot.generation, .ok (some analysis)⟩,
            mem_append_right _ (mem_singleton_self _), ?_, analysis, rfl, current⟩
          exact (generation analysis rfl).symm.trans current
    · intro _ changed
      have now : (server.record job (.diagnostics serial (.ok (some analysis)))).accepted.map
          DiagnosticAnalysis.generation = some server.coordinator.workspace.generation := by
        rw [accepted, Option.map_some, current]
      exact completed_current tracking published finished rfl rfl (.inr now)
        (fun entry member => record_analyzed entry member) (fun _ _ => .inl now) alive changed
  | @answered _ _ id _ tracked =>
    have alive := tracking.alive_of_tracked tracked
    refine published.quiet rfl rfl (.inl rfl) (fun waiting => waiting) (sent _) ?_ (fun _ member => member) ?_
    · intro entry member
      obtain ⟨_, replied, rfl⟩ := mem_map.mp member
      rw [mem_singleton.mp replied]
      unfold answer
      split
      all_goals exact readPublication_response rfl
    · intro _ changed
      refine completed_current tracking published finished rfl rfl (.inl rfl) (fun _ member => member) ?_ alive changed
      intro diagnostics
      cases computes with
      | request _ _ _ _ kind =>
        simp [Job.isDiagnostics, kind] at diagnostics

end Results

theorem step_published (tracking : Tracking server) (published : Published server) (step : ServerStep server after) :
    Published after := by
  cases step with
  | message _ _ handled =>
    have handling := handled_of _ handled
    exact start_published (handled_tracking tracking handling) (handled_published published handling)
  | parseError =>
    refine published.quiet rfl rfl (.inl rfl) (fun waiting => waiting) rfl ?_ (fun _ listed => listed)
      published.current
    intro entry listed
    rw [mem_singleton.mp listed]
    exact readPublication_response rfl
  | @take _ queued idle free =>
    refine published.quiet rfl rfl (.inl rfl) (fun waiting => waiting) (append_nil _).symm (by simp)
      (fun _ listed => listed) ?_
    intro alive changed
    rcases published.current alive changed with ⟨other, listed, made⟩ | rest
    · left
      refine ⟨other, ?_, made⟩
      simpa [Server.jobs, inFlight, queued, idle, free] using listed
    · exact .inr rest
  | @compute _ _ working =>
    refine published.quiet rfl rfl (.inl rfl) (fun waiting => waiting) (append_nil _).symm (by simp)
      (fun _ listed => listed) ?_
    intro alive changed
    rcases published.current alive changed with ⟨other, listed, made⟩ | rest
    · left
      refine ⟨other, ?_, made⟩
      obtain ⟨channel, finished⟩ := tracking.computing working
      simpa [Server.jobs, inFlight, working, channel, finished] using listed
    · exact .inr rest
  | @complete job result _ coordinator finished completes =>
    have completed := completed_of completes
    exact start_published (completed_tracking tracking finished completed (record_received server job result))
      (completed_published tracking published finished completed)

end Preserved

theorem initial_published : Published .initial := by
  refine ⟨rfl, ?_, fun _ => rfl, ?_, ?_⟩
  · intro uri
    simp [Server.initial, Coordinator.new, Workspace.new, listed, History.messages, replay]
  · intro sent member
    contradiction
  · intro _ changed
    contradiction

theorem published_inductive :
    serverSystem.Inductive fun server => Tracking server ∧ Published server where
  initial server initial := by
    rw [show server = .initial from initial]
    exact ⟨initial_tracking, initial_published⟩
  step _ _ both step := ⟨step_tracking both.1 step, step_published both.1 both.2 step⟩
  disturb _ _ _ disturbed := disturbed.elim

/-- In every state the server reaches, whatever the order of changes and results.

A client that replays the published messages shows exactly the diagnostics of the analysis
accepted last, and nothing for documents that are not in it.  Every publication is of an
analysis of the generation the workspace had then.  When something was changed and no job
is pending or with the worker, the analysis accepted last is that of the workspace as it is,
unless that analysis returned an error. -/
theorem published_diagnostics_converge (server : Server) (reachable : serverSystem.Reachable server) :
    (∀ uri, replay (fun _ => []) server.history.messages uri =
      (listed (acceptedDocuments server.history.accepted) uri).map
        (diagnosticValue server.coordinator.relatedInformation)) ∧
    (∀ sent ∈ server.history.sent, readPublication sent.reply.message ≠ none →
      Timely server.history.analyzed sent) ∧
    (server.coordinator.lifecycle ≠ .shutdownRequested → 0 < server.coordinator.workspace.generation →
      server.jobs = [] →
      server.history.accepted.map DiagnosticAnalysis.generation = some server.coordinator.workspace.generation ∨
      ∃ entry ∈ server.history.analyzed, entry.generation = server.coordinator.workspace.generation ∧
        ∃ error, entry.result = .error error) := by
  obtain ⟨_, published⟩ := published_inductive.reachable reachable
  refine ⟨?_, published.timely, ?_⟩
  · intro uri
    rw [← published.published]
    exact published.shown uri
  · intro alive changed rest
    rcases published.current alive changed with ⟨job, listed, _⟩ | settled
    · rw [rest] at listed
      contradiction
    · exact settled

/-- After a document was opened and before it is analyzed nothing is shown for it. -/
theorem published_diagnostics_converge_opened : ∃ server, serverSystem.Reachable server ∧
    server.coordinator.workspace.generation = 1 ∧ replay (fun _ => []) server.history.messages "file:///a" = [] := by
  let path : Opaal.Runtime.NativePath := ⟨[47]⟩
  let host : Host := ⟨some, fun _ => .ok (path, path, false), fun _ => true⟩
  let setUp : Tree := .object [("id", count 1), ("jsonrpc", .string "2.0"), ("method", .string "initialize"),
    ("params", .object [])]
  let opening : Tree := .object [("jsonrpc", .string "2.0"), ("method", .string "textDocument/didOpen"),
    ("params", .object [("textDocument", .object [("text", .string ""), ("uri", .string "file:///a"),
      ("version", count 1)])])]
  let answered := Coordinator.handle host setUp .new
  let ready : Server := Server.initial.proceed answered.1.output answered.2 (Server.initial.receive setUp answered.2)
  let opened := Coordinator.handle host opening ready.coordinator
  let queued : Server := ready.proceed opened.1.output opened.2 (ready.receive opening opened.2)
  have first : serverSystem.step .initial ready := ServerStep.message host setUp rfl rfl
  have second : serverSystem.step ready queued := ServerStep.message host opening rfl rfl
  have reachable : serverSystem.Reachable queued := ⟨.initial, 2, 0, rfl, .step (.step (.refl _) first) second⟩
  have generation : queued.coordinator.workspace.generation = 1 := rfl
  have accepted : queued.history.accepted = none := rfl
  have shown := (published_diagnostics_converge queued reachable).1 "file:///a"
  exact ⟨queued, reachable, generation, shown⟩

/-- Until the server shuts down, a job that waits or is worked on has not been told to stop exactly when
its snapshot is that of the workspace as it is. -/
theorem jobs_told (server : Server) (reachable : serverSystem.Reachable server)
    (alive : server.coordinator.lifecycle ≠ .shutdownRequested) (job : Job) (listed : job ∈ server.jobs) :
    (server.coordinator.flags job.serial).invalidated = false ↔
      job.snapshot = server.coordinator.workspace.diagnosticSnapshot := by
  obtain ⟨tracking, _⟩ := published_inductive.reachable reachable
  have told := (tracking.reasoned alive job listed).invalidated
  obtain ⟨older, same⟩ := tracking.taken job listed
  constructor
  · intro lowered
    rw [lowered] at told
    have current : job.snapshot.generation = server.coordinator.workspace.generation := by
      simp only [Bool.false_eq_true, false_iff] at told
      omega
    rw [Workspace.diagnosticSnapshot, ← current, ← same current]
  · intro current
    rw [← Bool.not_eq_true, told, current]
    exact Nat.lt_irrefl _

theorem jobs_told_opened : ∃ server job, serverSystem.Reachable server ∧ job ∈ server.jobs ∧
    ((server.coordinator.flags job.serial).invalidated = false ↔
      job.snapshot = server.coordinator.workspace.diagnosticSnapshot) := by
  obtain ⟨server, job, reachable, running, _, channel⟩ := opened_reachable
  have listed : job ∈ server.jobs := by simp [Server.jobs, inFlight, channel]
  exact ⟨server, job, reachable, listed, jobs_told server reachable (by simp [running]) job listed⟩

end Opaal.Lsp
