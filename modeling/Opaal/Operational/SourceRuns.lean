import Opaal.Operational.SourceEffects
import Opaal.Runtime.JsonFormat

/-!
# Runs of the source operational host

Every call leaves the log valid and no effect open, so a run of calls does, in whatever order they
come and whatever the environment answers.  The counters of the host and of the journal agree as
long as the journal takes every attempt it is given.
-/

namespace Opaal.Operational.Source

open Opaal.Machine List
open Opaal.Runtime (ModuleId Value)
open Opaal.Workflow
open Opaal.Json (Tree)

variable {Id F C α β : Type}

/-! ## Operations -/

section Operations

variable {setting : Setting Id F C} {start : Nat} {opened live : List Opened}

/-! ### The secret -/

variable {host after : ControlledSourceOperations Id} {secret endpoint header : String} {effect : Opened}
  {request : CapabilityRequest} {environment : Environment F C} {ended outcome : SourceEffectOutcome}

/-- The secret is taken within an effect that was accepted for it. -/
theorem Valid.revealed (valid : Valid start opened live host) (known : effect ∈ live)
    (requested : effect.1.request = .secretReveal secret endpoint header) (executable : effect.2.isExecutable = true)
    (present : host.secretInput = true) :
    Valid start opened live { host with secretInput := false, log := host.log ++ [.secretTaken secret] } where
  along := valid.along.snoc (.secretTaken secret endpoint header effect (valid.live effect known) requested executable)
  nested := by
    rw [effects_append]
    exact (append_nil (effects host.log)).symm ▸ valid.nested
  next := by
    rw [attempts_append]
    exact valid.next
  expected := by
    rw [accepted_append]
    exact valid.expected
  secret := by
    have once := valid.secret
    rw [present] at once
    rw [countP_append, countP_singleton]
    simp only [Record.isSecret, if_true, Bool.false_eq_true, if_false] at once ⊢
    omega
  opened := by
    rw [effects_append]
    exact (append_nil (effects host.log)).symm ▸ valid.opened
  live := by
    intro effect member
    rw [justAccepted_append]
    exact valid.live effect member

theorem Keeps.readSecretPass (bytes : List UInt8) :
    Keeps start opened live live (readSecretPass bytes : Controlled Id F C _) := by
  unfold Source.readSecretPass
  split
  · refine Keeps.poll.bind fun _ => (ask _).bind fun read => ?_
    cases read with
    | ok =>
      dsimp only
      split
      · exact .pure _
      · exact .pure _
    | error error =>
      cases error with
      | interrupted => exact .pure _
      | timedOut | other => exact Keeps.poll.bind fun _ => .fail _
  · exact .pure _

theorem Keeps.readSecret (passes : Nat) (bytes : List UInt8) :
    Keeps start opened live live (repeatFrom .unfinished Source.readSecretPass passes bytes : Controlled Id F C _) := by
  intro environment host valid
  have ends (current : List UInt8) (after : ControlledSourceOperations Id) (kept : Valid start opened live after) :
      Stopped start opened .unfinished after := kept.toJournaled
  refine Yields.repeatFrom ends ?_ passes valid
  intro current middle kept
  refine (Keeps.readSecretPass current environment middle kept).mono ?_ fun _ _ stopped => stopped
  intro turn after holds
  cases turn with
  | again | done => exact holds

theorem Keeps.materializeSecret (known : effect ∈ live) (requested : effect.1.request = .secretReveal secret endpoint header)
    (executable : effect.2.isExecutable = true) :
    Keeps start opened live live (materializeSecret secret : Controlled Id F C Unit) := by
  intro environment host valid
  refine get_yields ?_
  split
  · exact Keeps.fail _ environment host valid
  · split
    · exact Keeps.fail _ environment host valid
    · next present =>
      have taken := valid.revealed known requested executable (by simpa using present)
      refine set_yields (((ask _).bind fun passes => (Keeps.readSecret passes []).bind fun bytes =>
        Keeps.poll.bind fun _ => ?_) environment _ taken)
      split
      · exact .fail _
      · refine (ask _).bind fun inserted => ?_
        cases inserted with
        | some => exact .fail _
        | none => exact .pure _

/-! ### Files and clocks -/

theorem Keeps.evidenceDigest (bytes : List UInt8) : Keeps start opened live live (evidenceDigest setting bytes) :=
  .reads fun _ => .pure _

variable (arguments : List (Value F C)) (module : String) (bound : BoundDockerTarget)

theorem Keeps.filesystemRead :
    Keeps start opened live [] (filesystemRead setting arguments) := by
  refine (Keeps.finish _).bind fun target => (Keeps.finish _).bind fun _ => (Keeps.finish _).bind fun request =>
    (Keeps.finish _).bind fun descriptor => .leafEffect fun effect requested executable => ?_
  refine (carryOut mem_cons_self requested executable _).bind fun value => (Keeps.finish _).bind fun resolved =>
    .reads fun host => ?_
  exact .unless (.pure _)

theorem Keeps.writeAtomic :
    Keeps start opened live [] (writeAtomic setting arguments) := by
  refine (Keeps.finish _).bind fun target => (Keeps.finish _).bind fun payload => (Keeps.finish _).bind fun request =>
    (Keeps.finish _).bind fun descriptor => .leafEffect fun effect requested executable => ?_
  exact (carryOut mem_cons_self requested executable _).bind fun _ =>
    (Keeps.evidenceDigest payload).bind fun digest => .pure _

theorem Keeps.wallNow : Keeps start opened live [] (wallNow setting) := by
  refine .leafEffect fun effect requested executable => ?_
  exact (carryOut mem_cons_self requested executable _).bind fun value =>
    (Keeps.evidenceDigest _).bind fun digest => .pure _

theorem Keeps.monotonicNow : Keeps start opened live [] (monotonicNow setting) := by
  refine .leafEffect fun effect requested executable => ?_
  refine (carryOut mem_cons_self requested executable _).bind fun value => ?_
  split
  · exact .pure _
  · exact .fail _

/-! ### Processes -/

theorem Keeps.runProcess (known : effect ∈ live) (requested : effect.1.request = request)
    (executable : effect.2.isExecutable = true) :
    Keeps start opened live live (runProcess request : Controlled Id F C ToolResult) := by
  refine (Keeps.used known requested executable).bind fun _ => (ask _).bind fun answer => ?_
  intro environment host valid
  refine get_yields ?_
  split
  · exact Keeps.fail _ environment host valid
  · exact set_yields (Keeps.finish answer.2 environment _ (valid.same ⟨rfl, rfl, rfl, rfl⟩))

theorem Keeps.processRun :
    Keeps start opened live [] (processRun setting arguments) := by
  refine (Keeps.finish _).bind fun tool => (Keeps.finish _).bind fun argv => (Keeps.finish _).bind fun request =>
    .reads fun host => (Keeps.finish _).bind fun descriptor => .leafEffect fun effect requested executable => ?_
  refine .unless ?_
  exact (Keeps.runProcess mem_cons_self requested executable).bind fun result =>
    (Keeps.evidenceDigest _).bind fun digest => .pure _

theorem Keeps.dockerStage (image : String) (stage : Nat) :
    Keeps start opened live [] (dockerStage setting bound image stage) := by
  refine .reads fun host => (Keeps.finish _).bind fun descriptor => (Keeps.finish _).bind fun request =>
    .leafEffect fun effect requested executable => ?_
  refine (ask _).bind fun checked => (Keeps.finish checked).bind fun _ => .unless ?_
  refine (Keeps.runProcess mem_cons_self requested executable).bind fun result => ?_
  exact (ask _).bind fun checked => (Keeps.finish checked).bind fun _ => (Keeps.evidenceDigest _).bind fun digest =>
    .pure _

theorem Keeps.readStage (inspection : Inspection F C) (stage : Nat) (stdout : List UInt8) :
    Keeps start opened live live (readStage inspection stage stdout : Controlled Id F C _) := by
  unfold Source.readStage
  split
  · exact (ask _).bind fun answer => (Keeps.finish answer).bind fun _ => .pure _
  · exact (ask _).bind fun answer => (Keeps.finish answer).bind fun fields => .pure _
  · exact (ask _).bind fun answer => (Keeps.finish answer).bind fun document => .pure _
  · exact (ask _).bind fun answer => (Keeps.finish answer).bind fun version => .unless (.pure _)

/-- Each stage of an inspection is an effect of its own. -/
theorem Keeps.inspectStages (image : String) (started : Nat) (stages : List Nat) (inspection : Inspection F C) :
    Keeps start opened [] [] (inspectStages setting bound image started stages inspection) := by
  induction stages generalizing inspection with
  | nil => exact .pure _
  | cons stage _ ih =>
    refine Keeps.poll.bind fun _ => (ask _).bind fun answer => (Keeps.finish answer).bind fun now => .unless (.unless ?_)
    refine (Keeps.dockerStage bound image stage).bind fun result => .unless ?_
    refine (ask _).bind fun answer => (Keeps.finish answer).bind fun now => .unless ?_
    exact (Keeps.readStage inspection stage result.stdout).bind fun inspection => ih inspection

theorem Keeps.inspectImage :
    Keeps start opened [] [] (inspectImage setting arguments) := by
  refine (Keeps.finish _).bind fun name => ?_
  cases setting.dockerTargets name with
  | none => exact .fail _
  | some bound =>
    refine .unless ((Keeps.finish _).bind fun image => (Keeps.finish _).bind fun _ => ?_)
    refine (ask _).bind fun answer => (Keeps.finish answer).bind fun started => ?_
    refine (Keeps.inspectStages bound image started [0, 1, 2, 3] {}).bind fun inspection => ?_
    cases inspection.imageDocument with
    | none => exact .throw fun _ => Stop.noConfusion
    | some => exact (ask _).bind fun decoded => .finish decoded

/-! ### HTTP -/

theorem Keeps.secretHeader :
    Keeps start opened live live (secretHeader setting arguments) := by
  refine (Keeps.finish _).bind fun name => (Keeps.finish _).bind fun secret => ?_
  intro environment host valid
  refine get_yields ?_
  have added (handle : Nat) : Valid start opened live
      { host with nextSecretHeader := handle, secretHeaders := host.secretHeaders ++ [(handle, name, secret)] } :=
    valid.same ⟨rfl, rfl, rfl, rfl⟩
  split_ifs
  · exact Keeps.fail _ environment host valid
  · exact Keeps.fail _ environment host valid
  · exact Keeps.fail _ environment host valid
  · exact Keeps.fail _ environment host valid
  · exact set_yields (Yields.pure (added _))

/-- The request that is left is one to reveal the secret. -/
def Reveals (endpoint : String) : Option (CapabilityRequest × String × String) → Prop
  | none => True
  | some (reveal, name, secret) => reveal = .secretReveal secret endpoint name

theorem requestReveal_ok (allowed : invalid "OPERATION001" (requestReveal secret endpoint header) = .ok request) :
    request = .secretReveal secret endpoint header := by
  unfold requestReveal nonemptyIdentity at allowed
  split_ifs at allowed
  all_goals cases allowed
  rfl

theorem takeSecretHeader_yields {names : List String} {value : Value F C} (valid : Valid start opened live host) :
    Yields id (takeSecretHeader endpoint names value) environment host (Stopped start opened)
      fun taken after => Reveals endpoint taken ∧ Valid start opened live after := by
  unfold takeSecretHeader
  split
  · exact Yields.pure ⟨trivial, valid⟩
  · refine (Keeps.finish (secretHeaderHandle _) environment host valid).bind fun handle after holds => get_yields ?_
    split
    · exact Yields.throw holds.forget
    · next name secret _ =>
      have used : Valid start opened live
          { after with secretHeaders := after.secretHeaders.filter fun header => header.1 ≠ handle } :=
        holds.same ⟨rfl, rfl, rfl, rfl⟩
      refine set_yields ?_
      split
      · exact Yields.throw used.forget
      · cases allowed : invalid "OPERATION001" (requestReveal secret endpoint name) with
        | error =>
          rintro _ rfl
          exact used.forget
        | ok =>
          have reveals := requestReveal_ok allowed
          split
          · exact Yields.throw used.forget
          · exact Yields.pure ⟨reveals, used⟩

theorem Keeps.exchange {taken : Option (CapabilityRequest × String × String)} (reveals : Reveals endpoint taken)
    (known : effect ∈ live) (requested : effect.1.request = request) (executable : effect.2.isExecutable = true) :
    Keeps start opened live [] (exchange setting request endpoint taken) := by
  unfold Source.exchange
  split
  · exact (carryOut known requested executable _).forget
  · next reveal name secret =>
    refine .leafEffect fun revealing asked allowed => ?_
    refine (Keeps.materializeSecret mem_cons_self (asked.trans reveals) allowed).bind fun _ => ?_
    refine (carryOut (mem_cons_of_mem _ known) requested executable _).bind fun response => ?_
    exact (Keeps.evidenceDigest _).bind fun digest => .pure _

theorem Keeps.httpRequest :
    Keeps start opened live [] (httpRequest setting arguments) := by
  refine (Keeps.finish _).bind fun endpoint => (Keeps.finish _).bind fun method => ?_
  cases setting.endpoints endpoint with
  | none => exact .fail _
  | some =>
    refine (Keeps.finish _).bind fun _ => (Keeps.finish _).bind fun value => ?_
    intro environment host valid
    refine (takeSecretHeader_yields valid).bind ?_
    rintro taken after ⟨reveals, holds⟩
    refine ((Keeps.finish _).bind fun _ => (Keeps.finish _).bind fun _ => (Keeps.finish _).bind fun request => ?_)
      environment after holds
    refine .effect fun effect requested executable => ?_
    refine (Keeps.exchange reveals mem_cons_self requested executable).bind fun response => ?_
    refine (Keeps.evidenceDigest _).bind fun digest => ?_
    split
    · exact .pure _
    · exact .fail _

/-! ### The standard host -/

theorem Keeps.standardStep (answer : Environment F C → Nat → Except ModuleError α × HostProgress) :
    Keeps start opened live live (standardStep answer : Controlled Id F C α) := by
  refine (ask _).bind fun stepped => ?_
  obtain ⟨result, _⟩ := stepped
  exact (Keeps.modify fun _ => by exact ⟨rfl, rfl, rfl, rfl⟩).bind fun _ => .finish result

theorem Keeps.standardTransfer (operation : String) :
    Keeps start opened live [] (standardTransfer setting module operation) := by
  refine (Keeps.standardStep _).bind fun admitted => ?_
  dsimp only
  split
  · exact .fail _
  · next request _ =>
    refine .leafEffect fun effect requested executable => ?_
    exact (Keeps.used mem_cons_self requested executable).bind fun _ => (Keeps.standardStep _).bind fun value =>
      .reads fun host => .pure _

theorem Keeps.standardOperation (operation : String) :
    Keeps start opened live [] (standardOperation setting module operation) := by
  refine (Keeps.modify fun _ => by exact ⟨rfl, rfl, rfl, rfl⟩).bind fun _ => .reads fun host => ?_
  split
  · exact .fail _
  · split
    · exact (Keeps.standardStep _).bind fun _ => .standardTransfer module operation
    · exact .standardTransfer module operation

/-! ### Calls -/

theorem Keeps.invokeInner (operation : String) (arguments : List (Value F C)) :
    Keeps start opened [] [] (invokeInner setting module operation arguments) := by
  unfold Source.invokeInner
  split
  · exact .finish _
  · split
    · exact .filesystemRead arguments
    · exact .writeAtomic arguments
    · exact .wallNow
    · exact .monotonicNow
    · exact .inspectImage arguments
    · exact .processRun arguments
    · exact .secretHeader arguments
    · exact .httpRequest arguments
    · exact .fail _

theorem Keeps.invoke (module : ModuleId) (operation : String) (arguments : List (Value F C)) :
    Keeps start opened [] [] (invoke setting module operation arguments) := by
  unfold Source.invoke
  split
  · exact .fail _
  · split_ifs
    · exact .fail _
    · exact .standardOperation _ operation
    · exact .invokeInner _ operation arguments

theorem Keeps.actionStart (action : Id) : Keeps start opened live [] (actionStart setting action) := by
  unfold Source.actionStart
  split
  · exact .fail _
  · next node _ =>
    refine (Keeps.journalActionStart node action).bind fun recorded => ?_
    cases recorded with
    | error => exact .fail _
    | ok => exact .modify fun _ => ⟨rfl, rfl, rfl, rfl⟩

theorem Keeps.actionEnd [DecidableEq Id] (action : Id) (outcome : SourceEffectOutcome) :
    Keeps start opened live [] (actionEnd setting action outcome) := by
  intro environment host valid
  refine get_yields ?_
  split
  · exact Keeps.fail _ environment host valid
  · next active attempted actions _ =>
    have popped : Valid start opened live { host with actionStack := actions } := valid.same ⟨rfl, rfl, rfl, rfl⟩
    refine set_yields ?_
    split
    · exact Keeps.fail _ environment _ popped
    · refine ((ask _).bind fun redact => .reads fun host => ?_) environment _ popped
      split
      · exact .fail _
      · next node _ =>
        refine (Keeps.journalActionEnd node _).bind fun recorded => ?_
        cases recorded with
        | error => exact (Keeps.pushEvidence _).bind fun _ => .fail _
        | ok => exact .unless (.pure _)

theorem Keeps.perform [DecidableEq Id] (call : Call Id F C) :
    Keeps start opened [] [] (perform setting call) := by
  cases call with
  | actionStart action => exact (Keeps.actionStart action).bind fun _ => .pure _
  | actionEnd action outcome => exact (Keeps.actionEnd action outcome).bind fun _ => .pure _
  | invoke module operation arguments => exact (Keeps.invoke module operation arguments).bind fun _ => .pure _

/-! ### The end of the outermost action -/

/-- No end of an action that was added to the log is a success. -/
def Unsuccessful (host after : ControlledSourceOperations Id) : Prop :=
  ∀ node ended accepted, Record.actionEnd node ended accepted ∈ after.log.drop host.log.length → ended.outcomeClass ≠ "success"

theorem Unsuccessful.same (same : after.log = host.log) : Unsuccessful host after := by
  intro node ended accepted member
  rw [same, drop_length] at member
  cases member

theorem Unsuccessful.snoc {node : String} {accepted : Bool} (log : after.log = host.log ++ [.actionEnd node ended accepted])
    (refused : ended.outcomeClass ≠ "success") : Unsuccessful host after := by
  intro node' ended' accepted' member
  rw [log, drop_left] at member
  cases mem_singleton.mp member
  exact refused

theorem leavesSecret_eq (host : ControlledSourceOperations Id) (empty : host.actionStack = [])
    (left : host.secretInput = true ∨ host.secretHeaders ≠ []) (outcome : SourceEffectOutcome) :
    leavesSecret host outcome = decide (outcome.outcomeClass = "success") := by
  have some : (host.secretInput || !host.secretHeaders.isEmpty) = true := by simpa using left
  unfold leavesSecret
  rw [empty, some]
  rfl

theorem endingOutcome_refused {attempted : Bool} {redact : String → String} (empty : host.actionStack = [])
    (left : host.secretInput = true ∨ host.secretHeaders ≠ []) :
    (endingOutcome host attempted redact outcome).outcomeClass ≠ "success" := by
  unfold endingOutcome
  simp only [leavesSecret_eq host empty left, decide_eq_true_eq]
  split_ifs
  all_goals simp_all

theorem journalActionEnd_leftover {middle : ControlledSourceOperations Id} {node : String} (log : middle.log = host.log)
    (refused : ended.outcomeClass ≠ "success") :
    Yields id (journalActionEnd setting node ended) environment middle (fun _ after => Unsuccessful host after)
      fun _ after => Unsuccessful host after := by
  have added (accepted : Bool) (counted : Nat) (after : ControlledSourceOperations Id)
      (done : Submitted (.actionEnd node ended accepted) counted middle after) : Unsuccessful host after :=
    .snoc (log ▸ done.log) refused
  exact submit_yields (added true _) (fun _ => added false 0) fun _ => added false 0

/-- While the secret or a handle to one is left, the outermost action is neither recorded nor
returned as a success. -/
theorem actionEnd_leftover [DecidableEq Id] {action : Id} (outermost : host.actionStack.tail = [])
    (left : host.secretInput = true ∨ host.secretHeaders ≠ []) :
    Yields id (actionEnd setting action outcome) environment host (fun _ after => Unsuccessful host after)
      fun _ after => outcome.outcomeClass ≠ "success" ∧ Unsuccessful host after := by
  refine get_yields ?_
  cases actions : host.actionStack with
  | nil => exact Yields.throw (.same rfl)
  | cons innermost =>
    obtain ⟨_, attempted⟩ := innermost
    rw [actions] at outermost
    cases outermost
    refine set_yields ?_
    split
    · exact Yields.throw (.same rfl)
    · refine ask_yields (get_yields ?_)
      split
      · exact Yields.throw (.same rfl)
      · next node _ =>
        have refused : (endingOutcome { host with actionStack := [], clock := host.clock + 1 } attempted
            (environment.redact host.clock) outcome).outcomeClass ≠ "success" := endingOutcome_refused rfl left
        have same : ({ host with actionStack := [], clock := host.clock + 1 } : ControlledSourceOperations Id).log = host.log :=
          rfl
        refine (journalActionEnd_leftover same refused).bind ?_
        intro recorded after holds
        cases recorded with
        | error =>
          rintro _ rfl
          exact holds
        | ok =>
          rw [leavesSecret_eq { host with actionStack := [], clock := host.clock + 1 } rfl left outcome]
          dsimp only
          split
          · exact Yields.throw holds
          · next unsuccessful => exact Yields.pure ⟨by simpa using unsuccessful, holds⟩

end Operations

/-! ## Runs -/

/-- The host starts with an empty log, in step with the journal it is given. -/
theorem new_valid {journal : SyncedJournal} {processAttempts : Nat} {secretInput : Option String} {metadataOnly : Bool}
    {random : Option HostProgress} (stepped : journal.chain.lifecycle.nextAttempt = min processAttempts maxU64) :
    Valid (min processAttempts maxU64) [] []
      (ControlledSourceOperations.new journal processAttempts secretInput metadataOnly random : ControlledSourceOperations Id) where
  along := by
    intro earlier entry later split
    cases earlier <;> cases split
  nested := .nil
  next := rfl
  expected := stepped
  secret := by
    cases secretInput with
    | none => exact Nat.zero_le 1
    | some => exact Nat.le_refl 1
  opened := rfl
  live := by simp

variable (log : List (Record Id))

theorem accepted_le_attempts : accepted log ≤ attempts log := by
  refine countP_mono_left fun entry _ isAccepted => ?_
  cases entry with
  | before => rfl
  | actionStart | actionEnd | after | used | secretTaken => cases isAccepted

/-- All attempts were accepted when none was refused. -/
theorem attempts_eq_accepted :
    attempts log = accepted log ↔ ∀ event verdict, Record.before event verdict false ∉ log := by
  induction log with
  | nil => simp [attempts, accepted]
  | cons entry log ih =>
    have fewer := accepted_le_attempts log
    unfold attempts accepted at ih fewer ⊢
    rw [countP_cons, countP_cons]
    cases entry with
    | before event verdict taken =>
      cases taken with
      | true =>
        simp [Record.isBefore, Record.isAccepted, ih, Record.before.injEq]
      | false =>
        simp only [Record.isBefore, Record.isAccepted, if_true, Bool.false_eq_true, if_false, Nat.add_zero]
        refine iff_of_false (by omega) fun refused => ?_
        exact refused event verdict mem_cons_self
    | actionStart | actionEnd | after | used | secretTaken =>
      simp [Record.isBefore, Record.isAccepted, ih]

theorem Journaled.in_step {start : Nat} {host : ControlledSourceOperations Id} (journaled : Journaled start host) :
    host.nextAttempt = host.journal.chain.lifecycle.nextAttempt ↔ ∀ event verdict, Record.before event verdict false ∉ host.log := by
  rw [journaled.next, journaled.expected, Nat.add_left_cancel_iff]
  exact attempts_eq_accepted host.log

section Runs

variable [DecidableEq Id] (setting : Setting Id F C)

/-- Calls one after another, each with the answers that are given during it.  A call that fails is
gone on from; with `false`, the last call did not come back. -/
def run : List (Call Id F C × Environment F C) → ControlledSourceOperations Id →
    Bool × ControlledSourceOperations Id
  | [], host => (true, host)
  | (call, environment) :: calls, host =>
    match perform setting call environment host with
    | .ok _ after => run calls after
    | .error (.failed _) after => run calls after
    | .error _ after => (false, after)

/-- What a run leaves; with a secret or a handle to one left over, an end of the outermost action is
neither recorded nor returned as a success. -/
structure WrittenAhead (start : Nat) (returned : Bool) (host : ControlledSourceOperations Id) : Prop where
  along : Along start host.log
  nested : Nested Closes (effects host.log) (unclosed (effects host.log))
  balanced : returned = true → Machine.Balanced Closes (effects host.log)
  once : host.log.countP Record.isSecret ≤ 1
  leftover : ∀ environment action outcome, host.actionStack.tail = [] → host.secretInput = true ∨ host.secretHeaders ≠ [] →
    Yields id (actionEnd setting action outcome) environment host (fun _ after => Unsuccessful host after)
      fun _ after => outcome.outcomeClass ≠ "success" ∧ Unsuccessful host after

variable {setting} {start : Nat} {host after : ControlledSourceOperations Id}

variable (setting) in
theorem run_journaled (calls : List (Call Id F C × Environment F C))
    (valid : Valid start [] [] host) :
    Journaled start (run setting calls host).2 ∧
      ((run setting calls host).1 = true → unclosed (effects (run setting calls host).2.log) = []) := by
  induction calls generalizing host with
  | nil => exact ⟨valid.toJournaled, fun _ => valid.opened⟩
  | cons step _ ih =>
    obtain ⟨call, environment⟩ := step
    have kept : Keeps start [] [] [] (perform setting call) := .perform call
    have outcome := kept environment host valid host rfl
    unfold run
    cases result : perform setting call environment host with
    | ok =>
      rw [result] at outcome
      exact ih outcome
    | error stop =>
      rw [result] at outcome
      cases stop with
      | failed => exact ih outcome
      | panicked | unfinished => exact ⟨outcome, fun impossible => by cases impossible⟩

/-- Every run writes its effects down before they are carried out, and the host is in step with its
journal exactly when the journal has refused none of them. -/
theorem effects_written_ahead (journal : SyncedJournal) (processAttempts : Nat) (secretInput : Option String)
    (metadataOnly : Bool) (random : Option HostProgress)
    (stepped : journal.chain.lifecycle.nextAttempt = min processAttempts maxU64)
    (calls : List (Call Id F C × Environment F C)) (returned : Bool)
    (ran : run setting calls (.new journal processAttempts secretInput metadataOnly random) = (returned, host)) :
    WrittenAhead setting (min processAttempts maxU64) returned host ∧
      (host.nextAttempt = host.journal.chain.lifecycle.nextAttempt ↔
        ∀ event verdict, Record.before event verdict false ∉ host.log) := by
  have valid : Valid (min processAttempts maxU64) [] []
      (ControlledSourceOperations.new journal processAttempts secretInput metadataOnly random : ControlledSourceOperations Id) :=
    new_valid stepped
  have reached := run_journaled setting calls valid
  rw [ran] at reached
  obtain ⟨journaled, closed⟩ := reached
  refine ⟨⟨journaled.along, journaled.nested, ?_, ?_, ?_⟩, journaled.in_step⟩
  · intro back
    have nested := journaled.nested
    rw [closed back] at nested
    exact nested.complete
  · have once : host.log.countP Record.isSecret + _ ≤ 1 := journaled.secret
    omega
  · intro environment action outcome outermost left
    exact actionEnd_leftover outermost left

end Runs

/-! ## An attempt that the journal refuses

A maintained tool may be run with any number of arguments, and the journal takes at most 1024 of
them with the path of the tool. -/

def contractDigest : String := "sha256:9f86d081884c7d659a2feaa0c55ad015a3bf4f1b2b0b822cd15d6c15b0f00a08"

def countTree (count : Nat) : Tree := JournalChain.numberTree (UInt64.ofNat count)

/-- The digest is the one of the only line that is sealed below. -/
def boundedServices : JournalServices where
  toWriter text := Text.bytes ('"' :: (text.toList.flatMap Runtime.plainEscape ++ ['"']))
  sha256 _ := "462ce5f7c82d5f04df30e476ee1b9a48fc60bc5bf73947caf91c94b7c87b6c3e"
  validatePayload kind payload _ :=
    match kind, (payload.get? "operation").bind fun operation => (operation.index "argv_count").asU64 with
    | "effect-before", some count =>
      if 1024 < count then journalCorrupt "metadata-only argv must omit arguments and retain bounded counts" else .ok ()
    | _, _ => .ok ()
  validateHostEvent _ _ _ := .ok ()
  validateAssessment _ _ _ := .ok ()

def operationTree : SourceOperation → Tree
  | .process operation tool count bytes _ _ =>
    .object [("argv", .array []), ("argv_bytes", countTree bytes), ("argv_count", countTree count), ("argv_digest", .null),
      ("evidence_digest", .null), ("kind", .string "process"), ("operation", .string operation), ("status", .null),
      ("stderr_bytes", .null), ("stdout_bytes", .null), ("tool", .string tool)]
  | _ => .null

/-- The answer to what is never asked below. -/
def unreached : Except ModuleError α := .error (.adapter ⟨.unsupported, "unsupported operation"⟩)

def cargoPath : String := "/usr/bin/cargo"

def cargoSetting : Setting Unit Unit Unit where
  services := boundedServices
  renderActionStart node _ := .object [("action_id", .string "release::build"), ("action_node_id", .string node),
    ("contract_digest", .string contractDigest)]
  renderActionEnd node _ := .object [("action_node_id", .string node), ("outcome", .null)]
  renderBefore event _ := .object [("action_node_id", .string event.actionNodeId), ("attempt", countTree event.attempt),
    ("effect", .string "process.run"), ("operation", operationTree event.operation), ("scope", .object []),
    ("verdict", .string "granted-enforced")]
  renderAfter event _ := .object [("action_node_id", .string event.actionNodeId), ("attempt", countTree event.attempt),
    ("effect", .string "process.run"), ("operation", operationTree event.operation), ("scope", .object [])]
  actionNodes _ := some (contractDigest ++ "#000000")
  qualifiedName _ := "release::build"
  root := ⟨Text.bytes ['/', 'p']⟩
  evidencePath := ⟨Text.bytes ['/', 'e']⟩
  manifestPath := ⟨Text.bytes ['/', 'p', '/', 'm']⟩
  manifestDigest := contractDigest
  secrets _ := false
  endpoints _ := none
  executableFiles tool := tool = "cargo"
  plannedInputs _ := none
  dockerTargets _ := none
  sha256 _ := contractDigest
  resolved := .ok
  filesystemDescriptor operation path := .ok (.filesystem operation path)
  processDescriptor tool argv _ :=
    .ok (.process "std::process::run" tool (argv.length + 1) (cargoPath.length + (argv.map String.length).sum) none [])
  dockerDescriptor _ _ _ _ := unreached
  validateOperand _ := .ok ()
  httpHeader _ _ := .ok ()
  duplicateKey _ := "duplicate record field"
  downstream _ _ := none
  pureOperation _ _ _ := none

/-- Nothing that is asked for gets in the way. -/
def grantedEnvironment : Environment Unit Unit where
  poll _ := none
  verdict _ _ := .grantedEnforced
  redact _ text := text
  written _ := none
  readFile _ := unreached
  writeAtomic _ := unreached
  wallNow _ := unreached
  monotonicNow _ := unreached
  monotonicNanos _ := unreached
  runProcess _ := (false, unreached)
  recheckTarget _ := unreached
  validateProbe _ _ := unreached
  versionFields _ _ := unreached
  imageDocument _ _ := unreached
  decodeImage _ _ := unreached
  httpRequest _ := unreached
  readSecret _ := .ok []
  insertSecret _ := none
  prepareStdio _ := (unreached, {})
  admission _ := (unreached, {})
  standardCall _ := (unreached, {})
  passes := 0

def begunJournal : SyncedJournal where
  chain :=
    { runId := "0123456789abcdef0123456789abcdef"
      version := 3
      standardHost := some (.object [("max_host_bytes", countTree 65536)])
      resultPolicy := none
      nextSequence := 1
      previous := some contractDigest
      lines := 1
      bytes := 512
      terminal := false
      lifecycle := {} }
  failed := false

def longArguments : List (Value Unit Unit) :=
  [.nominalRecord (projectNominal "tools" "ToolIdentity") [] [("_id", .string "cargo")], .list (List.replicate 1024 (.string "-v"))]

def refusedCalls : List (Call Unit Unit Unit × Environment Unit Unit) :=
  [(.actionStart (), grantedEnvironment), (.invoke (standardModule "std" "process") "run" longArguments, grantedEnvironment)]

def startedHost : ControlledSourceOperations Unit := .new begunJournal 0 none true none

/-- The state after the refused attempt. -/
def refusedHost : ControlledSourceOperations Unit := (run cargoSetting refusedCalls startedHost).2

theorem refusedCalls_outcome : (run cargoSetting refusedCalls startedHost).1 = true ∧
    refusedHost.nextAttempt ≠ refusedHost.journal.chain.lifecycle.nextAttempt := by decide +kernel

theorem refusedCalls_run : run cargoSetting refusedCalls startedHost = (true, refusedHost) := by
  rw [refusedHost, ← refusedCalls_outcome.1]

theorem effects_written_ahead_refused :
    WrittenAhead cargoSetting 0 true refusedHost ∧ ∃ event verdict, .before event verdict false ∈ refusedHost.log := by
  have stepped : begunJournal.chain.lifecycle.nextAttempt = min 0 maxU64 := rfl
  obtain ⟨written, agree⟩ := effects_written_ahead begunJournal 0 none true none stepped refusedCalls true refusedCalls_run
  have refused := mt agree.mpr refusedCalls_outcome.2
  push Not at refused
  exact ⟨written, refused⟩

theorem refused_attempt_out_of_step :
    ¬ ∀ (setting : Setting Unit Unit Unit) (journal : SyncedJournal) (processAttempts : Nat) (secretInput : Option String)
      (metadataOnly : Bool) (random : Option HostProgress) (calls : List (Call Unit Unit Unit × Environment Unit Unit)),
      journal.chain.lifecycle.nextAttempt = min processAttempts maxU64 → ∀ returned host,
        run setting calls (.new journal processAttempts secretInput metadataOnly random) = (returned, host) →
          host.nextAttempt = host.journal.chain.lifecycle.nextAttempt := by
  intro claim
  have agree := claim cargoSetting begunJournal 0 none true none refusedCalls rfl true refusedHost refusedCalls_run
  exact refusedCalls_outcome.2 agree

end Opaal.Operational.Source
