import Opaal.Machine.Outcome
import Opaal.Operational.SourceCalls

/-!
# What the host writes down before it acts

The log of the host is judged entry by entry against the log before it: an attempt has the number
of attempts made before it, and nothing reaches the adapter but for an effect that was accepted
last.  `Keeps` says that a program leaves the open effects as they are; an effect opens one, and
its program runs under it.
-/

namespace Opaal.Operational.Source

open Opaal.Machine List
open Opaal.Runtime (Status)
open Opaal.Workflow

variable {Id F C α β : Type}

/-! ## Logs -/

/-- An accepted event with its verdict. -/
abbrev Opened := SourceEffectEvent × AuthorityVerdict

/-- An effect is closed by the record of the same event. -/
def Closes (opened : Opened) (event : SourceEffectEvent) : Prop := opened.1 = event

namespace Record

def boundary : Record Id → Option (Opened ⊕ SourceEffectEvent)
  | before event verdict true => some (.inl (event, verdict))
  | after event _ _ => some (.inr event)
  | _ => none

def isBefore : Record Id → Bool
  | before .. => true
  | _ => false

def isAccepted : Record Id → Bool
  | before _ _ accepted => accepted
  | _ => false

def isSecret : Record Id → Bool
  | secretTaken _ => true
  | _ => false

end Record

/-- The effects of a log as openings and closings. -/
def effects (log : List (Record Id)) : List (Opened ⊕ SourceEffectEvent) := log.filterMap Record.boundary

/-- The attempts that were given to the journal. -/
def attempts (log : List (Record Id)) : Nat := log.countP Record.isBefore

/-- Those among them that it accepted. -/
def accepted (log : List (Record Id)) : Nat := log.countP Record.isAccepted

def justNext (just : List Opened) : Record Id → List Opened
  | .before event verdict true => (event, verdict) :: just
  | .used _ | .secretTaken _ => just
  | _ => []

/-- The effects accepted since the journal last got anything else. -/
def justAccepted (log : List (Record Id)) : List Opened := log.foldl justNext []

/-- What the log before an entry has to be like; `start` is the first attempt. -/
inductive Fits (start : Nat) (earlier : List (Record Id)) : Record Id → Prop
  | actionStart (node : String) (action : Id) (accepted : Bool) : Fits start earlier (.actionStart node action accepted)
  | actionEnd (node : String) (outcome : SourceEffectOutcome) (accepted : Bool) :
      Fits start earlier (.actionEnd node outcome accepted)
  | before (event : SourceEffectEvent) (verdict : AuthorityVerdict) (accepted : Bool)
      (numbered : event.attempt = start + attempts earlier) (executable : verdict.isExecutable = true) :
      Fits start earlier (.before event verdict accepted)
  | after (event : SourceEffectEvent) (outcome : SourceEffectOutcome) (accepted : Bool) :
      Fits start earlier (.after event outcome accepted)
  | used (request : CapabilityRequest) (opened : Opened) (just : opened ∈ justAccepted earlier)
      (requested : opened.1.request = request) (executable : opened.2.isExecutable = true) : Fits start earlier (.used request)
  | secretTaken (secret endpoint header : String) (opened : Opened) (just : opened ∈ justAccepted earlier)
      (requested : opened.1.request = .secretReveal secret endpoint header) (executable : opened.2.isExecutable = true) :
      Fits start earlier (.secretTaken secret)

/-- Every entry fits the log before it. -/
def Along (start : Nat) (log : List (Record Id)) : Prop :=
  ∀ earlier entry later, log = earlier ++ entry :: later → Fits start earlier entry

theorem Along.snoc {start : Nat} {log : List (Record Id)} {entry : Record Id} (along : Along start log)
    (fits : Fits start log entry) : Along start (log ++ [entry]) := by
  intro earlier other later split
  rcases eq_nil_or_concat later with rfl | ⟨before, _, rfl⟩
  · obtain ⟨rfl, same⟩ := append_inj' split rfl
    cases same
    exact fits
  · rw [concat_eq_append, ← cons_append, ← append_assoc] at split
    obtain ⟨rfl, _⟩ := append_inj' split rfl
    exact along earlier other before rfl

section Snoc

variable (log : List (Record Id)) (entry : Record Id)

theorem effects_append : effects (log ++ [entry]) = effects log ++ entry.boundary.toList := by
  unfold effects
  rw [filterMap_append]
  cases bounds : entry.boundary with
  | none => rw [filterMap_cons_none bounds, filterMap_nil, Option.toList_none]
  | some => rw [filterMap_cons_some bounds, filterMap_nil, Option.toList_some]

theorem attempts_append : attempts (log ++ [entry]) = attempts log + if entry.isBefore then 1 else 0 := by
  unfold attempts
  rw [countP_append, countP_singleton]

theorem accepted_append : accepted (log ++ [entry]) = accepted log + if entry.isAccepted then 1 else 0 := by
  unfold accepted
  rw [countP_append, countP_singleton]

theorem justAccepted_append : justAccepted (log ++ [entry]) = justNext (justAccepted log) entry := by
  unfold justAccepted
  rw [foldl_append, foldl_cons, foldl_nil]

end Snoc

/-! ## States -/

/-- What the state knows of its log: the counters of the host and of the journal, and whether the
secret is still there. -/
structure Journaled (start : Nat) (host : ControlledSourceOperations Id) : Prop where
  along : Along start host.log
  nested : Nested Closes (effects host.log) (unclosed (effects host.log))
  next : host.nextAttempt = start + attempts host.log
  expected : host.journal.chain.lifecycle.nextAttempt = start + accepted host.log
  secret : host.log.countP Record.isSecret + (if host.secretInput then 1 else 0) ≤ 1

/-- The effects that are open, and some of those that were accepted last. -/
structure Valid (start : Nat) (opened live : List Opened) (host : ControlledSourceOperations Id) : Prop extends
    Journaled start host where
  opened : unclosed (effects host.log) = opened
  live : ∀ effect ∈ live, effect ∈ justAccepted host.log

section States

variable {start : Nat} {opened live : List Opened} {host after : ControlledSourceOperations Id}

theorem Valid.forget (valid : Valid start opened live host) : Valid start opened [] host :=
  { valid with live := by simp }

/-- Nothing of this depends on the rest of the state. -/
structure Same (host after : ControlledSourceOperations Id) : Prop where
  log : after.log = host.log
  chain : after.journal.chain = host.journal.chain
  nextAttempt : after.nextAttempt = host.nextAttempt
  secretInput : after.secretInput = host.secretInput

theorem Valid.same (valid : Valid start opened live host) (same : Same host after) : Valid start opened live after where
  along := same.log ▸ valid.along
  nested := same.log ▸ valid.nested
  next := by
    rw [same.nextAttempt, same.log]
    exact valid.next
  expected := by
    rw [same.chain, same.log]
    exact valid.expected
  secret := by
    rw [same.secretInput, same.log]
    exact valid.secret
  opened := same.log ▸ valid.opened
  live := same.log ▸ valid.live

/-- One more entry that is no attempt, opens and closes nothing, and takes no secret. -/
theorem Valid.noted {entry : Record Id} {left : List Opened} (valid : Valid start opened live host) (fits : Fits start host.log entry)
    (quiet : entry.boundary = none) (uncounted : entry.isBefore = false) (unaccepted : entry.isAccepted = false)
    (harmless : entry.isSecret = false) (log : after.log = host.log ++ [entry])
    (chain : after.journal.chain.lifecycle.nextAttempt = host.journal.chain.lifecycle.nextAttempt)
    (nextAttempt : after.nextAttempt = host.nextAttempt) (secretInput : after.secretInput = host.secretInput)
    (live : ∀ effect ∈ left, effect ∈ justNext (justAccepted host.log) entry) : Valid start opened left after := by
  have same : effects after.log = effects host.log := by rw [log, effects_append, quiet, Option.toList_none, append_nil]
  refine ⟨⟨?_, ?_, ?_, ?_, ?_⟩, ?_, ?_⟩
  · rw [log]
    exact valid.along.snoc fits
  · rw [same]
    exact valid.nested
  · rw [nextAttempt, log, attempts_append, uncounted]
    exact valid.next
  · rw [chain, log, accepted_append, unaccepted]
    exact valid.expected
  · rw [secretInput, log, countP_append, countP_singleton, harmless]
    exact valid.secret
  · rw [same]
    exact valid.opened
  · intro effect member
    rw [log, justAccepted_append]
    exact live effect member

variable {event : SourceEffectEvent} {verdict : AuthorityVerdict}

/-- An attempt that is given to the journal, with the counter already past it. -/
theorem Valid.attempted (valid : Valid start opened live host) (accepted : Bool) (numbered : event.attempt = host.nextAttempt)
    (executable : verdict.isExecutable = true) (log : after.log = host.log ++ [.before event verdict accepted])
    (chain : after.journal.chain.lifecycle.nextAttempt = host.journal.chain.lifecycle.nextAttempt + if accepted then 1 else 0)
    (nextAttempt : after.nextAttempt = host.nextAttempt + 1) (secretInput : after.secretInput = host.secretInput) :
    if accepted then Valid start ((event, verdict) :: opened) ((event, verdict) :: live) after
    else Valid start opened [] after := by
  have along : Along start after.log := by
    rw [log]
    exact valid.along.snoc (.before event verdict accepted (numbered.trans valid.next) executable)
  have next : after.nextAttempt = start + attempts after.log := by
    rw [nextAttempt, valid.next, log, attempts_append]
    rfl
  have expected : after.journal.chain.lifecycle.nextAttempt = start + Source.accepted after.log := by
    rw [chain, valid.expected, log, accepted_append, Nat.add_assoc]
    rfl
  have secret : after.log.countP Record.isSecret + (if after.secretInput then 1 else 0) ≤ 1 := by
    rw [secretInput, log, countP_append, countP_singleton]
    exact valid.secret
  cases accepted with
  | true =>
    have opens : effects after.log = effects host.log ++ [.inl (event, verdict)] := by
      rw [log, effects_append]
      rfl
    have stack : unclosed (effects after.log) = (event, verdict) :: opened := by
      rw [opens, unclosed_opening, valid.opened]
    refine ⟨⟨along, ?_, next, expected, secret⟩, stack, ?_⟩
    · rw [opens, unclosed_opening]
      exact valid.nested.open (event, verdict)
    · intro effect member
      rw [log, justAccepted_append]
      rcases mem_cons.mp member with rfl | older
      · exact mem_cons_self
      · exact mem_cons_of_mem _ (valid.live effect older)
  | false =>
    have same : effects after.log = effects host.log := by
      rw [log, effects_append]
      exact append_nil _
    refine ⟨⟨along, ?_, next, expected, secret⟩, ?_, by simp⟩
    · rw [same]
      exact valid.nested
    · rw [same]
      exact valid.opened

/-- The record of the innermost open effect. -/
theorem Valid.closed {outcome : SourceEffectOutcome} {accepted : Bool}
    (valid : Valid start ((event, verdict) :: opened) live host)
    (log : after.log = host.log ++ [.after event outcome accepted])
    (chain : after.journal.chain.lifecycle.nextAttempt = host.journal.chain.lifecycle.nextAttempt)
    (nextAttempt : after.nextAttempt = host.nextAttempt) (secretInput : after.secretInput = host.secretInput) :
    Valid start opened [] after := by
  have closes : effects after.log = effects host.log ++ [.inr event] := by
    rw [log, effects_append]
    rfl
  have stack : unclosed (effects after.log) = opened := by
    rw [closes, unclosed_closing, valid.opened]
    rfl
  have nested := valid.nested
  rw [valid.opened] at nested
  refine ⟨⟨?_, ?_, ?_, ?_, ?_⟩, stack, by simp⟩
  · rw [log]
    exact valid.along.snoc (.after event outcome accepted)
  · rw [stack, closes]
    exact nested.close rfl
  · rw [nextAttempt, valid.next, log, attempts_append]
    rfl
  · rw [chain, valid.expected, log, accepted_append]
    rfl
  · rw [secretInput, log, countP_append, countP_singleton]
    exact valid.secret

end States

/-! ## Programs -/

/-- A program that fails leaves a valid state; one that does not come back leaves a journaled one. -/
def Stopped (start : Nat) (opened : List Opened) (stop : Stop) (after : ControlledSourceOperations Id) : Prop :=
  match stop with
  | .failed _ => Valid start opened [] after
  | _ => Journaled start after

/-- Under the open effects, with some accepted last before and some after, the program keeps the log
valid whatever the environment answers. -/
def Keeps (start : Nat) (opened live left : List Opened) (program : Controlled Id F C α) : Prop :=
  ∀ environment host, Valid start opened live host →
    Yields id program environment host (Stopped start opened) fun _ after => Valid start opened left after

section Rules

variable {start : Nat} {opened live left middle : List Opened} {program : Controlled Id F C α}
  {rest : α → Controlled Id F C β}

theorem Keeps.pure (value : α) : Keeps start opened live live (pure value : Controlled Id F C α) :=
  fun _ _ valid => .pure valid

theorem Keeps.fail (error : ModuleError) : Keeps start opened live left (fail error : Controlled Id F C α) :=
  fun _ _ valid => .throw valid.forget

theorem Keeps.throw {stop : Stop} (gone : ∀ error, stop ≠ .failed error) :
    Keeps start opened live left (throw stop : Controlled Id F C α) := by
  intro _ _ valid
  refine .throw ?_
  cases stop with
  | failed error => exact absurd rfl (gone error)
  | panicked | unfinished => exact valid.toJournaled

theorem Keeps.bind (first : Keeps start opened live middle program) (second : ∀ value, Keeps start opened middle left (rest value)) :
    Keeps start opened live left (program >>= rest) :=
  fun environment host valid => (first environment host valid).bind fun value after holds => second value environment after holds

/-- What was accepted last need not be known any more. -/
theorem Keeps.forget (keeps : Keeps start opened live left program) : Keeps start opened live [] program :=
  fun environment host valid => (keeps environment host valid).mono (fun _ _ holds => holds.forget) fun _ _ holds => holds

theorem Keeps.finish (result : Except ModuleError α) :
    Keeps start opened live live (finish result : Controlled Id F C α) := by
  cases result with
  | ok value => exact .pure value
  | error error => exact .fail error

theorem Keeps.unless {condition : Prop} [Decidable condition] {error : ModuleError}
    (keeps : Keeps start opened live live program) :
    Keeps start opened live live (if condition then Source.fail error else program) := by
  split
  · exact .fail error
  · exact keeps

theorem Keeps.ask (answer : Environment F C → Nat → α) :
    Keeps start opened live live (ask answer : Controlled Id F C α) := by
  rintro environment host valid _ rfl
  exact valid.same ⟨rfl, rfl, rfl, rfl⟩

theorem Keeps.poll : Keeps start opened live live (poll : Controlled Id F C Unit) := by
  refine (Keeps.ask _).bind fun reason => ?_
  cases reason with
  | some => exact .fail _
  | none => exact .pure _

variable {environment : Environment F C} {host : ControlledSourceOperations Id}
  {rest : ControlledSourceOperations Id → Controlled Id F C β}
  {failed : Stop → ControlledSourceOperations Id → Prop} {post : β → ControlledSourceOperations Id → Prop}
  {change : ControlledSourceOperations Id → ControlledSourceOperations Id} {request : CapabilityRequest}

theorem get_yields (goes : Yields id (rest host) environment host failed post) : Yields id (get >>= rest) environment host failed post := by
  rintro host rfl
  exact goes host rfl

theorem ask_yields {answer : Environment F C → Nat → α} {rest : α → Controlled Id F C β}
    (goes : Yields id (rest (answer environment host.clock)) environment { host with clock := host.clock + 1 } failed post) :
    Yields id (ask answer >>= rest) environment host failed post := by
  rintro host rfl
  exact goes _ rfl

theorem modify_yields {rest : Unit → Controlled Id F C β}
    (goes : Yields id (rest ()) environment (change host) failed post) :
    Yields id (modify change >>= rest) environment host failed post := by
  rintro host rfl
  exact goes _ rfl

theorem set_yields {after : ControlledSourceOperations Id} {rest : Unit → Controlled Id F C β}
    (goes : Yields id (rest ()) environment after failed post) :
    Yields id (set after >>= rest) environment host failed post :=
  fun _ _ => goes after rfl

/-- A step that only reads the state. -/
theorem Keeps.reads (goes : ∀ host, Keeps start opened live left (rest host)) : Keeps start opened live left (get >>= rest) :=
  fun environment host valid => get_yields (goes host environment host valid)

theorem Keeps.modify (same : ∀ host, Same host (change host)) :
    Keeps start opened live live (modify change : Controlled Id F C Unit) := by
  rintro environment host valid _ rfl
  exact valid.same (same _)

theorem Keeps.pushEvidence (evidence : SourceOperationalEvidence) :
    Keeps start opened live live (pushEvidence evidence : Controlled Id F C Unit) :=
  .modify fun _ => ⟨rfl, rfl, rfl, rfl⟩

/-- The adapter may be reached for a request that was accepted last. -/
theorem Keeps.used {effect : Opened} (known : effect ∈ live) (requested : effect.1.request = request)
    (executable : effect.2.isExecutable = true) :
    Keeps start opened live live (record (.used request) : Controlled Id F C Unit) := by
  rintro environment host valid _ rfl
  exact valid.noted (.used request effect (valid.live effect known) requested executable) rfl rfl rfl rfl rfl rfl rfl rfl valid.live

theorem Keeps.carryOut {effect : Opened} (known : effect ∈ live) (requested : effect.1.request = request)
    (executable : effect.2.isExecutable = true) (answer : Environment F C → Nat → Except ModuleError α) :
    Keeps start opened live live (carryOut request answer : Controlled Id F C α) := by
  refine (Keeps.used known requested executable).bind fun _ => ?_
  exact (Keeps.ask _).bind fun result => .finish result

/-! ## The journal -/

section Journal

variable {setting : Setting Id F C}

/-- An entry for the journal and nothing else; `counted` is how far the journal counts on. -/
structure Submitted (entry : Record Id) (counted : Nat) (host after : ControlledSourceOperations Id) : Prop where
  log : after.log = host.log ++ [entry]
  expected : after.journal.chain.lifecycle.nextAttempt = host.journal.chain.lifecycle.nextAttempt + counted
  nextAttempt : after.nextAttempt = host.nextAttempt
  secretInput : after.secretInput = host.secretInput

def counted (event : Event) : Nat := if event.kind = "effect-before" then 1 else 0

/-- Every attempt that is recorded is the next one. -/
theorem append_counted {services : JournalServices} {chain next : JournalChain} {event : Event} {line : List UInt8}
    (appended : chain.append services event = .ok (next, line)) :
    next.lifecycle.nextAttempt = chain.lifecycle.nextAttempt + counted event := by
  have admitted := JournalChain.append_admitted appended
  generalize next.lifecycle = after at admitted
  cases admitted with
  | effectBefore => rfl
  | actionStart | actionEnd | effectAfter | cleanup | terminal | evidenceFailure => simp [counted]

variable {event : SourceEffectEvent} {entry : Bool → Record Id} {environment : Environment F C}
  {host : ControlledSourceOperations Id} {failed : Stop → ControlledSourceOperations Id → Prop}
  {verdict : AuthorityVerdict} {operation : String} {descriptor : SourceOperation} {request : CapabilityRequest}
  {invoke : Controlled Id F C (Effected α)}

theorem submit_yields {event : Event} {post : Except String Unit → ControlledSourceOperations Id → Prop}
    (accepts : ∀ after, Submitted (entry true) (counted event) host after → post (.ok ()) after)
    (refuses : ∀ message after, Submitted (entry false) 0 host after → post (.error message) after)
    (panics : ∀ message after, Submitted (entry false) 0 host after → failed (.panicked message) after) :
    Yields id (submit setting entry event) environment host failed post := by
  rintro host rfl
  unfold submit
  cases appended : host.journal.append setting.services (environment.written host.clock) event with
  | mk journal result =>
    cases result with
    | ok =>
      obtain ⟨_, result⟩ := SyncedJournal.append_ok appended
      exact accepts _ ⟨rfl, append_counted result, rfl, rfl⟩
    | error fault =>
      have same := SyncedJournal.append_error appended
      have expected : journal.chain.lifecycle.nextAttempt = host.journal.chain.lifecycle.nextAttempt + 0 := by rw [same, Nat.add_zero]
      cases fault with
      | error => exact refuses _ _ ⟨rfl, expected, rfl, rfl⟩
      | panic => exact panics _ _ ⟨rfl, expected, rfl, rfl⟩

/-- The boundaries of actions change no effect, whatever the journal says of them. -/
theorem Keeps.submit {event : Event} (other : event.kind ≠ "effect-before")
    (fits : ∀ accepted earlier, Fits start earlier (entry accepted)) (quiet : ∀ accepted, (entry accepted).boundary = none)
    (uncounted : ∀ accepted, (entry accepted).isBefore = false) (unaccepted : ∀ accepted, (entry accepted).isAccepted = false)
    (harmless : ∀ accepted, (entry accepted).isSecret = false) :
    Keeps start opened live [] (submit setting entry event : Controlled Id F C (Except String Unit)) := by
  intro environment host valid
  have noted (accepted : Bool) (after : ControlledSourceOperations Id) (done : Submitted (entry accepted) 0 host after) :
      Valid start opened [] after :=
    valid.noted (fits accepted host.log) (quiet accepted) (uncounted accepted) (unaccepted accepted) (harmless accepted)
      done.log done.expected done.nextAttempt done.secretInput (by simp)
  have nothing : counted event = 0 := if_neg other
  refine submit_yields ?_ ?_ ?_
  · intro after done
    exact noted true after (nothing ▸ done)
  · intro _ after done
    exact noted false after done
  · intro _ after done
    exact (noted false after done).toJournaled

theorem Keeps.journalActionStart (node : String) (action : Id) :
    Keeps start opened live [] (journalActionStart setting node action) :=
  .submit (by simp) (fun accepted _ => .actionStart node action accepted) (fun _ => rfl) (fun _ => rfl) (fun _ => rfl)
    fun _ => rfl

theorem Keeps.journalActionEnd (node : String) (outcome : SourceEffectOutcome) :
    Keeps start opened live [] (journalActionEnd setting node outcome : Controlled Id F C _) :=
  .submit (by simp) (fun accepted _ => .actionEnd node outcome accepted) (fun _ => rfl) (fun _ => rfl) (fun _ => rfl)
    fun _ => rfl

/-- The innermost effect is closed, whether the journal takes its record or not. -/
theorem journalAfter_yields {outcome : SourceEffectOutcome} (valid : Valid start ((event, verdict) :: opened) live host) :
    Yields id (journalAfter setting event outcome) environment host (Stopped start opened)
      fun _ after => Valid start opened [] after := by
  have closed (accepted : Bool) (after : ControlledSourceOperations Id)
      (done : Submitted (.after event outcome accepted) 0 host after) : Valid start opened [] after :=
    valid.closed done.log done.expected done.nextAttempt done.secretInput
  refine submit_yields ?_ ?_ ?_
  · intro after done
    exact closed true after done
  · intro _ after done
    exact closed false after done
  · intro _ after done
    exact (closed false after done).toJournaled

theorem takeAttempt_yields (fails : ∀ error, failed (.failed error) host) :
    Yields id (takeAttempt : Controlled Id F C Nat) environment host failed
      fun attempt after => attempt = host.nextAttempt ∧ after = { host with nextAttempt := host.nextAttempt + 1 } := by
  rintro host rfl
  have asked : (get : Controlled Id F C (ControlledSourceOperations Id)) environment host = .ok host host := rfl
  unfold takeAttempt
  rw [ok_bind asked]
  cases added : checkedAdd host.nextAttempt 1 with
  | none => exact fails _
  | some =>
    cases checkedAdd_eq_some added
    exact ⟨rfl, rfl⟩

/-- With the counter past the attempt the journal is asked. -/
theorem journalBefore_yields (valid : Valid start opened live host) (numbered : event.attempt = host.nextAttempt)
    (executable : verdict.isExecutable = true) :
    Yields id (journalBefore setting event verdict) environment { host with nextAttempt := host.nextAttempt + 1 }
      (Stopped start opened) fun result after => match result with
        | .ok () => Valid start ((event, verdict) :: opened) ((event, verdict) :: live) after
        | .error _ => Valid start opened [] after := by
  refine submit_yields ?_ ?_ ?_
  · intro after done
    exact valid.attempted true numbered executable done.log done.expected done.nextAttempt done.secretInput
  · intro _ after done
    exact valid.attempted false numbered executable done.log done.expected done.nextAttempt done.secretInput
  · intro _ after done
    have refused := valid.attempted false numbered executable done.log done.expected done.nextAttempt done.secretInput
    exact refused.toJournaled

/-! ## Effects -/

theorem succeeded_yields {value : α} {status : Option Status} {result : SourceEffectResult}
    (valid : Valid start ((event, verdict) :: opened) live host) :
    Yields id (succeeded setting event operation value status result) environment host (Stopped start opened)
      fun _ after => Valid start opened [] after := by
  rintro host rfl
  refine (journalAfter_yields valid).bind ?_ host rfl
  intro recorded after closed
  cases recorded with
  | error =>
    exact ((Keeps.pushEvidence _).bind fun _ => .fail _) environment after closed
  | ok =>
    refine ((Keeps.pushEvidence _).bind fun _ => ?_) environment after closed
    exact Keeps.poll.bind fun _ => .pure value

/-- It reads the progress of the host, or never comes back. -/
theorem failedResult_yields (journaled : Journaled start host) :
    Yields id (failedResult descriptor : Controlled Id F C _) environment host (Stopped start opened)
      fun _ after => after = host := by
  refine get_yields ?_
  split
  · exact .pure rfl
  · exact .throw journaled
  · exact .pure rfl
  · exact .throw journaled
  · exact .pure rfl

theorem failedEffect_yields {processAttempts : Nat} {error : ModuleError}
    (valid : Valid start ((event, verdict) :: opened) live host) :
    Yields id (failedEffect setting event operation processAttempts error : Controlled Id F C α) environment host
      (Stopped start opened) fun _ after => Valid start opened [] after := by
  refine (failedResult_yields valid.toJournaled).bind ?_
  rintro result host rfl
  refine ask_yields (get_yields ?_)
  have asked : Valid start ((event, verdict) :: opened) live { host with clock := host.clock + 1 } :=
    valid.same ⟨rfl, rfl, rfl, rfl⟩
  refine (journalAfter_yields asked).bind ?_
  intro recorded after closed
  generalize failedPartially result error _ = isPartial
  have last (detail : String) : Keeps start opened [] [] (if isPartial = true then do
      pushEvidence (.incomplete operation detail)
      fail error
    else fail error : Controlled Id F C α) := by
    split
    · exact (Keeps.pushEvidence _).bind fun _ => .fail error
    · exact .fail error
  cases recorded with
  | ok => exact last _ environment after closed
  | error => exact ((Keeps.pushEvidence _).bind fun _ => last _) environment after closed

theorem Keeps.activeNode : Keeps start opened live live (activeNode setting : Controlled Id F C String) := by
  refine .reads fun host => ?_
  split
  · exact .pure _
  · exact .fail _

/-- An effect, whose program runs while the effect is open. -/
theorem Keeps.effect
    (inside : ∀ effect : Opened, effect.1.request = request → effect.2.isExecutable = true → Keeps start (effect :: opened) (effect :: live) [] invoke) :
    Keeps start opened live [] (effect setting request operation descriptor invoke) := by
  refine Keeps.poll.bind fun _ => (Keeps.ask _).bind fun verdict => ?_
  split
  · exact .fail _
  · next executable =>
    refine Keeps.activeNode.bind fun node => ?_
    intro environment host valid
    have executable : verdict.isExecutable = true := by simpa using executable
    refine (takeAttempt_yields fun error => valid.forget).bind ?_
    rintro _ _ ⟨rfl, rfl⟩
    refine (journalBefore_yields valid rfl executable).bind ?_
    intro recorded after holds
    cases recorded with
    | error => exact Keeps.fail _ environment after holds
    | ok =>
      refine modify_yields (get_yields ?_)
      have marked : Valid start ((⟨node, request, descriptor, host.nextAttempt⟩, verdict) :: opened)
          ((⟨node, request, descriptor, host.nextAttempt⟩, verdict) :: live)
          { after with actionStack := after.actionStack.map fun entry => (entry.1, true) } :=
        holds.same ⟨rfl, rfl, rfl, rfl⟩
      refine (inside _ rfl executable environment _ marked).observed.bind ?_
      intro outcome ended left
      cases outcome with
      | ok => exact succeeded_yields left
      | error stop =>
        cases stop with
        | failed => exact failedEffect_yields left
        | panicked | unfinished => exact Yields.throw left

/-- The same for a program that has no effects inside. -/
theorem Keeps.leafEffect
    (inside : ∀ effect : Opened, effect.1.request = request → effect.2.isExecutable = true → Keeps start (effect :: opened) (effect :: live) (effect :: live) invoke) :
    Keeps start opened live [] (Source.effect setting request operation descriptor invoke) :=
  .effect fun effect requested executable => (inside effect requested executable).forget

end Journal

end Rules

end Opaal.Operational.Source
