import Opaal.Runtime.Background
import Opaal.Runtime.ScopeInvariant
import Opaal.Syntax.Source

/-!
# Supervisor completions

What a job supervisor returns to the session: a delta of the lexical scope and one of the
session state.  The scope takes its delta name by name and stops at the first name it
refuses; the session applies a completion to copies of both and keeps them when all of it
went in.
-/

namespace Opaal.Runtime.Supervisor

open Opaal.Machine
open Opaal.Syntax (Span)

variable {F C : Type}

/-! ## Session state -/

/-- The exported variables, name and value as the bytes the system has. -/
structure Environment where
  entries : Std.ExtTreeMap (List UInt8) (List UInt8)

/-- What one name of a delta does to the entries. -/
def Environment.change (base updated : Environment) (entries : Std.ExtTreeMap (List UInt8) (List UInt8))
    (name : List UInt8) : Std.ExtTreeMap (List UInt8) (List UInt8) :=
  if base.entries[name]? = updated.entries[name]? then entries
  else
    match updated.entries[name]? with
    | some value => entries.insert name value
    | none => entries.erase name

/-- Apply only entries changed between `base` and `updated` to this mapping. -/
def Environment.applyDelta (self base updated : Environment) : Environment :=
  ⟨(base.entries.keys ++ updated.entries.keys).foldl (change base updated) self.entries⟩

/-- Mutable shell-session state. -/
structure SessionState where
  cwd : NativePath
  environment : Environment
  currentStatus : Option Status

/-- Paths are compared by their components. -/
def SessionState.applyDelta (self base updated : SessionState) : SessionState where
  cwd := if base.cwd.components ≠ updated.cwd.components then updated.cwd else self.cwd
  environment := self.environment.applyDelta base.environment updated.environment
  currentStatus := if base.currentStatus ≠ updated.currentStatus then updated.currentStatus else self.currentStatus

/-! ## Completions -/

inductive SupervisorOutcome where
  | continued
  | exit (code : UInt8)
deriving DecidableEq

structure SupervisorCompletion (F C : Type) where
  outcome : SupervisorOutcome
  status : Option Status
  baseScope : ScopeStack F C
  updatedScope : ScopeStack F C
  baseState : SessionState
  updatedState : SessionState

inductive CapsuleError where
  | malformed (message : String)
  /-- "invalid supervisor scope delta: " and the text of the error. -/
  | scopeDelta (failure : ScopeFailure)

/-- What an evaluation may change of a session. -/
abbrev Session (F C : Type) := ScopeStack F C × SessionState

section Apply

variable [BEq F] [BEq C]

/-- The scope first; the state is touched when the scope took its delta. -/
def SupervisorCompletion.apply (self : SupervisorCompletion F C) :
    EStateM CapsuleError (Session F C) Unit := do
  let (scope, state) ← get
  match applyCapsuleDelta self.baseScope self.updatedScope scope with
  | .ok _ scope => set (scope, state.applyDelta self.baseState self.updatedState)
  | .error failure scope =>
    set (scope, state)
    throw (.scopeDelta failure)

/-! ## The session's call -/

inductive CapsuleFault where
  /-- "the foreground supervisor returned no completion" -/
  | noCompletion
  /-- "invalid supervisor completion: " and the text of the error. -/
  | invalidCompletion (error : CapsuleError)
  /-- "the foreground supervisor completion has no status" -/
  | noStatus
  /-- The text of the error. -/
  | delta (error : CapsuleError)

/-- A runtime error of kind `ExecutionCapsule`, or the failing `expect` for the status. -/
inductive CompletionFailure where
  | executionCapsule (fault : CapsuleFault) (span : Span)
  | panicked

/-- How a step of a job chain ends. -/
inductive ChainStep where
  | status (status : Status)
  | stopped (job : JobId)
  | exit (code : UInt8)
deriving DecidableEq

def chainStep (completion : SupervisorCompletion F C) :
    EStateM CompletionFailure (Session F C) ChainStep :=
  match completion.outcome, completion.status with
  | .continued, some status => return .status status
  | .continued, none => throw .panicked
  | .exit code, _ => return .exit code

/-- The completion goes into copies, which replace scope and state when all of it went in. -/
def applyDecoded (completion : SupervisorCompletion F C) (span : Span) :
    EStateM CompletionFailure (Session F C) ChainStep := do
  let session ← get
  match completion.apply session with
  | .error error _ => throw (.executionCapsule (.delta error) span)
  | .ok _ pending =>
    set pending
    chainStep completion

def applyForegroundCompletion (decode : List UInt8 → Except CapsuleError (SupervisorCompletion F C))
    (outcome : ForegroundJobOutcome) (span : Span) (completionRequired : Bool) :
    EStateM CompletionFailure (Session F C) ChainStep :=
  match outcome with
  | .stopped job => return .stopped job
  | .completed status supervisorCompletion =>
    match supervisorCompletion.filter fun bytes => !bytes.isEmpty with
    | none => if completionRequired then throw (.executionCapsule .noCompletion span) else return .status status
    | some bytes =>
      match decode bytes with
      | .error error => throw (.executionCapsule (.invalidCompletion error) span)
      | .ok completion =>
        if completion.outcome = .continued ∧ completion.status = none then throw (.executionCapsule .noStatus span)
        else applyDecoded completion span

end Apply

/-! ## Deltas of the environment -/

/-! ## Where a delta of the scope stops -/

section Halts

variable {stack left : ScopeStack F C} {failure : ScopeFailure}

theorem declareTyped_error {name : String} {mutability : BindingMutability} {value : Value F C}
    {valueType : Option ValueType} (failed : declareTyped name mutability value valueType stack = .error failure left) :
    left = stack := by
  by_cases root : stack.frames = []
  · unfold declareTyped at failed
    rw [get_bind, root] at failed
    cases failed
    rfl
  · rcases declareTyped_cases name mutability value valueType root with ⟨_, _, _, _, _, declared⟩ | fails
    · rw [failed] at declared
      contradiction
    · exact fails.unchanged failed

/-- A change that is refused has changed nothing, or has only removed the visible binding. -/
theorem applyChange_error {name : String} {step : Change F C}
    (failed : applyChange name step stack = .error failure left) :
    left = stack ∨ left = ⟨eraseBinding name stack.frames⟩ := by
  cases step with
  | keep => contradiction
  | assign value =>
    left
    rcases assign_cases name value with ⟨_, _, _, _, assigned⟩ | fails
    · rw [show assign name value stack = .error failure left from failed] at assigned
      contradiction
    · exact fails.unchanged failed
  | replace binding =>
    obtain ⟨removed, middle, ran, middles⟩ : ∃ removed middle, remove name stack = .ok removed middle ∧
        (middle = stack ∨ middle = ⟨eraseBinding name stack.frames⟩) := by
      rcases remove_cases name with ⟨_, kept⟩ | ⟨_, _, erased⟩
      · exact ⟨_, _, kept, .inl rfl⟩
      · exact ⟨_, _, erased, .inr rfl⟩
    have rest := (show applyChange name (.replace binding) stack = _ from bind_of_ok ran).symm.trans failed
    cases binding with
    | none => contradiction
    | some => exact (declareTyped_error rest) ▸ middles

/-- Changes that stop do so at one name, after all changes before it went in. -/
theorem applyChanges_error {names : List String} {step : String → Change F C}
    (failed : names.forM (fun name => applyChange name (step name)) stack = .error failure left) :
    ∃ done name rest middle, names = done ++ name :: rest ∧
      done.forM (fun name => applyChange name (step name)) stack = .ok () middle ∧
      applyChange name (step name) middle = .error failure left := by
  induction names generalizing stack with
  | nil => contradiction
  | cons head names ih =>
    cases ran : applyChange head (step head) stack with
    | error other middle =>
      have stops : (head :: names).forM (fun name => applyChange name (step name)) stack = .error other middle :=
        bind_of_error ran
      rw [stops] at failed
      cases failed
      exact ⟨[], head, names, stack, rfl, rfl, ran⟩
    | ok _ middle =>
      have goes : (head :: names).forM (fun name => applyChange name (step name)) stack =
          names.forM (fun name => applyChange name (step name)) middle := bind_of_ok ran
      rw [goes] at failed
      obtain ⟨done, name, rest, reached, split, went, refused⟩ := ih failed
      exact ⟨head :: done, name, rest, reached, by rw [split, List.cons_append], (bind_of_ok ran).trans went, refused⟩

end Halts

/-! ## Completions that fail -/

section Failures

variable {completion : SupervisorCompletion F C} {session after : Session F C}

/-- The step of the chain finds the status it needs. -/
theorem chainStep_ok (complete : ¬(completion.outcome = .continued ∧ completion.status = none))
    (session : Session F C) : ∃ step, chainStep completion session = .ok step session := by
  unfold chainStep
  cases outcome : completion.outcome with
  | exit => exact ⟨_, rfl⟩
  | continued =>
    cases status : completion.status with
    | none => exact absurd ⟨outcome, status⟩ complete
    | some => exact ⟨_, rfl⟩

variable [BEq F] [BEq C]

/-- A scope where the delta of a completion has stopped. -/
def StoppedDelta (completion : SupervisorCompletion F C) (scope : ScopeStack F C)
    (refusal : ScopeFailure) (left : ScopeStack F C) : Prop :=
  ∃ done name rest middle, changedNames completion.baseScope completion.updatedScope = done ++ name :: rest ∧
    done.forM (fun name => applyChange name (changeOf completion.baseScope completion.updatedScope name)) scope =
      .ok () middle ∧
    applyChange name (changeOf completion.baseScope completion.updatedScope name) middle = .error refusal left ∧
    (left = middle ∨ left = ⟨eraseBinding name middle.frames⟩)

theorem apply_cases (completion : SupervisorCompletion F C) (session : Session F C) :
    (∃ pending, applyCapsuleDelta completion.baseScope completion.updatedScope session.1 = .ok () pending ∧
      completion.apply session = .ok () (pending, session.2.applyDelta completion.baseState completion.updatedState)) ∨
      ∃ refusal left, applyCapsuleDelta completion.baseScope completion.updatedScope session.1 = .error refusal left ∧
        completion.apply session = .error (.scopeDelta refusal) (left, session.2) := by
  unfold SupervisorCompletion.apply
  rw [get_bind]
  simp only
  cases applyCapsuleDelta completion.baseScope completion.updatedScope session.1 with
  | ok _ pending => exact .inl ⟨pending, rfl, rfl⟩
  | error refusal left => exact .inr ⟨refusal, left, rfl, rfl⟩

theorem apply_error {error : CapsuleError} (failed : completion.apply session = .error error after) :
    after.2 = session.2 ∧
      ∃ refusal, error = .scopeDelta refusal ∧ StoppedDelta completion session.1 refusal after.1 := by
  rcases apply_cases completion session with ⟨pending, _, applied⟩ | ⟨refusal, left, ran, stopped⟩
  · rw [failed] at applied
    contradiction
  · rw [failed] at stopped
    cases stopped
    obtain ⟨done, name, rest, middle, split, went, refused⟩ := applyChanges_error ran
    exact ⟨rfl, refusal, rfl, done, name, rest, middle, split, went, refused, applyChange_error refused⟩

theorem applyDecoded_error (complete : ¬(completion.outcome = .continued ∧ completion.status = none)) {span : Span}
    {failure : CompletionFailure} (failed : applyDecoded completion span session = .error failure after) :
    after = session := by
  unfold applyDecoded at failed
  rw [get_bind] at failed
  rcases apply_cases completion session with ⟨pending, _, applied⟩ | ⟨refusal, left, _, stopped⟩
  · rw [applied] at failed
    obtain ⟨step, taken⟩ :=
      chainStep_ok complete (pending, session.2.applyDelta completion.baseState completion.updatedState)
    have goes := ((bind_of_ok rfl : (set _ >>= fun _ => chainStep completion) session = _).trans taken).symm.trans failed
    contradiction
  · rw [stopped] at failed
    cases failed
    rfl

theorem applyForegroundCompletion_error
    {decode : List UInt8 → Except CapsuleError (SupervisorCompletion F C)}
    {outcome : ForegroundJobOutcome} {span : Span} {completionRequired : Bool} {failure : CompletionFailure}
    (failed : applyForegroundCompletion decode outcome span completionRequired session = .error failure after) :
    after = session := by
  unfold applyForegroundCompletion at failed
  cases outcome with
  | stopped job => contradiction
  | completed status supervisorCompletion =>
    simp only at failed
    cases sent : supervisorCompletion.filter fun bytes => !bytes.isEmpty with
    | none =>
      rw [sent] at failed
      cases completionRequired with
      | false => contradiction
      | true =>
        cases failed
        rfl
    | some bytes =>
      rw [sent] at failed
      simp only at failed
      cases decoded : decode bytes with
      | error =>
        rw [decoded] at failed
        cases failed
        rfl
      | ok =>
        rw [decoded] at failed
        simp only at failed
        split at failed
        · cases failed
          rfl
        · next complete => exact applyDecoded_error complete failed

/-- A completion that is refused leaves the session state alone and the scope where its delta
stopped, but the session works on copies: its own scope and state are what they were. -/
theorem refused_completion_is_discarded (session after : Session F C) :
    (∀ (completion : SupervisorCompletion F C) (error : CapsuleError),
      completion.apply session = .error error after → after.2 = session.2 ∧
        ∃ refusal, error = .scopeDelta refusal ∧ StoppedDelta completion session.1 refusal after.1) ∧
    ∀ (decode : List UInt8 → Except CapsuleError (SupervisorCompletion F C))
      (outcome : ForegroundJobOutcome) (span : Span) (completionRequired : Bool) (failure : CompletionFailure),
      applyForegroundCompletion decode outcome span completionRequired session = .error failure after →
        after = session :=
  ⟨fun _ _ failed => apply_error failed, fun _ _ _ _ _ failed => applyForegroundCompletion_error failed⟩

/-- The session state that every party of an example has. -/
def emptyState : SessionState := ⟨⟨[]⟩, ⟨∅⟩, none⟩

/-- Two names get a new value, and the session has made the second one immutable. -/
def halfCompletion : SupervisorCompletion Empty Empty :=
  ⟨.exit 0, none, scopeOf 1 1 .mutable, scopeOf 2 2 .mutable, emptyState, emptyState⟩

theorem half_completion_applied :
    ¬∀ (completion : SupervisorCompletion Empty Empty) (session after : Session Empty Empty)
        (error : CapsuleError), completion.apply session = .error error after → after = session := by
  intro atomic
  rcases apply_cases halfCompletion (scopeOf 1 1 .immutable, emptyState) with ⟨_, ran, _⟩ | ⟨_, _, ran, stopped⟩
  · rw [show applyCapsuleDelta halfCompletion.baseScope halfCompletion.updatedScope (scopeOf 1 1 .immutable) = _ from
      applyCapsuleDelta_halts] at ran
    contradiction
  · rw [show applyCapsuleDelta halfCompletion.baseScope halfCompletion.updatedScope (scopeOf 1 1 .immutable) = _ from
      applyCapsuleDelta_halts] at ran
    cases ran
    exact scopeOf_ne_halted (congrArg Prod.fst (atomic _ _ _ _ stopped))

end Failures

end Opaal.Runtime.Supervisor
