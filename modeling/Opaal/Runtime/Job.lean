import Std.Data.ExtTreeMap
import Opaal.Machine.Action
import Opaal.Runtime.Value

/-!
# The lifecycle of one job

A job registers its children, folds their observations into one published state and
keeps a completed record until its notice is acknowledged.  Every operation changes
the job in place and may be rejected; the two expectations about the placement are
modelled as panics, so that it can be shown that they never happen.
-/

namespace Opaal.Runtime

open Opaal.Machine

/-- A shell-assigned job identity, distinct from reusable host process ids. -/
@[ext]
structure JobId where
  value : UInt64
  nonzero : value ≠ 0
deriving DecidableEq

def JobId.new (value : UInt64) : Option JobId := if nonzero : value ≠ 0 then some ⟨value, nonzero⟩ else none

instance : Ord JobId := ⟨compareOn fun job => job.value.toNat⟩

instance : Std.TransOrd JobId :=
  inferInstanceAs (Std.TransCmp (compareOn fun job : JobId => job.value.toNat))

instance : Std.LawfulEqOrd JobId where
  compare_self := Std.ReflCmp.compare_self
  eq_of_compare same := JobId.ext (UInt64.toNat_inj.mp (Nat.compare_eq_eq.mp same))

/-- A process identity supplied by the platform child handle. -/
@[ext]
structure ProcessId where
  value : UInt64
  nonzero : value ≠ 0
deriving DecidableEq

def ProcessId.new (value : UInt64) : Option ProcessId :=
  if nonzero : value ≠ 0 then some ⟨value, nonzero⟩ else none

instance : Ord ProcessId := ⟨compareOn fun process => process.value.toNat⟩

instance : Std.TransOrd ProcessId :=
  inferInstanceAs (Std.TransCmp (compareOn fun process : ProcessId => process.value.toNat))

instance : Std.LawfulEqOrd ProcessId where
  compare_self := Std.ReflCmp.compare_self
  eq_of_compare same := ProcessId.ext (UInt64.toNat_inj.mp (Nat.compare_eq_eq.mp same))

/-- A process group identity, never zero. -/
structure ProcessGroupId where
  value : UInt64
  nonzero : value ≠ 0
deriving DecidableEq

/-- Whether a running or resumed job owns the foreground terminal. -/
inductive JobPlacement where
  | foreground
  | background
deriving DecidableEq

inductive JobState where
  | planned
  | starting
  | foreground
  | background
  | stopped (resume : JobPlacement)
  | completed
  | notified
  | reaped
deriving DecidableEq

/-- The latest observation retained for one member process. -/
inductive JobMemberState where
  | running
  | stopped (signal : Int32)
  | completed (status : Status)
deriving DecidableEq

inductive JobTransitionError where
  | invalidState (operation : String) (state : JobState)
  | noMembers
  | duplicateProcess (process : ProcessId)
  | unknownProcess (process : ProcessId)
  | processAlreadyCompleted (process : ProcessId)
  | noPendingNotice
deriving DecidableEq

/-- How an operation on a job can fail to return normally. -/
inductive JobFailure where
  | rejected (error : JobTransitionError)
  | panicked (message : String)
deriving DecidableEq

structure Job where
  id : JobId
  state : JobState
  placement : Option JobPlacement
  members : Std.ExtTreeMap ProcessId JobMemberState
  noticePending : Bool

/-- An operation on a job; a failed one keeps the job it failed in. -/
abbrev JobM := Opaal.Machine.Action Unit JobFailure Job

def JobPlacement.into : JobPlacement → JobState
  | .foreground => .foreground
  | .background => .background

def JobState.isStopped : JobState → Bool
  | .stopped _ => true
  | _ => false

def JobMemberState.isStopped : JobMemberState → Bool
  | .stopped _ => true
  | _ => false

def JobMemberState.isCompleted : JobMemberState → Bool
  | .completed _ => true
  | _ => false

namespace Job

def new (id : JobId) : Job := ⟨id, .planned, none, ∅, false⟩

/-! ## Operations -/

def reject (error : JobTransitionError) : JobM Unit := throw (.rejected error)

def requireState (operation : String) (accepted : List JobState) : JobM Unit := do
  let job ← get
  if accepted.contains job.state then return ()
  reject (.invalidState operation job.state)

def requireObservable (operation : String) : JobM Unit := do
  let job ← get
  match job.state with
  | .starting | .foreground | .background | .stopped _ => return ()
  | state => reject (.invalidState operation state)

def requireStopped (operation : String) : JobM Unit := do
  let job ← get
  if job.state.isStopped then return ()
  reject (.invalidState operation job.state)

def publishedPlacement (job : Job) : JobM JobPlacement :=
  match job.placement with
  | some placement => return placement
  | none => throw (.panicked "a published job always retains its placement")

def allMembers (job : Job) (holds : JobMemberState → Bool) : Bool :=
  job.members.toList.all fun entry => holds entry.2

def reconcile : JobM Unit := do
  let job ← get
  if job.state = .starting then
    return ()
  if job.allMembers JobMemberState.isCompleted then
    set { job with
      noticePending := job.noticePending || decide (job.state ≠ JobState.completed)
      state := .completed }
  else if job.allMembers (fun member => member.isStopped || member.isCompleted) then
    let resume ← job.publishedPlacement
    set { job with
      noticePending := job.noticePending || !job.state.isStopped
      state := .stopped resume }
  else
    let placement ← job.publishedPlacement
    set { job with state := placement.into }

def beginStarting : JobM Unit := do
  requireState "begin startup" [.planned]
  modify fun job => { job with state := .starting }

def withMember (job : Job) (process : ProcessId) (member : JobMemberState) : Job :=
  { job with members := job.members.insert process member }

def addProcess (process : ProcessId) : JobM Unit := do
  requireState "register a process" [.starting]
  let job ← get
  if job.members.contains process then
    reject (.duplicateProcess process)
  else
    set (job.withMember process .running)

def placedIn (job : Job) (placement : JobPlacement) : Job :=
  { job with placement := some placement, state := placement.into }

def finishStarting (placement : JobPlacement) : JobM Unit := do
  requireState "finish startup" [.starting]
  let job ← get
  if job.members.isEmpty then
    reject .noMembers
  else
    set (job.placedIn placement)
    reconcile

/-- The member an observation is about, which must not have ended yet. -/
def observe (operation : String) (process : ProcessId) (member : JobMemberState) : JobM Unit := do
  requireObservable operation
  let job ← get
  match job.members[process]? with
  | none => reject (.unknownProcess process)
  | some current =>
    if current.isCompleted then
      reject (.processAlreadyCompleted process)
    else
      set (job.withMember process member)

def observeStopped (process : ProcessId) (signal : Int32) : JobM Unit := do
  observe "observe a stopped process" process (.stopped signal)
  reconcile

/-- A job one of whose members went on: a stopped one resumes, and its notice is moot. -/
def continued (job : Job) : Job :=
  { job with
    placement :=
      match job.state with
      | .stopped resume => some resume
      | _ => job.placement
    noticePending := false }

def observeContinued (process : ProcessId) : JobM Unit := do
  observe "observe a continued process" process .running
  modify continued
  reconcile

def observeCompleted (process : ProcessId) (status : Status) : JobM Unit := do
  observe "observe a completed process" process (.completed status)
  reconcile

def moveTo (placement : JobPlacement) : JobM Unit := do
  requireState "change placement" [.foreground, .background]
  modify fun job => job.placedIn placement

/-- A job whose stopped members went on. -/
def resumed (job : Job) : Job :=
  { job with
    members := job.members.map fun _ member => if member.isStopped then .running else member
    noticePending := false }

def continueIn (placement : JobPlacement) : JobM Unit := do
  requireStopped "continue"
  modify fun job => job.resumed.placedIn placement

def acknowledgeStoppedNotice : JobM Unit := do
  requireStopped "acknowledge a stopped notice"
  let job ← get
  if job.noticePending then
    set { job with noticePending := false }
  else
    reject .noPendingNotice

def markNotified : JobM Unit := do
  requireState "mark notified" [.completed]
  modify fun job => { job with state := .notified, noticePending := false }

def markReaped : JobM Unit := do
  requireState "mark reaped" [.notified]
  modify fun job => { job with state := .reaped }

def abortStartingAfterCleanup : JobM Unit := do
  requireState "abort startup" [.starting]
  modify fun job => { job with state := .reaped, members := ∅ }

/-- Everything that can be asked of a job, or reported about one of its members. -/
inductive Request where
  | beginStarting
  | addProcess (process : ProcessId)
  | finishStarting (placement : JobPlacement)
  | observeStopped (process : ProcessId) (signal : Int32)
  | observeContinued (process : ProcessId)
  | observeCompleted (process : ProcessId) (status : Status)
  | moveTo (placement : JobPlacement)
  | continueIn (placement : JobPlacement)
  | acknowledgeStoppedNotice
  | markNotified
  | markReaped
  | abortStartingAfterCleanup

def Request.isObservation : Request → Bool
  | .observeStopped _ _ | .observeContinued _ | .observeCompleted _ _ => true
  | _ => false

def perform : Request → JobM Unit
  | .beginStarting => beginStarting
  | .addProcess process => addProcess process
  | .finishStarting placement => finishStarting placement
  | .observeStopped process signal => observeStopped process signal
  | .observeContinued process => observeContinued process
  | .observeCompleted process status => observeCompleted process status
  | .moveTo placement => moveTo placement
  | .continueIn placement => continueIn placement
  | .acknowledgeStoppedNotice => acknowledgeStoppedNotice
  | .markNotified => markNotified
  | .markReaped => markReaped
  | .abortStartingAfterCleanup => abortStartingAfterCleanup

/-- The job an operation leaves, whether it returned or not. -/
def left : EStateM.Result JobFailure Job Unit → Job
  | .ok _ job => job
  | .error _ job => job

/-- The job after a sequence of requests, rejected ones included. -/
def after (requests : List Request) (job : Job) : Job :=
  requests.foldl (fun job request => left (perform request () job)) job

/-! ## The published state -/

def EveryMember (job : Job) (holds : JobMemberState → Bool) : Prop :=
  ∀ (process : ProcessId) (member : JobMemberState), job.members[process]? = some member → holds member = true

theorem allMembers_iff {job : Job} {holds : JobMemberState → Bool} :
    job.allMembers holds = true ↔ job.EveryMember holds := by
  unfold allMembers EveryMember
  rw [List.all_eq_true]
  constructor
  · intro every process member found
    exact every (process, member) (Std.ExtTreeMap.mem_toList_iff_getElem?_eq_some.mpr found)
  · intro every entry listed
    exact every entry.1 entry.2 (Std.ExtTreeMap.mem_toList_iff_getElem?_eq_some.mp listed)

/-- Stopped, or no longer live. -/
def settled (member : JobMemberState) : Bool := member.isStopped || member.isCompleted

/-- The state members and a placement stand for. -/
def folded (job : Job) (placement : JobPlacement) : JobState :=
  if job.allMembers JobMemberState.isCompleted then .completed
  else if job.allMembers settled then .stopped placement
  else placement.into

/-- Whether the state is a report about the members. -/
def isPublished (job : Job) : Bool :=
  match job.state with
  | .foreground | .background | .stopped _ | .completed => true
  | .planned | .starting | .notified | .reaped => false

/-- What holds of a job between operations. -/
structure Consistent (job : Job) : Prop where
  published : job.isPublished = true → ∃ placement, job.placement = some placement ∧
    job.state = job.folded placement ∧ job.members ≠ ∅
  notice : job.noticePending = true → job.state.isStopped = true ∨ job.state = .completed
  acknowledged : job.state = .notified → job.EveryMember JobMemberState.isCompleted

/-- An operation either leaves a consistent job, or is rejected and leaves the job as it was. -/
def Sound (job : Job) : EStateM.Result JobFailure Job Unit → Prop
  | .ok _ after => after.Consistent
  | .error (.rejected _) after => after = job
  | .error (.panicked _) _ => False

section Operations

variable {job : Job}

/-! ### Checks

An operation behind a check only has to be sound where the check passes. -/

theorem requireState_run (operation : String) (accepted : List JobState) (job : Job) :
    requireState operation accepted () job = if accepted.contains job.state then .ok () job
      else .error (.rejected (.invalidState operation job.state)) job := by
  show (if accepted.contains job.state then _ else _ : JobM Unit) () job = _
  split <;> rfl

variable {operation : String} {rest : Unit → JobM Unit} {placement : JobPlacement} {process : ProcessId}
  {member : JobMemberState}

theorem requireState_sound {accepted : List JobState} (passes : job.state ∈ accepted → Sound job (rest () () job)) :
    Sound job ((requireState operation accepted >>= rest) () job) := by
  have run := requireState_run operation accepted job
  split at run
  · next accepts =>
    rw [ok_bind run]
    exact passes (List.contains_iff_mem.mp accepts)
  · rw [error_bind run]
    rfl

theorem requireStopped_run (operation : String) (job : Job) :
    requireStopped operation () job = if job.state.isStopped then .ok () job
      else .error (.rejected (.invalidState operation job.state)) job := by
  show (if job.state.isStopped then _ else _ : JobM Unit) () job = _
  split <;> rfl

theorem requireStopped_sound (passes : ∀ resume, job.state = .stopped resume → Sound job (rest () () job)) :
    Sound job ((requireStopped operation >>= rest) () job) := by
  have run := requireStopped_run operation job
  split at run
  · next stopped =>
    rw [ok_bind run]
    cases state : job.state with
    | stopped resume => exact passes resume state
    | _ => simp [JobState.isStopped, state] at stopped
  · rw [error_bind run]
    rfl

/-- The states in which members are observed. -/
def isObservable (job : Job) : Bool :=
  match job.state with
  | .starting | .foreground | .background | .stopped _ => true
  | .planned | .completed | .notified | .reaped => false

theorem requireObservable_run (operation : String) (job : Job) :
    requireObservable operation () job = if job.isObservable then .ok () job
      else .error (.rejected (.invalidState operation job.state)) job := by
  show (match job.state with
    | .starting | .foreground | .background | .stopped _ => return ()
    | state => reject (.invalidState operation state) : JobM Unit) () job = _
  unfold isObservable
  cases job.state <;> rfl

theorem observe_run (operation : String) (process : ProcessId) (member : JobMemberState)
    (observable : job.isObservable = true) :
    observe operation process member () job =
      match job.members[process]? with
      | none => .error (.rejected (.unknownProcess process)) job
      | some current =>
        if current.isCompleted then .error (.rejected (.processAlreadyCompleted process)) job
        else .ok () (job.withMember process member) := by
  have check := requireObservable_run operation job
  rw [if_pos observable] at check
  unfold observe
  rw [ok_bind check]
  show (match job.members[process]? with
    | none => reject (.unknownProcess process)
    | some current =>
      if current.isCompleted then reject (.processAlreadyCompleted process)
      else set (job.withMember process member) : JobM Unit) () job = _
  cases job.members[process]? with
  | none => rfl
  | some current => cases completed : current.isCompleted <;> simp [completed] <;> rfl

/-- An observation names a live member of an observable job and replaces its state, or it
is rejected. -/
theorem observe_cases (operation : String) (process : ProcessId) (member : JobMemberState) (job : Job) :
    (∃ error, observe operation process member () job = .error (.rejected error) job) ∨
      ∃ current, job.isObservable = true ∧ job.members[process]? = some current ∧
        current.isCompleted = false ∧ observe operation process member () job =
          .ok () (job.withMember process member) := by
  by_cases observable : job.isObservable = true
  · rw [observe_run operation process member observable]
    cases found : job.members[process]? with
    | none => exact .inl ⟨_, rfl⟩
    | some current =>
      cases completed : current.isCompleted with
      | true => exact .inl ⟨_, by simp only [completed, ↓reduceIte]; rfl⟩
      | false => exact .inr ⟨current, observable, rfl, completed, by simp only [completed]; rfl⟩
  · have check := requireObservable_run operation job
    rw [if_neg observable] at check
    exact .inl ⟨_, error_bind check⟩

/-! ### Reconciling -/

/-- Reconciling outside startup, branch by branch. -/
theorem reconcile_eq (started : job.state ≠ .starting) (placed : job.placement = some placement) :
    reconcile () job =
      if job.allMembers JobMemberState.isCompleted then
        .ok () { job with
          noticePending := job.noticePending || decide (job.state ≠ JobState.completed), state := .completed }
      else if job.allMembers settled then
        .ok () { job with
          noticePending := job.noticePending || !job.state.isStopped, state := .stopped placement }
      else .ok () { job with state := placement.into } := by
  have retained : job.publishedPlacement = pure placement := by
    unfold publishedPlacement
    rw [placed]
  show (if job.state = .starting then _ else _ : JobM Unit) () job = _
  rw [if_neg started]
  show (if job.allMembers JobMemberState.isCompleted then _ else
    if job.allMembers settled then _ else _ : JobM Unit) () job = _
  split
  · rfl
  split
  · rw [retained]
    rfl
  · rw [retained]
    rfl

/-- Outside startup, a job with a placement takes the state its members stand for, and a
notice is added when that is news. -/
theorem reconcile_run (started : job.state ≠ .starting) (placed : job.placement = some placement) :
    ∃ notice, reconcile () job = .ok () { job with state := job.folded placement, noticePending := notice } ∧
      (notice = true → job.noticePending = true ∨ (job.folded placement).isStopped = true ∨
        job.folded placement = .completed) ∧
      (job.noticePending = true → notice = true) ∧
      (job.state.isStopped = false → (job.folded placement).isStopped = true → notice = true) := by
  rw [reconcile_eq started placed]
  unfold folded
  split
  · refine ⟨_, rfl, fun _ => .inr (.inr rfl), ?_, ?_⟩
    · intro pending
      simp [pending]
    · intro _ stopped
      contradiction
  split
  · refine ⟨_, rfl, fun _ => .inr (.inl rfl), ?_, ?_⟩
    · intro pending
      simp [pending]
    · intro running _
      simp [running]
  · refine ⟨_, rfl, fun notice => .inl notice, fun pending => pending, ?_⟩
    intro _ stopped
    cases placement <;> contradiction

theorem reconcile_starting (starting : job.state = .starting) : reconcile () job = .ok () job := by
  show (if job.state = .starting then _ else _ : JobM Unit) () job = _
  rw [if_pos starting]
  rfl

theorem reconcile_members (job : Job) : (left (reconcile () job)).members = job.members := by
  show (left ((if job.state = .starting then _ else
    if job.allMembers JobMemberState.isCompleted then _ else
    if job.allMembers settled then job.publishedPlacement >>= _ else
    job.publishedPlacement >>= _ : JobM Unit) () job)).members = _
  unfold publishedPlacement
  split
  · rfl
  split
  · rfl
  split
  · cases job.placement <;> rfl
  · cases job.placement <;> rfl

/-- Reconciling a published job leaves a consistent one, unless a notice was pending that
the new state cannot have. -/
theorem reconcile_sound {before : Job} (started : job.state ≠ .starting) (placed : job.placement = some placement)
    (populated : job.members ≠ ∅)
    (quiet : job.noticePending = true → job.folded placement = .completed ∨ (job.folded placement).isStopped = true) :
    Sound before (reconcile () job) := by
  obtain ⟨notice, run, news, _⟩ := reconcile_run started placed
  rw [run]
  constructor
  · intro _
    exact ⟨placement, placed, rfl, populated⟩
  · intro pending
    rcases news pending with earlier | stopped | completed
    · exact (quiet earlier).symm
    · exact .inl stopped
    · exact .inr completed
  · intro notified
    exfalso
    unfold folded JobPlacement.into at notified
    cases placement <;> split at notified <;> try split at notified
    all_goals contradiction

/-! ### Members -/

theorem everyMember_insert {holds : JobMemberState → Bool} (every : job.EveryMember holds) (new : holds member = true) :
    EveryMember (job.withMember process member) holds := by
  intro other state found
  change (job.members.insert process member)[other]? = some state at found
  rw [Std.ExtTreeMap.getElem?_insert] at found
  split at found
  · cases found
    exact new
  · exact every other state found

/-- When every member is settled, the job is stopped or completed. -/
theorem folded_settled (every : job.EveryMember settled) :
    job.folded placement = .completed ∨ (job.folded placement).isStopped = true := by
  unfold folded
  split
  · exact .inl rfl
  · rw [if_pos (allMembers_iff.mpr every)]
    exact .inr rfl

section

variable (consistent : job.Consistent)
include consistent

/-- A stopped job has only settled members, and resumes where it was placed. -/
theorem Consistent.stopped {resume : JobPlacement} (state : job.state = .stopped resume) :
    job.placement = some resume ∧ job.EveryMember settled ∧ ¬job.EveryMember JobMemberState.isCompleted := by
  have published : job.isPublished = true := by
    unfold isPublished
    rw [state]
  obtain ⟨placement, placed, fold, _⟩ := consistent.published published
  rw [state] at fold
  unfold folded at fold
  split at fold
  · contradiction
  next notCompleted =>
  split at fold
  · next every =>
    cases fold
    exact ⟨placed, allMembers_iff.mp every, fun completed => notCompleted (allMembers_iff.mpr completed)⟩
  · cases placement <;> contradiction

/-- No notice is pending while a job starts or runs. -/
theorem Consistent.quiet (stopped : job.state.isStopped = false) (completed : job.state ≠ .completed) : job.noticePending = false := by
  cases pending : job.noticePending with
  | false => rfl
  | true =>
    rcases consistent.notice pending with isStopped | isCompleted
    · rw [stopped] at isStopped
      contradiction
    · exact absurd isCompleted completed

theorem Consistent.starting_quiet (starting : job.state = .starting) :
    job.noticePending = false :=
  consistent.quiet (by rw [starting]; rfl) (by simp [starting])

/-- Outside startup an observable job has a placement. -/
theorem Consistent.placed (observable : job.isObservable = true) (started : job.state ≠ .starting) : ∃ placement, job.placement = some placement := by
  have published : job.isPublished = true := by
    unfold isObservable at observable
    unfold isPublished
    cases state : job.state <;> simp_all
  obtain ⟨placement, placed, _⟩ := consistent.published published
  exact ⟨placement, placed⟩

theorem Consistent.running (state : job.state = .foreground ∨ job.state = .background) :
    job.allMembers settled = false ∧ job.members ≠ ∅ := by
  have published : job.isPublished = true := by
    unfold isPublished
    rcases state with state | state <;> rw [state]
  obtain ⟨placement, _, fold, populated⟩ := consistent.published published
  refine ⟨?_, populated⟩
  cases every : job.allMembers settled with
  | false => rfl
  | true =>
    have stopped : job.folded placement = .completed ∨ (job.folded placement).isStopped = true :=
      folded_settled (allMembers_iff.mp every)
    rw [← fold] at stopped
    rcases state with state | state <;> simp [state, JobState.isStopped] at stopped

theorem Consistent.completed (state : job.state = .completed) :
    job.EveryMember JobMemberState.isCompleted := by
  have published : job.isPublished = true := by
    unfold isPublished
    rw [state]
  obtain ⟨placement, _, fold, _⟩ := consistent.published published
  rw [state] at fold
  unfold folded at fold
  split at fold
  · next every => exact allMembers_iff.mp every
  split at fold
  · contradiction
  · cases placement <;> contradiction

end

theorem settled_of_completed (completed : job.EveryMember JobMemberState.isCompleted) : job.EveryMember settled := by
  intro process member found
  unfold settled
  rw [completed process member found, Bool.or_true]

/-- With a member that is not settled, a job runs where it is placed. -/
theorem folded_running (live : job.allMembers settled = false) :
    job.folded placement = placement.into := by
  unfold folded
  rw [if_neg, if_neg]
  · simp [live]
  · intro completed
    have every := allMembers_iff.mpr (settled_of_completed (allMembers_iff.mp completed))
    rw [live] at every
    contradiction

/-- A job placed with members that still run. -/
theorem consistent_running (placed : job.placement = some placement) (state : job.state = placement.into)
    (live : job.allMembers settled = false) (populated : job.members ≠ ∅) (quiet : job.noticePending = false) : job.Consistent where
  published _ := ⟨placement, placed, by rw [state, folded_running live], populated⟩
  notice pending := by simp [quiet] at pending
  acknowledged notified := by
    rw [state] at notified
    cases placement <;> contradiction

/-- A job that publishes nothing. -/
theorem consistent_unpublished (unpublished : job.isPublished = false) (unacknowledged : job.state ≠ .notified)
    (quiet : job.noticePending = false) : job.Consistent where
  published published := by simp [unpublished] at published
  notice pending := by simp [quiet] at pending
  acknowledged notified := absurd notified unacknowledged

/-! ### Every operation is sound -/

section

variable (consistent : job.Consistent)
include consistent

/-- Observing that a member is settled. -/
theorem observe_settled_sound (operation : String) (process : ProcessId) (new : settled member = true) :
    Sound job ((observe operation process member >>= fun _ => reconcile) () job) := by
  rcases observe_cases operation process member job with ⟨error, run⟩ | ⟨current, observable, found, live, run⟩
  · rw [error_bind run]
    rfl
  rw [ok_bind run]
  by_cases starting : (job.withMember process member).state = .starting
  · rw [reconcile_starting starting]
    exact consistent_unpublished (by simp [isPublished, starting]) (by simp [starting])
      (consistent.starting_quiet starting)
  obtain ⟨placement, placed⟩ : ∃ placement, (job.withMember process member).placement = some placement :=
    consistent.placed observable starting
  apply reconcile_sound starting placed
  · exact Std.ExtTreeMap.insert_ne_empty
  intro pending
  -- A pending notice means the job was stopped, so that its members were settled already.
  apply folded_settled
  cases state : job.state with
  | stopped => exact everyMember_insert (consistent.stopped state).2.1 new
  | foreground | background =>
    have quiet := consistent.quiet (by simp [state, JobState.isStopped]) (by simp [state])
    change job.noticePending = true at pending
    rw [quiet] at pending
    contradiction
  | starting => exact absurd state starting
  | _ => simp [isObservable, state] at observable

theorem observeContinued_sound (process : ProcessId) :
    Sound job (observeContinued process () job) := by
  unfold observeContinued
  rcases observe_cases "observe a continued process" process .running job with
    ⟨error, run⟩ | ⟨current, observable, found, live, run⟩
  · rw [error_bind run]
    rfl
  rw [ok_bind run]
  show Sound job (reconcile () (job.withMember process .running).continued)
  by_cases starting : (job.withMember process .running).continued.state = .starting
  · rw [reconcile_starting starting]
    exact consistent_unpublished (by simp [isPublished, starting]) (by simp [starting]) rfl
  obtain ⟨placement, placed⟩ : ∃ placement,
      (job.withMember process .running).continued.placement = some placement := by
    unfold continued
    split
    · next resume _ => exact ⟨resume, rfl⟩
    · exact consistent.placed observable starting
  apply reconcile_sound starting placed
  · exact Std.ExtTreeMap.insert_ne_empty
  · intro pending
    contradiction

theorem beginStarting_sound : Sound job (beginStarting () job) := by
  apply requireState_sound
  intro accepted
  have planned : job.state = .planned := by simpa using accepted
  have quiet := consistent.quiet (by rw [planned]; rfl) (by simp [planned])
  exact consistent_unpublished rfl (by simp) quiet

theorem addProcess_sound (process : ProcessId) :
    Sound job (addProcess process () job) := by
  apply requireState_sound
  intro accepted
  have starting : job.state = .starting := by simpa using accepted
  show Sound job ((if job.members.contains process then _ else _ : JobM Unit) () job)
  split
  · rfl
  · exact consistent_unpublished (by simp [isPublished, withMember, starting]) (by simp [withMember, starting])
      (consistent.starting_quiet starting)

theorem finishStarting_sound (placement : JobPlacement) :
    Sound job (finishStarting placement () job) := by
  apply requireState_sound
  intro accepted
  have starting : job.state = .starting := by simpa using accepted
  show Sound job ((if job.members.isEmpty then _ else _ : JobM Unit) () job)
  split
  · rfl
  · next populated =>
    have started : (job.placedIn placement).state ≠ .starting := by
      cases placement <;> simp [placedIn, JobPlacement.into]
    have placed : (job.placedIn placement).placement = some placement := rfl
    apply reconcile_sound started placed
    · intro empty
      apply populated
      exact Std.ExtTreeMap.isEmpty_iff.mpr empty
    · intro pending
      change job.noticePending = true at pending
      rw [consistent.starting_quiet starting] at pending
      contradiction

theorem moveTo_sound (placement : JobPlacement) :
    Sound job (moveTo placement () job) := by
  apply requireState_sound
  intro accepted
  have state : job.state = .foreground ∨ job.state = .background := by simpa using accepted
  obtain ⟨live, populated⟩ := consistent.running state
  have quiet : job.noticePending = false := by
    apply consistent.quiet
    · rcases state with state | state <;> rw [state] <;> rfl
    · rcases state with state | state <;> simp [state]
  have placed : (job.placedIn placement).placement = some placement := rfl
  exact consistent_running placed rfl live populated quiet

end

/-- Continuing a stopped job leaves a member running. -/
theorem resumed_live (live : ¬job.EveryMember JobMemberState.isCompleted) :
    job.resumed.allMembers settled = false := by
  cases every : job.resumed.allMembers settled with
  | false => rfl
  | true =>
    exfalso
    apply live
    intro process member found
    have after : job.resumed.members[process]? = some (if member.isStopped then .running else member) := by
      unfold resumed
      rw [Std.ExtTreeMap.getElem?_map, found]
      rfl
    have settledAfter := allMembers_iff.mp every process _ after
    cases member with
    | running => contradiction
    | stopped signal => contradiction
    | completed => rfl

section

variable (consistent : job.Consistent)
include consistent

theorem continueIn_sound (placement : JobPlacement) :
    Sound job (continueIn placement () job) := by
  apply requireStopped_sound
  intro resume stopped
  obtain ⟨_, settledMembers, live⟩ := consistent.stopped stopped
  have published : job.isPublished = true := by simp [isPublished, stopped]
  obtain ⟨_, _, _, populated⟩ := consistent.published published
  have placed : (job.resumed.placedIn placement).placement = some placement := rfl
  apply consistent_running placed rfl (resumed_live live) _ rfl
  intro empty
  exact populated (Std.ExtTreeMap.map_eq_empty_iff.mp empty)

theorem acknowledgeStoppedNotice_sound :
    Sound job (acknowledgeStoppedNotice () job) := by
  apply requireStopped_sound
  intro resume stopped
  show Sound job ((if job.noticePending then _ else _ : JobM Unit) () job)
  split
  · constructor
    · exact consistent.published
    · intro pending
      contradiction
    · exact consistent.acknowledged
  · rfl

theorem markNotified_sound : Sound job (markNotified () job) := by
  apply requireState_sound
  intro accepted
  have completed : job.state = .completed := by simpa using accepted
  constructor
  · intro published
    contradiction
  · intro pending
    contradiction
  · intro _
    exact consistent.completed completed

theorem markReaped_sound : Sound job (markReaped () job) := by
  apply requireState_sound
  intro accepted
  have notified : job.state = .notified := by simpa using accepted
  have quiet := consistent.quiet (by rw [notified]; rfl) (by simp [notified])
  exact consistent_unpublished rfl (by simp) quiet

theorem abortStartingAfterCleanup_sound :
    Sound job (abortStartingAfterCleanup () job) := by
  apply requireState_sound
  intro accepted
  have starting : job.state = .starting := by simpa using accepted
  exact consistent_unpublished rfl (by simp) (consistent.starting_quiet starting)

/-- One request keeps the invariant. -/
theorem perform_sound (request : Request) :
    Sound job (perform request () job) := by
  cases request with
  | beginStarting => exact beginStarting_sound consistent
  | addProcess process => exact addProcess_sound consistent process
  | finishStarting placement => exact finishStarting_sound consistent placement
  | observeStopped process | observeCompleted process => exact observe_settled_sound consistent _ process rfl
  | observeContinued process => exact observeContinued_sound consistent process
  | moveTo placement => exact moveTo_sound consistent placement
  | continueIn placement => exact continueIn_sound consistent placement
  | acknowledgeStoppedNotice => exact acknowledgeStoppedNotice_sound consistent
  | markNotified => exact markNotified_sound consistent
  | markReaped => exact markReaped_sound consistent
  | abortStartingAfterCleanup => exact abortStartingAfterCleanup_sound consistent

theorem left_consistent (request : Request) :
    (left (perform request () job)).Consistent := by
  have sound := perform_sound consistent request
  cases outcome : perform request () job with
  | ok =>
    rw [outcome] at sound
    exact sound
  | error failure after =>
    rw [outcome] at sound
    cases failure with
    | rejected =>
      rw [sound]
      exact consistent
    | panicked => exact sound.elim

end

theorem new_consistent (id : JobId) : (new id).Consistent := consistent_unpublished rfl (by simp [new]) rfl

/-- Every run keeps the invariant. -/
theorem after_consistent (consistent : job.Consistent) (requests : List Request) :
    (job.after requests).Consistent := by
  induction requests generalizing job with
  | nil => exact consistent
  | cons request _ ih => exact ih (left_consistent consistent request)

/-- An observation replaces at most one member, and never one that completed. -/
theorem observe_keeps {other : ProcessId} {status : Status} (frame : ∀ job, (left (rest () () job)).members = job.members)
    (completed : job.members[other]? = some (.completed status)) :
    (left ((observe operation process member >>= rest) () job)).members[other]? = some (.completed status) := by
  rcases observe_cases operation process member job with ⟨error, run⟩ | ⟨current, _, found, live, run⟩
  · rw [error_bind run]
    exact completed
  · rw [ok_bind run, frame]
    have different : process ≠ other := by
      intro same
      rw [same, completed] at found
      cases found
      contradiction
    unfold withMember
    rw [Std.ExtTreeMap.getElem?_insert, if_neg]
    · exact completed
    · intro same
      exact different (Std.LawfulEqOrd.eq_of_compare same)

theorem perform_keeps {request : Request} {status : Status} (observation : request.isObservation = true)
    (completed : job.members[process]? = some (.completed status)) :
    (left (perform request () job)).members[process]? = some (.completed status) := by
  cases request <;> simp only [Request.isObservation, Bool.false_eq_true] at observation
  case observeStopped other signal => exact observe_keeps reconcile_members completed
  case observeContinued other =>
    apply observe_keeps _ completed
    intro job
    exact reconcile_members job.continued
  case observeCompleted other final => exact observe_keeps reconcile_members completed

/-- The fold of a published job, member by member. -/
theorem Consistent.fold (consistent : job.Consistent) (published : job.isPublished = true) :
    ∃ placement, job.placement = some placement ∧
      (job.state = .completed ↔ job.EveryMember JobMemberState.isCompleted) ∧
      (∀ resume, job.state = .stopped resume ↔
        resume = placement ∧ job.EveryMember settled ∧ ¬job.EveryMember JobMemberState.isCompleted) ∧
      (¬job.EveryMember settled → job.state = placement.into) := by
  obtain ⟨placement, placed, fold, _⟩ := consistent.published published
  refine ⟨placement, placed, ⟨consistent.completed, ?_⟩, ?_, ?_⟩
  · intro completed
    rw [fold]
    unfold folded
    rw [if_pos (allMembers_iff.mpr completed)]
  · intro resume
    constructor
    · intro state
      obtain ⟨resumed, members, live⟩ := consistent.stopped state
      rw [placed] at resumed
      exact ⟨(Option.some.inj resumed).symm, members, live⟩
    · rintro ⟨rfl, members, live⟩
      rw [fold]
      unfold folded
      rw [if_neg (fun completed => live (allMembers_iff.mp completed)), if_pos (allMembers_iff.mpr members)]
  · intro live
    rw [fold]
    apply folded_running
    exact Bool.eq_false_iff.mpr (fun members => live (allMembers_iff.mp members))

end Operations

/-- After any sequence of requests and observations, rejected ones included: a published
state is the fold of the members and the placement, a pending notice belongs to a stopped
or completed job, and the next request cannot panic, leaves the job alone when it is
rejected, and as an observation changes no completed member. -/
theorem job_invariant (id : JobId) (requests : List Request) :
    let job := (new id).after requests
    (job.isPublished = true → ∃ placement, job.placement = some placement ∧
      (job.state = .completed ↔ job.EveryMember JobMemberState.isCompleted) ∧
      (∀ resume, job.state = .stopped resume ↔
        resume = placement ∧ job.EveryMember settled ∧ ¬job.EveryMember JobMemberState.isCompleted) ∧
      (¬job.EveryMember settled → job.state = placement.into)) ∧
    (job.state = .notified → job.EveryMember JobMemberState.isCompleted) ∧
    (job.noticePending = true → job.state.isStopped = true ∨ job.state = .completed) ∧
    ∀ request,
      (∀ message after, perform request () job ≠ .error (.panicked message) after) ∧
      (∀ error after, perform request () job = .error (.rejected error) after → after = job) ∧
      (request.isObservation = true → ∀ (process : ProcessId) (status : Status),
        job.members[process]? = some (.completed status) →
        (left (perform request () job)).members[process]? = some (.completed status)) := by
  intro job
  have consistent : job.Consistent := after_consistent (new_consistent id) requests
  refine ⟨consistent.fold, consistent.acknowledged, consistent.notice, ?_⟩
  intro request
  have sound := perform_sound consistent request
  refine ⟨?_, ?_, ?_⟩
  · intro message after panicked
    rw [panicked] at sound
    exact sound
  · intro error after rejected
    rw [rejected] at sound
    exact sound
  · intro observation process status completed
    exact perform_keeps observation completed

end Job

end Opaal.Runtime
