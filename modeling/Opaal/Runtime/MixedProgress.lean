import Mathlib.Algebra.BigOperators.Group.Finset.Piecewise
import Mathlib.Algebra.Order.BigOperators.Group.Finset
import Opaal.Runtime.MixedTurns

/-!
# Progress

A pipeline ends early only because a worker failed or asked for an exit.  Until all of
its workers are done one of them can take a step, and the steps it can take at all are
bounded, so that no worker is left waiting for a turn.
-/

namespace Opaal.Runtime.Mixed

open Finset
open Function
open MixedState (move)

/-! ## Causes -/

/-- An outcome that ends the pipeline early. -/
def isFatal : Outcome → Bool
  | .error _ | .ok (.exit _ _ _) => true
  | .ok (.completed _ _ _) | .ok (.stoppedByExit _) | .ok (.skipped _) => false

/-- An outcome of a worker that gave up because the pipeline ends early. -/
def isIdle : Outcome → Bool
  | .ok (.stoppedByExit _) | .ok (.skipped _) => true
  | .error _ | .ok (.exit _ _ _) | .ok (.completed _ _ _) => false

namespace Phase

def isCause : Phase → Bool
  | .exiting _ _ => true
  | .returned outcome | .done outcome => isFatal outcome
  | _ => false

def hasGivenUp : Phase → Bool
  | .cancelledAfterTurn => true
  | .returned outcome | .done outcome => isIdle outcome
  | _ => false

end Phase

def MixedState.isEnding (state : MixedState) : Bool :=
  state.stopped || state.cancelled || state.requestedExit.isSome

open MixedState (isEnding)

/-- A pipeline that ends early has a worker that caused it, and only such a pipeline has
workers that gave up. -/
structure Caused (state : MixedState) : Prop where
  cause : state.isEnding = true → ∃ worker, (state.phase worker).isCause = true
  givenUp : ∀ worker, (state.phase worker).hasGivenUp = true → state.isEnding = true

section Causes

variable {state after : MixedState} {worker : Nat} {from_ place : Phase} {others : Nat → Phase}

theorem wake_cause (place : Phase) : place.wake.isCause = place.isCause := by
  cases place <;> rfl

theorem wake_givenUp (place : Phase) : place.wake.hasGivenUp = place.hasGivenUp := by
  cases place <;> rfl

/-- A step that moves one worker and may wake the others. -/
theorem Caused.update (caused : Caused state)
    (rest : ∀ other, others other = state.phase other ∨ others other = (state.phase other).wake)
    (places : after.phase = Function.update others worker place)
    (causes : (state.phase worker).isCause = true → place.isCause = true)
    (ending : after.isEnding = true → state.isEnding = true ∨ place.isCause = true)
    (still : state.isEnding = true → after.isEnding = true)
    (givenUp : place.hasGivenUp = true → after.isEnding = true) : Caused after where
  cause ends := by
    rcases ending ends with before | here
    · obtain ⟨other, cause⟩ := caused.cause before
      by_cases equal : other = worker
      · refine ⟨worker, ?_⟩
        rw [places, update_self]
        rw [equal] at cause
        exact causes cause
      · refine ⟨other, ?_⟩
        rw [places, update_of_ne equal]
        rcases rest other with same | woken
        · rw [same]
          exact cause
        · rw [woken, wake_cause]
          exact cause
    · refine ⟨worker, ?_⟩
      rw [places, update_self]
      exact here
  givenUp other gaveUp := by
    rw [places] at gaveUp
    by_cases equal : other = worker
    · rw [equal, update_self] at gaveUp
      exact givenUp gaveUp
    · rw [update_of_ne equal] at gaveUp
      apply still
      apply caused.givenUp other
      rcases rest other with same | woken
      · rw [← same]
        exact gaveUp
      · rw [← wake_givenUp, ← woken]
        exact gaveUp

/-- A step by a worker that is no cause, neither before it nor after it. -/
theorem Caused.moved (caused : Caused state) (places : after.phase = Function.update state.phase worker place)
    (at_ : state.phase worker = from_) (innocent : from_.isCause = false) (same : after.isEnding = state.isEnding)
    (givenUp : place.hasGivenUp = true → state.isEnding = true) : Caused after := by
  refine caused.update (fun _ => .inl rfl) places ?_ ?_ ?_ ?_
  · intro cause
    rw [at_, innocent] at cause
    contradiction
  · intro ends
    rw [same] at ends
    exact .inl ends
  · intro ends
    rw [same]
    exact ends
  · intro gaveUp
    rw [same]
    exact givenUp gaveUp

/-- A step by such a worker after which no further turn comes. -/
theorem Caused.halts (caused : Caused state)
    (places : after.phase = Function.update (fun other => (state.phase other).wake) worker place)
    (at_ : state.phase worker = from_) (innocent : from_.isCause = false) (stopped : after.stopped = true)
    (why : state.isEnding = true ∨ place.isCause = true) : Caused after := by
  have ends : after.isEnding = true := by simp [isEnding, stopped]
  refine caused.update (fun _ => .inr rfl) places ?_ (fun _ => why) (fun _ => ends) (fun _ => ends)
  intro cause
  rw [at_, innocent] at cause
  contradiction

theorem innocent_of_waiting {place : Phase} (waiting : place.isWaiting = true) : place.isCause = false := by
  cases place <;> first | rfl | contradiction

theorem step_caused {plan : List PlannedResolution} {segments : List InternalSegment} (caused : Caused state)
    (step : Step plan segments state after) : Caused after := by
  cases step with
  | skip _ waiting _ stopped =>
    refine caused.moved rfl rfl (innocent_of_waiting waiting) rfl ?_
    intro _
    simp [isEnding, stopped]
  | sleep _ waiting | enter _ waiting =>
    exact caused.moved rfl rfl (innocent_of_waiting waiting) rfl (by simp [Phase.hasGivenUp])
  | observeCancellation _ place _ cancelled =>
    exact caused.halts rfl place rfl rfl (.inl (by simp [isEnding, cancelled]))
  | execute _ place | misplaced _ place | completeStage _ place | drain _ place | failDrain _ place =>
    exact caused.moved rfl place rfl rfl (by simp [Phase.hasGivenUp])
  | requestExit _ place | failStage _ place => exact caused.halts rfl place rfl rfl (.inr rfl)
  | passTurn _ place =>
    refine caused.update (fun _ => .inr rfl) rfl ?_ (fun ends => .inl ends) (fun ends => ends) ?_
    · simp [place, Phase.isCause]
    · simp [Phase.hasGivenUp]
  | seeCancellation _ place cancelled =>
    refine caused.moved rfl place rfl rfl ?_
    intro _
    simp [isEnding, cancelled]
  | giveUp _ place => exact caused.moved rfl place rfl rfl fun _ => caused.givenUp _ (by rw [place]; rfl)
  | finishDrain _ place => exact caused.moved rfl place rfl rfl (by simp [Phase.hasGivenUp, isIdle])
  | @reportDrain worker segment interrupt _ place =>
    -- A worker that gives up here has seen that an exit was asked for.
    refine caused.halts rfl place rfl rfl ?_
    by_cases asked : state.requestedExit.any (segment.ordinal < ·) ∧ interrupt = .streamCancelled
    · left
      cases requested : state.requestedExit with
      | none =>
        rw [requested] at asked
        exact absurd asked.1 (by simp)
      | some => simp [isEnding, requested]
    · right
      simp [if_neg asked, Phase.isCause, isFatal]
  | cancelForExit =>
    refine caused.update (fun _ => .inl rfl) rfl ?_ ?_ ?_ ?_
    · simp [Phase.isCause, isFatal]
    · simp [Phase.isCause, isFatal]
    · simp [isEnding, move]
    · simp [isEnding, move]
  | @finish worker _ outcome _ place =>
    have still (raised : Bool) (ends : state.isEnding = true) :
        isEnding (move { state with cancelled := state.cancelled || raised } worker (.done outcome)) = true := by
      simp only [isEnding, move, Bool.or_eq_true] at ends ⊢
      rcases ends with (stopped | cancelled) | requested
      · exact .inl (.inl stopped)
      · exact .inl (.inr (.inl cancelled))
      · exact .inr requested
    refine caused.update (fun _ => .inl rfl) rfl ?_ ?_ (still _) ?_
    · rw [place]
      exact fun cause => cause
    · cases outcome with
      | error => simp [Phase.isCause, isFatal]
      | ok =>
        intro ends
        left
        simpa [isEnding, move] using ends
    · intro gaveUp
      apply still
      apply caused.givenUp worker
      rw [place]
      exact gaveUp

end Causes

/-! ## Every schedule -/

/-- What holds in every state the workers of a plan reach. -/
structure Coordinated (plan : List PlannedResolution) (segments : List InternalSegment) (state : MixedState) :
    Prop where
  placed : AllPlaced plan segments state
  orderly : Orderly segments state
  history : History segments state
  caused : Caused state

section Schedules

variable {plan : List PlannedResolution} {topology : MixedTopology} {state after : MixedState}

variable {segments : List InternalSegment} {worker : Nat} {segment : InternalSegment}

theorem initial_coordinated : Coordinated plan segments .initial where
  placed := fun _ _ _ => trivial
  orderly := by
    refine ⟨?_, by simp [MixedState.initial], Nat.zero_le _, fun _ _ => rfl⟩
    intro worker
    exact ⟨fun _ => .inr (Nat.zero_le _), by simp [MixedState.initial], by simp [MixedState.initial, Phase.holdsLock],
      by simp [MixedState.initial, Phase.isPast]⟩
  history := by
    refine ⟨List.nil_prefix, fun _ _ => rfl, ?_⟩
    intro worker segment _ holds
    contradiction
  caused := by
    refine ⟨?_, ?_⟩
    · intro ends
      contradiction
    · intro worker gaveUp
      contradiction

theorem spurious_coordinated (coordinated : Coordinated plan segments state) (spurious : Spurious state after) : Coordinated plan segments after := by
  obtain ⟨placed, orderly, history, caused⟩ := coordinated
  cases spurious with
  | @wake worker asleep =>
    have inside : worker < segments.length := by
      by_contra beyond
      rw [orderly.outside worker (by omega)] at asleep
      contradiction
    have later := ((orderly.fits worker).asleep asleep).2
    refine ⟨?_, ?_, ?_, ?_⟩
    · intro other segment known
      by_cases equal : other = worker
      · simp only [move, equal, update_self]
        exact trivial
      · simp only [move, update_of_ne equal]
        exact placed other segment known
    · refine orderly.moved inside rfl rfl rfl rfl ?_ ?_
      · exact ⟨fun _ => .inr (by omega), by simp, by simp [Phase.holdsLock], by simp [Phase.isPast]⟩
      · intro holder
        have holds := orderly.held worker holder
        rw [asleep] at holds
        contradiction
    · exact history.quiet rfl rfl rfl (fun running => running) (holds_update rfl)
    · exact caused.moved rfl asleep rfl rfl (by simp [Phase.hasGivenUp])

theorem coordinated_inductive (found : TopologyOf plan topology) :
    (workers plan topology.internalSegments).Inductive (Coordinated plan topology.internalSegments) where
  initial state initial := by
    rw [show state = .initial from initial]
    exact initial_coordinated
  step before after coordinated step := by
    obtain ⟨placed, orderly, history, caused⟩ := coordinated
    exact ⟨step_placed found placed step, step_orderly found placed orderly step,
      step_history found placed orderly history step, step_caused caused step⟩
  disturb before after coordinated spurious := spurious_coordinated coordinated spurious

/-! ## A step is always possible -/

theorem place_cases (place : Phase) :
    place.isWaiting = true ∨ place = .asleep ∨ place.holdsLock = true ∨ place.isPast = true := by
  cases place <;> simp [Phase.isWaiting, Phase.holdsLock, Phase.isPast]

/-- While turns are given and nobody is in one, the worker whose turn it is wants the lock. -/
theorem Orderly.next_waiting (orderly : Orderly segments state) (free : state.lock = none) (running : state.stopped = false) :
    (state.phase state.nextSegment).isWaiting = true := by
  have fits := orderly.fits state.nextSegment
  rcases place_cases (state.phase state.nextSegment) with waiting | asleep | holds | past
  · exact waiting
  · have later := (fits.asleep asleep).2
    omega
  · have holder := (fits.holding holds).2.2
    rw [free] at holder
    contradiction
  · rcases fits.past past with stopped | earlier
    · rw [running] at stopped
      contradiction
    · omega

theorem waiting_steps (known : segments[worker]? = some segment) (waiting : (state.phase worker).isWaiting = true)
    (free : state.lock = none) : ∃ after, Step plan segments state after := by
  cases stopped : state.stopped with
  | true => exact ⟨_, .skip known waiting free stopped⟩
  | false =>
    by_cases turn : state.nextSegment = segment.ordinal
    · exact ⟨_, .enter known waiting free stopped turn⟩
    · exact ⟨_, .sleep known waiting free stopped turn⟩

/-- The worker in its turn has a next step. -/
theorem holder_steps (found : TopologyOf plan topology) (placed : AllPlaced plan topology.internalSegments state)
    (known : topology.internalSegments[worker]? = some segment) (holds : (state.phase worker).holdsLock = true) : ∃ after, Step plan topology.internalSegments state after := by
  cases place : state.phase worker with
  | atStage index statuses checks =>
    by_cases inside : index < segment.stop
    · cases active : state.cancelled with
      | true => exact ⟨_, .observeCancellation known place inside active⟩
      | false =>
        obtain ⟨name, internal⟩ := placed.internal found known place inside
        exact ⟨_, .execute known place inside active internal⟩
    · exact ⟨_, .passTurn known place (by omega)⟩
  | running => exact ⟨_, .requestExit known place 0⟩
  | arriving | asleep | woken | advanced | cancelledAfterTurn | draining | drainFailed | exiting | returned | done
    | panicked =>
    rw [place] at holds
    contradiction

/-- A worker that is past its turn has a next step while nobody is in one. -/
theorem past_steps (known : segments[worker]? = some segment) (placed : Placed plan segment (state.phase worker))
    (past : (state.phase worker).isPast = true) (unfinished : (state.phase worker).isDone = false) (free : state.lock = none) : ∃ after, Step plan segments state after := by
  cases place : state.phase worker with
  | advanced =>
    cases active : state.cancelled with
    | true => exact ⟨_, .seeCancellation known place active⟩
    | false => exact ⟨_, .drain known place active⟩
  | cancelledAfterTurn => exact ⟨_, .giveUp known place free⟩
  | draining => exact ⟨_, .finishDrain known place⟩
  | drainFailed => exact ⟨_, .reportDrain known place free⟩
  | exiting => exact ⟨_, .cancelForExit known place⟩
  | returned => exact ⟨_, .finish known place⟩
  | panicked =>
    rw [place] at placed
    exact placed.elim
  | done outcome =>
    rw [place] at unfinished
    contradiction
  | arriving | asleep | woken | atStage | running =>
    rw [place] at past
    contradiction

/-- As long as a worker is not done, some worker can take a step. -/
theorem Coordinated.steps (found : TopologyOf plan topology) (coordinated : Coordinated plan topology.internalSegments state)
    (inside : worker < topology.internalSegments.length) (unfinished : (state.phase worker).isDone = false) :
    ∃ after, Step plan topology.internalSegments state after := by
  obtain ⟨placed, orderly, _, _⟩ := coordinated
  have listed : ∀ other, other < topology.internalSegments.length →
      ∃ segment, topology.internalSegments[other]? = some segment := by
    intro other bound
    exact ⟨_, List.getElem?_eq_getElem bound⟩
  cases lock : state.lock with
  | some holder =>
    have holds := orderly.held holder lock
    have bound : holder < topology.internalSegments.length := by
      by_contra beyond
      rw [orderly.outside holder (by omega)] at holds
      contradiction
    obtain ⟨segment, known⟩ := listed holder bound
    exact holder_steps found placed known holds
  | none =>
    obtain ⟨segment, known⟩ := listed worker inside
    rcases place_cases (state.phase worker) with waiting | asleep | holds | past
    · exact waiting_steps known waiting lock
    · -- A sleeper's turn is still to come, and whoever has it now wants the lock.
      obtain ⟨running, later⟩ := (orderly.fits worker).asleep asleep
      obtain ⟨nextSegment, nextKnown⟩ := listed state.nextSegment (by omega)
      exact waiting_steps nextKnown (orderly.next_waiting lock running) lock
    · exact holder_steps found placed known holds
    · exact past_steps known (placed worker segment known) past unfinished lock

end Schedules

/-! ## Paths are bounded -/

/-- How many steps a worker at this place still takes, when every notice it gives wakes
all others, of which there are fewer than `count`. -/
def weight (count : Nat) (segment : InternalSegment) : Phase → Nat
  | .done _ | .panicked => 0
  | .returned _ => 1
  | .exiting _ _ => 2
  | .drainFailed _ => count + 2
  | .draining _ _ | .cancelledAfterTurn => count + 3
  | .advanced _ _ => count + 4
  | .running index _ _ => 2 * count + 4 + 2 * (segment.stop - index)
  | .atStage index _ _ => 2 * count + 5 + 2 * (segment.stop - index)
  | .asleep => 2 * count + 6 + 2 * (segment.stop - segment.start)
  | .arriving | .woken => 2 * count + 7 + 2 * (segment.stop - segment.start)

/-- The weights of all workers. -/
def stepsLeft (segments : List InternalSegment) (state : MixedState) : Nat :=
  ∑ worker ∈ range segments.length,
    weight segments.length (segments.getD worker ⟨0, 0, 0⟩) (state.phase worker)

/-- A sum goes down when one term loses more than all others can gain. -/
theorem sum_lt_of_others_gain {count position : Nat} (gain : Nat) {before after : Nat → Nat} (inside : position < count)
    (others : ∀ other, other ≠ position → after other ≤ before other + gain)
    (drop : after position + count * gain < before position) :
    ∑ index ∈ range count, after index < ∑ index ∈ range count, before index := by
  have member : position ∈ range count := Finset.mem_range.mpr inside
  rw [← Finset.add_sum_erase _ after member, ← Finset.add_sum_erase _ before member]
  have rest : ∑ index ∈ (range count).erase position, after index ≤
      ∑ index ∈ (range count).erase position, (before index + gain) := by
    apply sum_le_sum
    intro other listed
    exact others other (Finset.ne_of_mem_erase listed)
  have constant : ∑ _index ∈ (range count).erase position, gain ≤ count * gain := by
    rw [Finset.sum_const_nat (fun _ _ => rfl), Finset.card_erase_of_mem member, Finset.card_range]
    exact Nat.mul_le_mul_right gain (Nat.sub_le count 1)
  rw [Finset.sum_add_distrib] at rest
  omega

section Bounds

variable {segments : List InternalSegment} {state after : MixedState} {worker : Nat} {segment : InternalSegment}
variable {from_ place : Phase}

/-- A step that wakes nobody. -/
theorem stepsLeft_moved (known : segments[worker]? = some segment)
    (places : after.phase = Function.update state.phase worker place) (at_ : state.phase worker = from_)
    (drop : weight segments.length segment place < weight segments.length segment from_) :
    stepsLeft segments after < stepsLeft segments state := by
  have named : segments.getD worker ⟨0, 0, 0⟩ = segment := by simp [List.getD, known]
  apply sum_lt_of_others_gain 0 (lt_of_known known)
  · intro other different
    rw [places, update_of_ne different]
    omega
  · rw [places, update_self, named, at_]
    omega

theorem weight_wake (count : Nat) (segment : InternalSegment) (place : Phase) :
    weight count segment place.wake ≤ weight count segment place + 1 := by
  cases place with
  | asleep =>
    simp only [Phase.wake, weight]
    omega
  | arriving | woken | atStage | running | advanced | cancelledAfterTurn | draining | drainFailed | exiting | returned
    | done | panicked => exact Nat.le_succ _

/-- A step that wakes all others. -/
theorem stepsLeft_told (known : segments[worker]? = some segment)
    (places : after.phase = Function.update (fun other => (state.phase other).wake) worker place)
    (at_ : state.phase worker = from_)
    (drop : weight segments.length segment place + segments.length < weight segments.length segment from_) :
    stepsLeft segments after < stepsLeft segments state := by
  have named : segments.getD worker ⟨0, 0, 0⟩ = segment := by simp [List.getD, known]
  apply sum_lt_of_others_gain 1 (lt_of_known known)
  · intro other different
    rw [places, update_of_ne different]
    exact weight_wake _ _ _
  · rw [places, update_self, named, at_]
    omega

theorem weight_waiting (count : Nat) (segment : InternalSegment) {place : Phase} (waiting : place.isWaiting = true) :
    weight count segment place = 2 * count + 7 + 2 * (segment.stop - segment.start) := by
  cases place <;> first | rfl | contradiction

variable {plan : List PlannedResolution}

theorem step_lowers (placed : AllPlaced plan segments state) (step : Step plan segments state after) : stepsLeft segments after < stepsLeft segments state := by
  cases step with
  | skip known waiting | sleep known waiting | enter known waiting =>
    refine stepsLeft_moved known rfl rfl ?_
    rw [weight_waiting _ _ waiting]
    simp only [weight]
    omega
  | observeCancellation known place | requestExit known place | failStage known place
    | reportDrain known place =>
    refine stepsLeft_told known rfl place ?_
    simp only [weight]
    omega
  | execute known place | misplaced known place | seeCancellation known place | drain known place
    | giveUp known place | finishDrain known place | failDrain known place | cancelForExit known place
    | finish known place =>
    refine stepsLeft_moved known rfl place ?_
    simp only [weight]
    omega
  | @completeStage _ index segment _ _ known place =>
    have inside : index < segment.stop := (placed.here known place).2.1
    refine stepsLeft_moved known rfl place ?_
    simp only [weight]
    omega
  | passTurn known place finished =>
    refine stepsLeft_told known rfl place ?_
    simp only [weight]
    omega

theorem spurious_raises (spurious : Spurious state after) :
    stepsLeft segments after ≤ stepsLeft segments state + 1 := by
  cases spurious with
  | @wake worker asleep =>
    let heavier : Nat → Nat := fun other => if other = worker then 1 else 0
    have each : stepsLeft segments (state.move worker .woken) ≤ ∑ other ∈ range segments.length,
        (weight segments.length (segments.getD other ⟨0, 0, 0⟩) (state.phase other) + heavier other) := by
      apply sum_le_sum
      intro other _
      by_cases equal : other = worker
      · have woken : (state.move worker .woken).phase other = (state.phase other).wake := by
          simp [move, equal, asleep, Phase.wake]
        rw [woken, show heavier other = 1 from if_pos equal]
        exact weight_wake _ _ _
      · simp only [move, update_of_ne equal]
        omega
    have once : ∑ other ∈ range segments.length, heavier other ≤ 1 := by
      rw [Finset.sum_ite_eq']
      split <;> omega
    rw [Finset.sum_add_distrib] at each
    unfold stepsLeft at each ⊢
    omega

/-- A path has no more steps than the workers have left at its start, but for the wakes
that came without a notice. -/
theorem paths_bounded {topology : MixedTopology} (found : TopologyOf plan topology) {last : MixedState} {steps wakes : Nat}
    (path : (workers plan topology.internalSegments).Path .initial steps wakes last) :
    steps ≤ stepsLeft topology.internalSegments .initial + wakes := by
  have bounded := (coordinated_inductive found).bounded
    (fun before after coordinated step => step_lowers coordinated.placed step)
    (fun before after _ spurious => spurious_raises spurious) path initial_coordinated
  omega

end Bounds

end Opaal.Runtime.Mixed
