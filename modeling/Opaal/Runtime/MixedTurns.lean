import Opaal.Runtime.MixedWorkers

/-!
# Turns

What holds of the workers of a mixed pipeline under every schedule.  A worker carries the
statuses of the stages of its own segment and no others; the counter, the stop flag and
the lock say where every worker can be; and the stages executed so far are the first of
the plan's internal stages.
-/

namespace Opaal.Runtime.Mixed

open List
open Function
open InternalSegment (stages)
open Phase

/-! ## What a worker carries -/

/-- Every check looks at an external stage. -/
def ChecksFit (plan : List PlannedResolution) (checks : List DeferredCheck) : Prop :=
  ∀ check ∈ checks, ∃ path, plan[check.upstreamStage]? = some (.external path)

/-- The statuses of the stages from the start of a segment up to `index`. -/
def StatusesTo (segment : InternalSegment) (index : Nat) (statuses : List (Nat × Status)) : Prop :=
  statuses.map Prod.fst = List.range' segment.start (index - segment.start)

def OutcomeFits (plan : List PlannedResolution) (segment : InternalSegment) : Outcome → Prop
  | .error failure => segment.start ≤ failure.stageIndex ∧ failure.stageIndex < segment.stop
  | .ok (.completed ordinal statuses checks) =>
    ordinal = segment.ordinal ∧ StatusesTo segment segment.stop statuses ∧ ChecksFit plan checks
  | .ok (.exit ordinal index _) => ordinal = segment.ordinal ∧ segment.start ≤ index ∧ index < segment.stop
  | .ok (.stoppedByExit ordinal) | .ok (.skipped ordinal) => ordinal = segment.ordinal

/-- What a worker at this place carries. -/
def Placed (plan : List PlannedResolution) (segment : InternalSegment) : Phase → Prop
  | .arriving | .asleep | .woken | .cancelledAfterTurn | .drainFailed _ => True
  | .atStage index statuses checks =>
    segment.start ≤ index ∧ index ≤ segment.stop ∧ StatusesTo segment index statuses ∧ ChecksFit plan checks
  | .running index statuses checks =>
    segment.start ≤ index ∧ index < segment.stop ∧ StatusesTo segment index statuses ∧ ChecksFit plan checks
  | .advanced statuses checks | .draining statuses checks =>
    StatusesTo segment segment.stop statuses ∧ ChecksFit plan checks
  | .exiting index _ => segment.start ≤ index ∧ index < segment.stop
  | .returned outcome | .done outcome => OutcomeFits plan segment outcome
  | .panicked => False

def AllPlaced (plan : List PlannedResolution) (segments : List InternalSegment) (state : MixedState) : Prop :=
  ∀ (worker : Nat) (segment : InternalSegment), segments[worker]? = some segment →
    Placed plan segment (state.phase worker)

section Carried

variable {plan : List PlannedResolution} {topology : MixedTopology} {state after : MixedState}

variable {segment : InternalSegment} {worker index : Nat} {statuses : List (Nat × Status)} {checks : List DeferredCheck}

theorem placed_wake {place : Phase} (placed : Placed plan segment place) :
    Placed plan segment place.wake := by
  cases place <;> exact placed

/-- A step that moves one worker and may wake the others. -/
theorem AllPlaced.update {segments : List InternalSegment} {place : Phase} {others : Nat → Phase}
    (placed : AllPlaced plan segments state) (known : segments[worker]? = some segment)
    (rest : ∀ other, others other = state.phase other ∨ others other = (state.phase other).wake)
    (places : after.phase = update others worker place) (moved : Placed plan segment place) :
    AllPlaced plan segments after := by
  intro other otherSegment found
  rw [places]
  by_cases equal : other = worker
  · rw [equal] at found ⊢
    rw [known] at found
    cases found
    rw [update_self]
    exact moved
  · rw [update_of_ne equal]
    rcases rest other with same | woken
    · rw [same]
      exact placed other otherSegment found
    · rw [woken]
      exact placed_wake (placed other otherSegment found)

theorem statusesTo_succ (begun : segment.start ≤ index) (statusesTo : StatusesTo segment index statuses) (status : Status) :
    StatusesTo segment (index + 1) (statuses ++ [(index, status)]) := by
  unfold StatusesTo at statusesTo ⊢
  rw [map_append, statusesTo, show index + 1 - segment.start = (index - segment.start) + 1 by omega,
    range'_concat, Nat.one_mul, show segment.start + (index - segment.start) = index by omega]
  rfl

theorem checksFit_append (fit : ChecksFit plan checks) (index : Nat) : ChecksFit plan (checks ++ deferredChecks plan segment index) := by
  intro check listed
  rcases mem_append.mp listed with earlier | added
  · exact fit check earlier
  · unfold deferredChecks at added
    split at added
    · next deferred =>
      rw [mem_singleton.mp added]
      unfold isDeferredCheck at deferred
      simp only [Bool.and_eq_true] at deferred
      have upstream := deferred.2
      split at upstream
      · next path found => exact ⟨path, found⟩
      · contradiction
    · contradiction

/-- A stage inside a segment is internal. -/
theorem internal_inside (found : TopologyOf plan topology) (known : topology.internalSegments[worker]? = some segment)
    (begun : segment.start ≤ index) (inside : index < segment.stop) : ∃ name, plan[index]? = some (.internal name) := by
  have member : index ∈ segment.stages := by
    apply mem_range'_1.mpr
    omega
  have listed : index ∈ topology.internalSegments.flatMap stages :=
    mem_flatMap.mpr ⟨segment, mem_of_getElem? known, member⟩
  rw [found.internals] at listed
  obtain ⟨offset, stage, position, resolved, internal⟩ := mem_indicesOf.mp listed
  rw [Nat.zero_add] at position
  rw [position, resolved]
  cases stage with
  | internal name => exact ⟨name, rfl⟩
  | external path => contradiction

/-- What a worker carries at its place. -/
theorem AllPlaced.here {segments : List InternalSegment} {place : Phase} (placed : AllPlaced plan segments state)
    (known : segments[worker]? = some segment) (at_ : state.phase worker = place) : Placed plan segment place := by
  rw [← at_]
  exact placed worker segment known

/-- A worker at a stage of its segment finds it internal. -/
theorem AllPlaced.internal (found : TopologyOf plan topology) (placed : AllPlaced plan topology.internalSegments state)
    (known : topology.internalSegments[worker]? = some segment) (place : state.phase worker = .atStage index statuses checks)
    (inside : index < segment.stop) :
    ∃ name, plan[index]? = some (.internal name) := by
  exact internal_inside found known (placed.here known place).1 inside

theorem step_placed (found : TopologyOf plan topology) (placed : AllPlaced plan topology.internalSegments state)
    (step : Step plan topology.internalSegments state after) : AllPlaced plan topology.internalSegments after := by
  have still : ∀ other, state.phase other = state.phase other ∨ state.phase other = (state.phase other).wake :=
    fun _ => .inl rfl
  have told : ∀ other, (state.phase other).wake = state.phase other ∨
      (state.phase other).wake = (state.phase other).wake := fun _ => .inr rfl
  cases step with
  | skip known => exact placed.update known still rfl rfl
  | sleep known | seeCancellation known | failDrain known => exact placed.update known still rfl trivial
  | @enter _ segment known =>
    have nonempty := found.numbered.nonempty segment (mem_of_getElem? known)
    have none : StatusesTo segment segment.start [] := by simp [StatusesTo]
    have unchecked : ChecksFit plan [] := by simp [ChecksFit]
    exact placed.update known still rfl ⟨Nat.le_refl _, by omega, none, unchecked⟩
  | observeCancellation known => exact placed.update known told rfl rfl
  | execute known place inside =>
    obtain ⟨begun, _, statusesTo, fit⟩ := placed.here known place
    exact placed.update known still rfl ⟨begun, inside, statusesTo, fit⟩
  | misplaced known place inside _ resolution =>
    obtain ⟨name, internal⟩ := placed.internal found known place inside
    exact absurd internal (resolution name)
  | completeStage known place status =>
    obtain ⟨begun, inside, statusesTo, fit⟩ := placed.here known place
    have more := statusesTo_succ begun statusesTo status
    exact placed.update known still rfl ⟨by omega, inside, more, checksFit_append fit _⟩
  | requestExit known place | failStage known place =>
    obtain ⟨begun, inside, _⟩ := placed.here known place
    exact placed.update known told rfl ⟨begun, inside⟩
  | @passTurn _ index segment _ _ known place finished =>
    obtain ⟨begun, within, statusesTo, fit⟩ := placed.here known place
    have whole : index = segment.stop := by omega
    rw [whole] at statusesTo
    exact placed.update known told rfl ⟨statusesTo, fit⟩
  | drain known place | finish known place =>
    have carried := placed.here known place
    exact placed.update known still rfl carried
  | @giveUp _ segment known =>
    refine placed.update known still rfl ?_
    split
    · rfl
    · rfl
  | finishDrain known place | cancelForExit known place =>
    exact placed.update known still rfl ⟨rfl, placed.here known place⟩
  | @reportDrain _ segment _ known =>
    have nonempty := found.numbered.nonempty segment (mem_of_getElem? known)
    refine placed.update known told rfl ?_
    split
    · rfl
    · show segment.start ≤ segment.stop - 1 ∧ segment.stop - 1 < segment.stop
      omega

end Carried

/-! ## Taking turns -/

/-- What the place of a worker says about the turns. -/
structure Fits (state : MixedState) (worker : Nat) (phase : Phase) : Prop where
  waiting : phase.isWaiting = true → state.stopped = true ∨ state.nextSegment ≤ worker
  asleep : phase = .asleep → state.stopped = false ∧ state.nextSegment < worker
  holding : phase.holdsLock = true →
    state.stopped = false ∧ state.nextSegment = worker ∧ state.lock = some worker
  past : phase.isPast = true → state.stopped = true ∨ worker < state.nextSegment

/-- Every worker is where the counter and the flag say it can be. -/
structure Orderly (segments : List InternalSegment) (state : MixedState) : Prop where
  fits : ∀ worker, Fits state worker (state.phase worker)
  held : ∀ worker, state.lock = some worker → (state.phase worker).holdsLock = true
  bounded : state.nextSegment ≤ segments.length
  outside : ∀ worker, segments.length ≤ worker → state.phase worker = .arriving

section Turns

variable {segments : List InternalSegment} {state : MixedState} {worker other : Nat} {phase place : Phase}
variable {segment : InternalSegment}

theorem lt_of_known (known : segments[worker]? = some segment) :
    worker < segments.length := by
  by_contra beyond
  rw [List.getElem?_eq_none (by omega)] at known
  contradiction

/-- Only the worker that holds the lock is in its turn. -/
theorem Orderly.holder (orderly : Orderly segments state) (free : state.lock ≠ some worker) :
    (state.phase worker).holdsLock = false := by
  cases holds : (state.phase worker).holdsLock with
  | false => rfl
  | true => exact absurd ((orderly.fits worker).holding holds).2.2 free

/-- The worker in its turn holds the lock. -/
theorem Orderly.turn (orderly : Orderly segments state) (at_ : state.phase worker = place)
    (holds : place.holdsLock = true) : state.stopped = false ∧ state.nextSegment = worker ∧ state.lock = some worker :=
  (orderly.fits worker).holding (by rw [at_]; exact holds)

/-- While one worker holds the lock, nobody else is in a turn. -/
theorem Orderly.alone (orderly : Orderly segments state) (at_ : state.phase worker = place)
    (holds : place.holdsLock = true) : ∀ other, other ≠ worker → (state.phase other).holdsLock = false := by
  intro other different
  apply orderly.holder
  rw [(orderly.turn at_ holds).2.2]
  intro same
  exact different (Option.some.inj same).symm

/-- A place of a worker that is done with its turn. -/
theorem Fits.of_past (past : phase.isPast = true) (gone : state.stopped = true ∨ worker < state.nextSegment) :
    Fits state worker phase where
  waiting waits := by cases phase <;> simp_all [isWaiting, Phase.isPast]
  asleep sleeps := by
    rw [sleeps] at past
    contradiction
  holding holds := by cases phase <;> simp_all [holdsLock, Phase.isPast]
  past _ := gone

variable {after : MixedState}

/-- A step that changes only the place of one worker. -/
theorem Orderly.moved (orderly : Orderly segments state) (known : worker < segments.length) (lock : after.lock = state.lock)
    (next : after.nextSegment = state.nextSegment) (stopped : after.stopped = state.stopped)
    (places : after.phase = update state.phase worker phase) (fits : Fits state worker phase)
    (held : state.lock = some worker → phase.holdsLock = true) :
    Orderly segments after where
  fits other := by
    have same : ∀ place, Fits state other place → Fits after other place := by
      rintro place ⟨waiting, asleep, holding, past⟩
      constructor
      · rw [stopped, next]
        exact waiting
      · rw [stopped, next]
        exact asleep
      · rw [stopped, next, lock]
        exact holding
      · rw [stopped, next]
        exact past
    apply same
    rw [places]
    by_cases equal : other = worker
    · rw [equal, update_self]
      exact fits
    · rw [update_of_ne equal]
      exact orderly.fits other
  held other holder := by
    rw [lock] at holder
    rw [places]
    by_cases equal : other = worker
    · rw [equal, update_self]
      rw [equal] at holder
      exact held holder
    · rw [update_of_ne equal]
      exact orderly.held other holder
  bounded := by
    rw [next]
    exact orderly.bounded
  outside other beyond := by
    have different : other ≠ worker := by omega
    rw [places, update_of_ne different]
    exact orderly.outside other beyond

theorem wake_holds (place : Phase) : place.wake.holdsLock = place.holdsLock := by
  cases place <;> rfl

theorem wake_past (place : Phase) : place.wake.isPast = place.isPast := by
  cases place <;> rfl

theorem wake_awake (place : Phase) : place.wake ≠ .asleep := by
  cases place <;> simp [wake]

theorem wake_waiting {place : Phase} (waiting : place.wake.isWaiting = true) :
    place.isWaiting = true ∨ place = .asleep := by
  cases place <;> simp_all [wake, isWaiting]

section

variable (orderly : Orderly segments state)
include orderly

/-- A step after which no further turn comes, by the worker in its turn or while nobody
is. -/
theorem Orderly.halted (known : segments[worker]? = some segment) (lock : after.lock = none)
    (stopped : after.stopped = true) (next : after.nextSegment = state.nextSegment)
    (places : after.phase = update (fun other => (state.phase other).wake) worker phase)
    (quiet : ∀ other, other ≠ worker → (state.phase other).holdsLock = false) (past : phase.isPast = true) :
    Orderly segments after where
  fits other := by
    rw [places]
    by_cases equal : other = worker
    · rw [equal, update_self]
      exact .of_past past (.inl stopped)
    · rw [update_of_ne equal]
      constructor
      · intro _
        exact .inl stopped
      · intro asleep
        exact absurd asleep (wake_awake _)
      · intro holds
        rw [wake_holds, quiet other equal] at holds
        contradiction
      · intro _
        exact .inl stopped
  held other holder := by
    rw [lock] at holder
    contradiction
  bounded := by
    rw [next]
    exact orderly.bounded
  outside other beyond := by
    have inside := lt_of_known known
    have different : other ≠ worker := by omega
    rw [places, update_of_ne different, orderly.outside other beyond]
    rfl

/-- The worker in its turn hands it on. -/
theorem Orderly.passed (known : segments[worker]? = some segment) (at_ : state.phase worker = place)
    (holds : place.holdsLock = true) (lock : after.lock = none) (stopped : after.stopped = state.stopped)
    (next : after.nextSegment = state.nextSegment + 1)
    (places : after.phase = update (fun other => (state.phase other).wake) worker phase)
    (past : phase.isPast = true) : Orderly segments after := by
  obtain ⟨running, turn, holder⟩ := orderly.turn at_ holds
  have inside := lt_of_known known
  refine ⟨?_, ?_, ?_, ?_⟩
  · intro other
    rw [places]
    by_cases equal : other = worker
    · rw [equal, update_self]
      exact .of_past past (.inr (by omega))
    · rw [update_of_ne equal]
      have fits := orderly.fits other
      constructor
      · intro waiting
        rw [next]
        rcases wake_waiting waiting with was | was
        · rcases fits.waiting was with stop | later
          · rw [stopped]
            exact .inl stop
          · exact .inr (by omega)
        · have later := (fits.asleep was).2
          exact .inr (by omega)
      · intro asleep
        exact absurd asleep (wake_awake _)
      · intro holding
        rw [wake_holds] at holding
        have mine := (fits.holding holding).2.1
        omega
      · intro isPast
        rw [wake_past] at isPast
        rw [next, stopped]
        rcases fits.past isPast with stop | earlier
        · exact .inl stop
        · exact .inr (by omega)
  · intro other impossible
    rw [lock] at impossible
    contradiction
  · omega
  · intro other beyond
    have different : other ≠ worker := by omega
    rw [places, update_of_ne different, orderly.outside other beyond]
    rfl

/-- A worker that is past its turn does not hold the lock. -/
theorem Orderly.unlocked (was : (state.phase worker).isPast = true) :
    state.lock ≠ some worker := by
  intro holder
  have holds := orderly.held worker holder
  cases place : state.phase worker <;> simp_all [holdsLock, Phase.isPast]

/-- A step of a worker that is past its turn. -/
theorem Orderly.moved_past (known : segments[worker]? = some segment) (at_ : state.phase worker = place)
    (was : place.isPast = true) (lock : after.lock = state.lock) (next : after.nextSegment = state.nextSegment)
    (stopped : after.stopped = state.stopped) (places : after.phase = update state.phase worker phase)
    (past : phase.isPast = true) :
    Orderly segments after := by
  rw [← at_] at was
  exact orderly.moved (lt_of_known known) lock next stopped places (.of_past past ((orderly.fits worker).past was))
    (fun holder => absurd holder (orderly.unlocked was))

/-- A step of the worker in its turn that stays in it. -/
theorem Orderly.stays (known : segments[worker]? = some segment) (at_ : state.phase worker = place)
    (holds : place.holdsLock = true) (lock : after.lock = state.lock) (next : after.nextSegment = state.nextSegment)
    (stopped : after.stopped = state.stopped) (places : after.phase = update state.phase worker phase)
    (still : phase.holdsLock = true) :
    Orderly segments after := by
  refine orderly.moved (lt_of_known known) lock next stopped places ?_ fun _ => still
  have turn := orderly.turn at_ holds
  cases phase with
  | atStage | running => exact ⟨by simp [isWaiting], by simp, fun _ => turn, by simp [Phase.isPast]⟩
  | arriving | asleep | woken | advanced | cancelledAfterTurn | draining | drainFailed | exiting | returned | done
    | panicked => contradiction

end

theorem step_orderly {plan : List PlannedResolution} {topology : MixedTopology} (found : TopologyOf plan topology)
    (placed : AllPlaced plan topology.internalSegments state) (orderly : Orderly topology.internalSegments state)
    (step : Step plan topology.internalSegments state after) :
    Orderly topology.internalSegments after := by
  have numbered := found.numbered
  cases step with
  | skip known waiting free stopped =>
    refine orderly.moved (lt_of_known known) rfl rfl rfl rfl ?_ (by simp [free])
    exact ⟨by simp [isWaiting], by simp, by simp [holdsLock], fun _ => .inl stopped⟩
  | @sleep worker segment known waiting free running other =>
    refine orderly.moved (lt_of_known known) rfl rfl rfl rfl ?_ (by simp [free])
    refine ⟨by simp [isWaiting], fun _ => ⟨running, ?_⟩, by simp [holdsLock], by simp [Phase.isPast]⟩
    rw [numbered.ordinals worker segment known] at other
    rcases (orderly.fits worker).waiting waiting with stopped | later
    · rw [running] at stopped
      contradiction
    · omega
  | @enter worker segment known waiting free running turn =>
    rw [numbered.ordinals worker segment known] at turn
    refine ⟨?_, ?_, orderly.bounded, ?_⟩
    · intro other
      show Fits _ other (update state.phase worker (.atStage segment.start [] []) other)
      by_cases equal : other = worker
      · rw [equal, update_self]
        exact ⟨by simp [isWaiting], by simp, fun _ => ⟨running, turn, rfl⟩, by simp [Phase.isPast]⟩
      · rw [update_of_ne equal]
        have fits := orderly.fits other
        refine ⟨fits.waiting, fits.asleep, ?_, fits.past⟩
        intro holds
        rw [orderly.holder (by rw [free]; simp)] at holds
        contradiction
    · intro other holder
      cases holder
      show (update state.phase worker (.atStage segment.start [] []) worker).holdsLock = true
      rw [update_self]
      rfl
    · intro other beyond
      have inside := lt_of_known known
      have different : other ≠ worker := by omega
      show update state.phase worker (.atStage segment.start [] []) other = .arriving
      rw [update_of_ne different]
      exact orderly.outside other beyond
  | observeCancellation known place | requestExit known place | failStage known place =>
    exact orderly.halted known rfl rfl rfl rfl (orderly.alone place rfl) rfl
  | execute known place | completeStage known place => exact orderly.stays known place rfl rfl rfl rfl rfl rfl
  | misplaced known place inside _ resolution =>
    obtain ⟨name, internal⟩ := placed.internal found known place inside
    exact absurd internal (resolution name)
  | passTurn known place => exact orderly.passed known place rfl rfl rfl rfl rfl rfl
  | seeCancellation known place | drain known place | giveUp known place | finishDrain known place
    | failDrain known place | cancelForExit known place | finish known place =>
    exact orderly.moved_past known place rfl rfl rfl rfl rfl rfl
  | reportDrain known _ free =>
    refine orderly.halted known free rfl rfl rfl ?_ rfl
    intro other _
    exact orderly.holder (by rw [free]; simp)

end Turns

/-! ## The order of stages -/

/-- The stages a worker has executed in its turn. -/
def turnStages (segment : InternalSegment) : Phase → List Nat
  | .atStage index _ _ => List.range' segment.start (index - segment.start)
  | .running index _ _ => List.range' segment.start (index + 1 - segment.start)
  | _ => []

/-- The stages executed so far are the first ones of the plan, and while turns are still
given they are those of the segments before this turn and those of the turn itself. -/
structure History (segments : List InternalSegment) (state : MixedState) : Prop where
  ordered : state.executed <+: segments.flatMap stages
  between : state.stopped = false → state.lock = none →
    state.executed = (segments.take state.nextSegment).flatMap stages
  during : ∀ (worker : Nat) (segment : InternalSegment), segments[worker]? = some segment →
    (state.phase worker).holdsLock = true →
    state.executed = (segments.take worker).flatMap stages ++ turnStages segment (state.phase worker)

section Histories

variable {segments : List InternalSegment} {state after : MixedState} {worker : Nat}

/-- A step of a worker that is not in its turn, before it and after it. -/
theorem History.quiet (history : History segments state) (executed : after.executed = state.executed)
    (next : after.nextSegment = state.nextSegment) (lock : after.lock = state.lock)
    (stopped : after.stopped = false → state.stopped = false)
    (places : ∀ other, (after.phase other).holdsLock = true → after.phase other = state.phase other) :
    History segments after where
  ordered := by
    rw [executed]
    exact history.ordered
  between running free := by
    rw [executed, next]
    rw [lock] at free
    exact history.between (stopped running) free
  during other segment known holds := by
    have same := places other holds
    rw [same] at holds ⊢
    rw [executed]
    exact history.during other segment known holds

/-- A step after which no further turn comes and nobody is in one. -/
theorem History.ended (history : History segments state) (executed : after.executed = state.executed)
    (stopped : after.stopped = true) (quiet : ∀ other, (after.phase other).holdsLock = false) :
    History segments after where
  ordered := by
    rw [executed]
    exact history.ordered
  between running _ := by
    rw [stopped] at running
    contradiction
  during other segment _ holds := by
    rw [quiet other] at holds
    contradiction

theorem holds_update {places : Nat → Phase} {place : Phase} (outside : place.holdsLock = false) (other : Nat)
    (holds : (update places worker place other).holdsLock = true) :
    update places worker place other = places other := by
  by_cases equal : other = worker
  · rw [equal, update_self, outside] at holds
    contradiction
  · exact update_of_ne equal _ _

/-- The worker in its turn gives the lock up, and everybody is told. -/
theorem quiet_update {place : Phase} (quiet : ∀ other, other ≠ worker → (state.phase other).holdsLock = false)
    (outside : place.holdsLock = false) (other : Nat) :
    (update (fun other => (state.phase other).wake) worker place other).holdsLock = false := by
  by_cases equal : other = worker
  · rw [equal, update_self]
    exact outside
  · rw [update_of_ne equal, wake_holds]
    exact quiet other equal

variable {segment : InternalSegment}

variable {place : Phase}

/-- What the worker in its turn has executed. -/
theorem History.here (history : History segments state) (known : segments[worker]? = some segment)
    (at_ : state.phase worker = place) (holds : place.holdsLock = true) :
    state.executed = (segments.take worker).flatMap stages ++ turnStages segment place := by
  rw [← at_] at holds ⊢
  exact history.during worker segment known holds

/-- After a step only one worker is in its turn. -/
theorem during_update {others : Nat → Phase} (known : segments[worker]? = some segment)
    (alone : ∀ other, other ≠ worker → (others other).holdsLock = false) {executed : List Nat}
    (before : executed = (segments.take worker).flatMap stages ++ turnStages segment place)
    (other : Nat) (otherSegment : InternalSegment) (listed : segments[other]? = some otherSegment)
    (holds : (update others worker place other).holdsLock = true) :
    executed = (segments.take other).flatMap stages ++
      turnStages otherSegment (update others worker place other) := by
  by_cases equal : other = worker
  · rw [equal] at listed ⊢
    rw [known] at listed
    cases listed
    rw [update_self]
    exact before
  · rw [update_of_ne equal, alone other equal] at holds
    contradiction

theorem take_flatMap_succ (known : segments[worker]? = some segment) :
    (segments.take (worker + 1)).flatMap stages =
      (segments.take worker).flatMap stages ++ segment.stages := by
  rw [take_add_one, known, flatMap_append]
  simp

/-- The stages of the earlier segments and the first ones of a segment come first. -/
theorem turn_prefix {index : Nat} (known : segments[worker]? = some segment) (begun : segment.start ≤ index)
    (inside : index < segment.stop) :
    (segments.take worker).flatMap stages ++
        List.range' segment.start (index + 1 - segment.start) <+:
      segments.flatMap stages := by
  have first : List.range' segment.start (index + 1 - segment.start) <+: segment.stages := by
    refine ⟨List.range' (segment.start + (index + 1 - segment.start)) (segment.stop - (index + 1)), ?_⟩
    unfold stages
    rw [range'_append_1, show index + 1 - segment.start + (segment.stop - (index + 1)) =
      segment.stop - segment.start by omega]
  have whole : (segments.take (worker + 1)).flatMap stages <+:
      segments.flatMap stages := by
    refine ⟨(segments.drop (worker + 1)).flatMap stages, ?_⟩
    rw [← flatMap_append, take_append_drop]
  rw [take_flatMap_succ known] at whole
  exact ((prefix_append_right_inj _).mpr first).trans whole

theorem step_history {plan : List PlannedResolution} {topology : MixedTopology} (found : TopologyOf plan topology)
    (placed : AllPlaced plan topology.internalSegments state) (orderly : Orderly topology.internalSegments state)
    (history : History topology.internalSegments state) (step : Step plan topology.internalSegments state after) :
    History topology.internalSegments after := by
  have numbered := found.numbered
  cases step with
  | skip | seeCancellation | drain | giveUp | finishDrain | failDrain | cancelForExit | finish =>
    exact history.quiet rfl rfl rfl (fun running => running) (holds_update rfl)
  | sleep => exact history.quiet rfl rfl rfl (fun running => running) (holds_update rfl)
  | @enter worker segment known waiting free running turn =>
    rw [numbered.ordinals worker segment known] at turn
    refine ⟨history.ordered, by simp [MixedState.move], during_update known ?_ ?_⟩
    · intro other _
      exact orderly.holder (by rw [free]; simp)
    · show state.executed = _
      rw [history.between running free, turn]
      simp [turnStages]
  | observeCancellation _ place | requestExit _ place | failStage _ place =>
    exact history.ended rfl rfl (quiet_update (orderly.alone place rfl) rfl)
  | @execute worker index segment _ statuses checks known place inside =>
    have begun : segment.start ≤ index := (placed.here known place).1
    have more : state.executed ++ [index] = (topology.internalSegments.take worker).flatMap stages ++
        List.range' segment.start (index + 1 - segment.start) := by
      rw [history.here known place rfl, append_assoc]
      congr 1
      show List.range' segment.start (index - segment.start) ++ [index] = _
      rw [show index + 1 - segment.start = (index - segment.start) + 1 by omega, range'_concat, Nat.one_mul,
        show segment.start + (index - segment.start) = index by omega]
    refine ⟨?_, ?_, during_update known (orderly.alone place rfl) more⟩
    · rw [more]
      exact turn_prefix known begun inside
    · intro _ free
      have holder := (orderly.turn place rfl).2.2
      rw [show state.lock = none from free] at holder
      contradiction
  | misplaced known place inside _ resolution =>
    obtain ⟨name, internal⟩ := placed.internal found known place inside
    exact absurd internal (resolution name)
  | completeStage known place =>
    have before := history.here known place rfl
    exact ⟨history.ordered, history.between, during_update known (orderly.alone place rfl) before⟩
  | @passTurn worker index segment statuses checks known place finished =>
    have turn := (orderly.turn place rfl).2.1
    have within : index ≤ segment.stop := (placed.here known place).2.1
    have whole : index = segment.stop := by omega
    have before := history.here known place rfl
    rw [whole] at before
    refine ⟨history.ordered, ?_, ?_⟩
    · intro _ _
      show state.executed = (topology.internalSegments.take (state.nextSegment + 1)).flatMap stages
      rw [turn, take_flatMap_succ known, before]
      rfl
    · intro other otherSegment listed otherHolds
      have nobody := quiet_update (orderly.alone place rfl) (rfl : (Phase.advanced statuses checks).holdsLock = false) other
      exact absurd otherHolds (by rw [Bool.not_eq_true]; exact nobody)
  | @reportDrain worker _ _ _ _ free =>
    have nobody : ∀ other, other ≠ worker → (state.phase other).holdsLock = false := by
      intro other _
      exact orderly.holder (by rw [free]; simp)
    exact history.ended rfl rfl (quiet_update nobody rfl)

end Histories

end Opaal.Runtime.Mixed
