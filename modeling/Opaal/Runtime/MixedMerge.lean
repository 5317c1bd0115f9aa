import Opaal.Machine.Stateful
import Opaal.Runtime.JobRecord
import Opaal.Runtime.MixedProgress

/-!
# Merging what the workers return

When every worker of a mixed pipeline is back, its coordinator picks the failure to
report, or the exit, or collects one status for each stage: those of the internal stages
from the workers and those of the external stages from their processes.  The slots for
the statuses assert that each is filled once and that none is left.
-/

namespace Opaal.Runtime.Mixed

open List
open Opaal.Machine (bind_ok)
open Prod (fst)

/-! ## Slots -/

/-- The assertions on the slots, each with the message it would fail with. -/
inductive SlotAssertion where
  /-- "a mixed status index belongs to the source plan" -/
  | statusOutsidePlan
  /-- "a mixed source stage completes exactly once" -/
  | completedTwice
  /-- "a deferred check names a source stage" -/
  | checkOutsidePlan
  /-- "a deferred check runs only after its upstream status completes" -/
  | upstreamPending
  /-- "a mixed pipeline aggregates only complete status slots" -/
  | pendingSlot
deriving DecidableEq

/-- What the coordinator can panic with. -/
inductive Panic where
  | slot (assertion : SlotAssertion)
  /-- "the selected mixed segment result is a failure" -/
  | selectedNoFailure
  | aggregate (message : String)
deriving DecidableEq

structure StageStatusSlots where
  slots : List (Option Status)

namespace StageStatusSlots

def new (stageCount : Nat) : StageStatusSlots := ⟨List.replicate stageCount none⟩

def complete (self : StageStatusSlots) (index : Nat) (status : Status) : Except SlotAssertion StageStatusSlots :=
  match self.slots[index]? with
  | none => .error .statusOutsidePlan
  | some (some _) => .error .completedTwice
  | some none => .ok ⟨self.slots.set index (some status)⟩

def completeAll (self : StageStatusSlots) (statuses : List (Nat × Status)) : Except SlotAssertion StageStatusSlots :=
  statuses.foldlM (fun slots entry => slots.complete entry.1 entry.2) self

def completed (self : StageStatusSlots) (index : Nat) : Except SlotAssertion Status :=
  match self.slots[index]? with
  | none => .error .checkOutsidePlan
  | some none => .error .upstreamPending
  | some (some status) => .ok status

def intoStatuses (self : StageStatusSlots) : Except SlotAssertion (List Status) :=
  self.slots.mapM fun slot =>
    match slot with
    | some status => .ok status
    | none => .error .pendingSlot

end StageStatusSlots

/-! ## The coordinator -/

/-- What terminating or waiting for the processes of the external stages comes to. -/
structure External where
  terminate : Except Interrupt Unit
  wait : Nat → Except Interrupt Status
  /-- Giving the terminal, the group and the signals back after the last wait. -/
  release : Except Interrupt Duration

inductive MergeError where
  | segment (interrupt : Interrupt) (cleanup : Option Interrupt)
  | cleanup (interrupt : Interrupt)
  | wait (interrupt : Interrupt)
  | unsuccessfulStatus (status : Status) (checkStage : Nat)
deriving DecidableEq

inductive ChainStep where
  | status (status : Status)
  | exit (code : UInt8)
deriving DecidableEq

def sortKey : Outcome → Nat
  | .ok result => result.ordinal
  | .error failure => failure.stageIndex

def requestedExitStage (results : List Outcome) : Option Nat :=
  results.findSome? fun result =>
    match result with
    | .ok (.exit _ stageIndex _) => some stageIndex
    | _ => none

/-- A failure that is reported although an exit was asked for. -/
def isLeading (exitStage : Option Nat) : Outcome → Bool
  | .error failure => !failure.triggered && exitStage.all (failure.stageIndex < ·)
  | .ok _ => false

def isErr : Outcome → Bool
  | .error _ => true
  | .ok _ => false

def failureIndex (results : List Outcome) : Option Nat :=
  let exitStage := requestedExitStage results
  (results.findIdx? (isLeading exitStage)).or (if exitStage.isNone then results.findIdx? isErr else none)

structure Merged where
  slots : StageStatusSlots
  deferredChecks : List DeferredCheck
  requestedExit : Option UInt8

def mergeResult (merged : Merged) : Outcome → Except SlotAssertion Merged
  | .ok (.completed _ statuses checks) => do
    let slots ← merged.slots.completeAll statuses
    .ok { merged with slots := slots, deferredChecks := merged.deferredChecks ++ checks }
  | .ok (.exit _ _ code) => .ok { merged with requestedExit := some code }
  | .ok (.stoppedByExit _) | .ok (.skipped _) | .error _ => .ok merged

def waitChildren (external : External) (children : List Nat) : Except Interrupt (List (Nat × Status) × Duration) := do
  let statuses ← children.mapM fun index => do
    let status ← external.wait index
    .ok (index, status)
  let duration ← external.release
  .ok (statuses, duration)

def runChecks (slots : StageStatusSlots) : List DeferredCheck → Except SlotAssertion (Option MergeError)
  | [] => .ok none
  | check :: checks => do
    let upstream ← slots.completed check.upstreamStage
    if upstream.isOk then runChecks slots checks
    else .ok (some (.unsuccessfulStatus upstream check.checkStage))

def asserted {α : Type} : Except SlotAssertion α → Except Panic α
  | .ok value => .ok value
  | .error assertion => .error (.slot assertion)

/-- All statuses are there: the deferred checks run and the pipeline has a status. -/
def conclude (slots : StageStatusSlots) (checks : List DeferredCheck) (pipefail : Bool) (duration : Duration) :
    Except Panic (Except MergeError ChainStep) := do
  match ← asserted (runChecks slots (checks.mergeSort fun first second => first.checkStage ≤ second.checkStage)) with
  | some error => .ok (.error error)
  | none =>
    let statuses ← asserted slots.intoStatuses
    match aggregateStatuses statuses pipefail duration with
    | .ok status => .ok (.ok (.status status))
    | .error message => .error (.aggregate message)

/-- From the sorted results of the workers to the end of the pipeline. -/
def mergeSorted (stageCount : Nat) (pipefail : Bool) (children : List Nat) (external : External)
    (results : List Outcome) : Except Panic (Except MergeError ChainStep) :=
  match failureIndex results with
  | some index =>
    match results[index]? with
    | some (.error failure) =>
      .ok (.error (.segment failure.interrupt
        (match external.terminate with
        | .ok _ => none
        | .error cleanup => some cleanup)))
    | _ => .error .selectedNoFailure
  | none => do
    let merged ← asserted (results.foldlM mergeResult ⟨.new stageCount, [], none⟩)
    match merged.requestedExit with
    | some code =>
      match external.terminate with
      | .ok _ => .ok (.ok (.exit code))
      | .error interrupt => .ok (.error (.cleanup interrupt))
    | none =>
      match waitChildren external children with
      | .error interrupt => .ok (.error (.wait interrupt))
      | .ok (statuses, duration) => do
        let slots ← asserted (merged.slots.completeAll statuses)
        conclude slots merged.deferredChecks pipefail duration

/-- What becomes of the results of the workers, given in the order of their segments. -/
def mergeResults (stageCount : Nat) (pipefail : Bool) (children : List Nat) (external : External)
    (results : List Outcome) : Except Panic (Except MergeError ChainStep) :=
  mergeSorted stageCount pipefail children external
    (results.mergeSort fun first second => sortKey first ≤ sortKey second)

/-! ## From the workers to the coordinator -/

/-- What the workers returned, in the order of their segments. -/
def outcomes (segments : List InternalSegment) (state : MixedState) : List Outcome :=
  segments.zipIdx.filterMap fun pair => (state.phase pair.2).outcome

/-- The processes that are left to wait for: cancelling reaps them all. -/
def remainingChildren (externalIndices : List Nat) (state : MixedState) : List Nat :=
  if state.cancelled then [] else externalIndices

/-! ## Filling slots -/

section Filling

variable {slots after : StageStatusSlots} {entries : List (Nat × Status)}

/-- What filling distinct pending slots comes to. -/
structure Filled (slots : StageStatusSlots) (entries : List (Nat × Status)) (after : StageStatusSlots) : Prop where
  length : after.slots.length = slots.slots.length
  entered : ∀ entry ∈ entries, after.slots[entry.1]? = some (some entry.2)
  others : ∀ index, index ∉ entries.map fst → after.slots[index]? = slots.slots[index]?

theorem completeAll_filled (pending : ∀ entry ∈ entries, slots.slots[entry.1]? = some none)
    (distinct : (entries.map fst).Nodup) :
    ∃ after, slots.completeAll entries = .ok after ∧ Filled slots entries after := by
  induction entries generalizing slots with
  | nil => exact ⟨slots, rfl, ⟨rfl, by simp, fun _ _ => rfl⟩⟩
  | cons entry entries ih =>
    obtain ⟨index, status⟩ := entry
    obtain ⟨first, rest⟩ := nodup_cons.mp distinct
    have once : index ∉ entries.map fst := first
    have here : slots.slots[index]? = some none := pending (index, status) (by simp)
    have bound : index < slots.slots.length := by
      by_contra beyond
      rw [List.getElem?_eq_none (by omega)] at here
      contradiction
    have placed : slots.complete index status = .ok ⟨slots.slots.set index (some status)⟩ := by
      simp [StageStatusSlots.complete, here]
    have pendingRest : ∀ other ∈ entries, (slots.slots.set index (some status))[other.1]? = some none := by
      intro other listed
      have different : index ≠ other.1 := by
        intro same
        apply once
        rw [same]
        exact mem_map_of_mem listed
      rw [List.getElem?_set_ne different]
      exact pending other (by simp [listed])
    let next : StageStatusSlots := ⟨slots.slots.set index (some status)⟩
    have pendingNext : ∀ other ∈ entries, next.slots[other.1]? = some none := pendingRest
    obtain ⟨after, filled, length, entered, others⟩ := ih pendingNext rest
    refine ⟨after, ?_, ?_, ?_, ?_⟩
    · show (slots.complete index status >>= fun next => next.completeAll entries) = .ok after
      rw [placed]
      exact filled
    · rw [length]
      exact length_set
    · intro other listed
      rcases mem_cons.mp listed with same | later
      · rw [same, others index once]
        exact List.getElem?_set_self bound
      · exact entered other later
    · intro other unlisted
      have different : index ≠ other := by
        intro same
        apply unlisted
        simp [same]
      rw [others other (by intro listed; exact unlisted (by simp [listed]))]
      exact List.getElem?_set_ne different

theorem completeAll_append (slots : StageStatusSlots) (first second : List (Nat × Status)) :
    slots.completeAll (first ++ second) = slots.completeAll first >>= fun next => next.completeAll second := by
  unfold StageStatusSlots.completeAll
  rw [foldlM_append]

theorem new_pending {stageCount index : Nat} (inside : index < stageCount) :
    (StageStatusSlots.new stageCount).slots[index]? = some none := by
  simp [StageStatusSlots.new, inside]

/-- Slots that are all filled have one status for each stage. -/
theorem intoStatuses_full {slots : StageStatusSlots} {stageCount : Nat} (length : slots.slots.length = stageCount)
    (full : ∀ index < stageCount, ∃ status, slots.slots[index]? = some (some status)) :
    ∃ statuses, slots.intoStatuses = .ok statuses ∧ statuses.map some = slots.slots := by
  obtain ⟨slots⟩ := slots
  unfold StageStatusSlots.intoStatuses
  induction slots generalizing stageCount with
  | nil => exact ⟨[], rfl, rfl⟩
  | cons slot slots ih =>
    obtain ⟨status, first⟩ := full 0 (by rw [← length]; simp)
    obtain rfl : slot = some status := by simpa using first
    have later : ∀ index < slots.length, ∃ other, slots[index]? = some (some other) := by
      intro index inside
      obtain ⟨other, found⟩ := full (index + 1) (by rw [← length]; simp; omega)
      exact ⟨other, by simpa using found⟩
    obtain ⟨statuses, rest, same⟩ := ih rfl later
    refine ⟨status :: statuses, ?_, ?_⟩
    · rw [mapM_cons, rest]
      rfl
    · rw [map_cons, same]

end Filling

/-! ## What the results hold -/

def statusesOf : Outcome → List (Nat × Status)
  | .ok (.completed _ statuses _) => statuses
  | _ => []

def checksOf : Outcome → List DeferredCheck
  | .ok (.completed _ _ checks) => checks
  | _ => []

def isExit : Outcome → Bool
  | .ok (.exit _ _ _) => true
  | _ => false

section Results

variable {plan : List PlannedResolution} {topology : MixedTopology} {segments : List InternalSegment}
variable {state : MixedState} {results : List Outcome}

theorem outcomeFits_of_placed {segment : InternalSegment} {place : Phase} {outcome : Outcome}
    (placed : Placed plan segment place) (back : place.outcome = some outcome) : OutcomeFits plan segment outcome := by
  cases place with
  | returned other | done other =>
    cases back
    exact placed
  | arriving | asleep | woken | atStage | running | advanced | cancelledAfterTurn | draining | drainFailed | exiting
    | panicked => contradiction

theorem mem_outcomes {outcome : Outcome} : outcome ∈ outcomes segments state ↔
    ∃ (worker : Nat) (segment : InternalSegment), segments[worker]? = some segment ∧
      (state.phase worker).outcome = some outcome := by
  unfold outcomes
  rw [mem_filterMap]
  constructor
  · rintro ⟨⟨segment, worker⟩, listed, back⟩
    exact ⟨worker, segment, mem_zipIdx_iff_getElem?.mp listed, back⟩
  · rintro ⟨worker, segment, known, back⟩
    exact ⟨(segment, worker), mem_zipIdx_iff_getElem?.mpr known, back⟩

/-- A worker contributes the statuses of its stages or none. -/
theorem statusesOf_sublist {segment : InternalSegment} {outcome : Outcome} (fits : OutcomeFits plan segment outcome) :
    ((statusesOf outcome).map fst).Sublist segment.stages := by
  cases outcome with
  | error => exact nil_sublist _
  | ok result =>
    cases result with
    | completed ordinal statuses checks =>
      rw [show (statusesOf (.ok (.completed ordinal statuses checks))).map fst = segment.stages from fits.2.1]
    | exit | stoppedByExit | skipped => exact nil_sublist _

theorem outcomes_sublist (placed : AllPlaced plan segments state) :
    (((outcomes segments state).flatMap statusesOf).map fst).Sublist
      (segments.flatMap InternalSegment.stages) := by
  have pairs : ∀ pairs : List (InternalSegment × Nat), (∀ pair ∈ pairs, segments[pair.2]? = some pair.1) →
      (((pairs.filterMap fun pair => (state.phase pair.2).outcome).flatMap statusesOf).map fst).Sublist
        ((pairs.map fst).flatMap InternalSegment.stages) := by
    intro pairs listed
    induction pairs with
    | nil => exact nil_sublist _
    | cons pair _ ih =>
      have rest := ih (fun other later => listed other (by simp [later]))
      have known := listed pair (by simp)
      rw [map_cons, flatMap_cons, filterMap_cons]
      cases back : (state.phase pair.2).outcome with
      | none => exact rest.trans (sublist_append_right _ _)
      | some =>
        simp only [flatMap_cons, map_append]
        exact (statusesOf_sublist (outcomeFits_of_placed (placed pair.2 pair.1 known) back)).append rest
  have all := pairs segments.zipIdx (fun pair listed => mem_zipIdx_iff_getElem?.mp listed)
  rw [zipIdx_map_fst] at all
  exact all

/-- The worker has run all stages of its segment. -/
def HasCompleted (plan : List PlannedResolution) (segment : InternalSegment) (place : Phase) : Prop :=
  ∃ statuses checks, place = .done (.ok (.completed segment.ordinal statuses checks)) ∧
    StatusesTo segment segment.stop statuses ∧ ChecksFit plan checks

/-- Workers that have all completed contribute the statuses of all internal stages. -/
theorem outcomes_all (completed : ∀ (worker : Nat) (segment : InternalSegment), segments[worker]? = some segment →
    HasCompleted plan segment (state.phase worker)) :
    ((outcomes segments state).flatMap statusesOf).map fst = segments.flatMap InternalSegment.stages := by
  have pairs : ∀ pairs : List (InternalSegment × Nat), (∀ pair ∈ pairs, segments[pair.2]? = some pair.1) →
      ((pairs.filterMap fun pair => (state.phase pair.2).outcome).flatMap statusesOf).map fst =
        (pairs.map fst).flatMap InternalSegment.stages := by
    intro pairs listed
    induction pairs with
    | nil => rfl
    | cons pair _ ih =>
      have rest := ih (fun other later => listed other (by simp [later]))
      obtain ⟨statuses, checks, place, statusesTo, _⟩ := completed pair.2 pair.1 (listed pair (by simp))
      have back : (state.phase pair.2).outcome = some (.ok (.completed pair.1.ordinal statuses checks)) := by
        rw [place]
        rfl
      rw [map_cons, flatMap_cons, filterMap_cons, back]
      simp only [flatMap_cons, map_append, rest]
      rw [show (statusesOf (.ok (.completed pair.1.ordinal statuses checks))).map fst = pair.1.stages
        from statusesTo]
  have all := pairs segments.zipIdx (fun pair listed => mem_zipIdx_iff_getElem?.mp listed)
  rw [zipIdx_map_fst] at all
  exact all

/-- Every worker is done. -/
def Finished (segments : List InternalSegment) (state : MixedState) : Prop :=
  ∀ worker < segments.length, (state.phase worker).isDone = true

/-- In a finished pipeline without a failure or an exit every worker has completed, and
nothing was cancelled. -/
theorem Coordinated.completed (coordinated : Coordinated plan segments state) (finished : Finished segments state)
    (successful : ∀ outcome ∈ outcomes segments state, isFatal outcome = false) :
    state.cancelled = false ∧ ∀ (worker : Nat) (segment : InternalSegment), segments[worker]? = some segment →
      HasCompleted plan segment (state.phase worker) := by
  obtain ⟨placed, orderly, _, caused⟩ := coordinated
  have quiet : state.isEnding = false := by
    by_contra ends
    obtain ⟨worker, cause⟩ := caused.cause (by simpa using ends)
    have inside : worker < segments.length := by
      by_contra beyond
      rw [orderly.outside worker (by omega)] at cause
      contradiction
    have back := finished worker inside
    cases place : state.phase worker with
    | done outcome =>
      have listed : outcome ∈ outcomes segments state :=
        mem_outcomes.mpr ⟨worker, _, List.getElem?_eq_getElem inside, by rw [place]; rfl⟩
      rw [place] at cause
      exact absurd cause (by rw [Bool.not_eq_true]; exact successful outcome listed)
    | arriving | asleep | woken | atStage | running | advanced | cancelledAfterTurn | draining | drainFailed | exiting
      | returned | panicked =>
      rw [place] at back
      contradiction
  refine ⟨?_, ?_⟩
  · simp only [MixedState.isEnding, Bool.or_eq_false_iff] at quiet
    exact quiet.1.2
  · intro worker segment known
    have back := finished worker (lt_of_known known)
    have here := placed worker segment known
    have active := caused.givenUp worker
    cases place : state.phase worker with
    | done outcome =>
      have listed : outcome ∈ outcomes segments state := mem_outcomes.mpr ⟨worker, segment, known, by rw [place]; rfl⟩
      have lasting := successful outcome listed
      rw [place] at here active
      cases outcome with
      | error failure => contradiction
      | ok result =>
        cases result with
        | completed _ statuses checks =>
          obtain ⟨rfl, statusesTo, fit⟩ := here
          exact ⟨statuses, checks, rfl, statusesTo, fit⟩
        | exit ordinal index code => contradiction
        | stoppedByExit ordinal | skipped ordinal =>
          rw [active rfl] at quiet
          contradiction
    | arriving | asleep | woken | atStage | running | advanced | cancelledAfterTurn | draining | drainFailed | exiting
      | returned | panicked =>
      rw [place] at back
      contradiction

end Results

/-! ## The assertions hold -/

section Merging

variable {plan : List PlannedResolution} {topology : MixedTopology} {state : MixedState} {results : List Outcome}

theorem isErr_of_leading {exitStage : Option Nat} {outcome : Outcome} (leads : isLeading exitStage outcome = true) :
    isErr outcome = true := by
  cases outcome with
  | error => rfl
  | ok result => contradiction

/-- The selected result is a failure. -/
theorem failureIndex_some {index : Nat} (selected : failureIndex results = some index) :
    ∃ failure, results[index]? = some (.error failure) := by
  have failed : ∃ outcome, results[index]? = some outcome ∧ isErr outcome = true := by
    rcases Option.or_eq_some_iff.mp selected with leading | ⟨_, first⟩
    · obtain ⟨bound, leads, _⟩ := List.findIdx?_eq_some_iff_getElem.mp leading
      exact ⟨_, List.getElem?_eq_getElem bound, isErr_of_leading leads⟩
    · split at first
      · obtain ⟨bound, failed, _⟩ := List.findIdx?_eq_some_iff_getElem.mp first
        exact ⟨_, List.getElem?_eq_getElem bound, failed⟩
      · contradiction
  obtain ⟨outcome, found, failed⟩ := failed
  cases outcome with
  | error failure => exact ⟨failure, found⟩
  | ok result => contradiction

/-- Without an exit no failure is passed over. -/
theorem failureIndex_none (selected : failureIndex results = none) (exits : ∀ result ∈ results, isExit result = false) :
    ∀ result ∈ results, isFatal result = false := by
  have stage : requestedExitStage results = none := by
    unfold requestedExitStage
    rw [List.findSome?_eq_none_iff]
    intro result listed
    have stays := exits result listed
    cases result with
    | error => rfl
    | ok result =>
      cases result with
      | exit => contradiction
      | completed | stoppedByExit | skipped => rfl
  unfold failureIndex at selected
  rw [stage] at selected
  obtain ⟨_, none⟩ := Option.or_eq_none_iff.mp selected
  have good := List.findIdx?_eq_none_iff.mp none
  intro result listed
  have stays := exits result listed
  have succeeded := good result listed
  cases result with
  | error failure => contradiction
  | ok result =>
    cases result with
    | exit => contradiction
    | completed | stoppedByExit | skipped => rfl

/-- What merging all results comes to when their statuses fit into the slots. -/
theorem merge_fold (results : List Outcome) {merged : Merged} {slots : StageStatusSlots}
    (filled : merged.slots.completeAll (results.flatMap statusesOf) = .ok slots) :
    ∃ exit, results.foldlM mergeResult merged =
        .ok ⟨slots, merged.deferredChecks ++ results.flatMap checksOf, exit⟩ ∧
      (exit = none → merged.requestedExit = none ∧ ∀ result ∈ results, isExit result = false) := by
  induction results generalizing merged with
  | nil =>
    cases filled
    refine ⟨merged.requestedExit, ?_, fun none => ⟨none, by simp⟩⟩
    simp only [foldlM_nil, flatMap_nil, append_nil]
    rfl
  | cons result results ih =>
    rw [flatMap_cons] at filled
    -- A result without statuses leaves the slots and the checks as they are.
    have passed : ∀ {next : Merged}, mergeResult merged result = .ok next → next.slots = merged.slots →
        next.deferredChecks = merged.deferredChecks → statusesOf result = [] → checksOf result = [] →
        (next.requestedExit = none → merged.requestedExit = none ∧ isExit result = false) →
        ∃ exit, (result :: results).foldlM mergeResult merged =
            .ok ⟨slots, merged.deferredChecks ++ (result :: results).flatMap checksOf, exit⟩ ∧
          (exit = none → merged.requestedExit = none ∧ ∀ other ∈ result :: results, isExit other = false) := by
      intro next merges sameSlots sameChecks noStatuses noChecks stays
      rw [noStatuses, nil_append, ← sameSlots] at filled
      obtain ⟨exit, folded, silent⟩ := ih filled
      refine ⟨exit, ?_, ?_⟩
      · rw [foldlM_cons, merges, flatMap_cons, noChecks, nil_append, ← sameChecks]
        exact folded
      · intro none
        obtain ⟨before, others⟩ := silent none
        obtain ⟨first, here⟩ := stays before
        exact ⟨first, by simpa [here] using others⟩
    cases result with
    | error => exact passed rfl rfl rfl rfl rfl (fun none => ⟨none, rfl⟩)
    | ok result =>
      cases result with
      | completed ordinal statuses checks =>
        rw [completeAll_append] at filled
        obtain ⟨next, first, filled⟩ := bind_ok filled
        have first : merged.slots.completeAll statuses = .ok next := first
        let following : Merged :=
          { merged with slots := next, deferredChecks := merged.deferredChecks ++ checks }
        have rest : following.slots.completeAll (results.flatMap statusesOf) = .ok slots := filled
        obtain ⟨exit, folded, silent⟩ := ih rest
        refine ⟨exit, ?_, ?_⟩
        · have merges : mergeResult merged (.ok (.completed ordinal statuses checks)) = .ok following := by
            simp only [mergeResult, first]
            rfl
          rw [foldlM_cons, merges, flatMap_cons, ← append_assoc]
          exact folded
        · intro none
          obtain ⟨before, others⟩ := silent none
          exact ⟨before, by simpa [isExit] using others⟩
      | exit ordinal index code => exact passed rfl rfl rfl rfl rfl (fun impossible => by contradiction)
      | stoppedByExit | skipped => exact passed rfl rfl rfl rfl rfl (fun none => ⟨none, rfl⟩)

theorem waitEach_indices {external : External} {children : List Nat} {statuses : List (Nat × Status)}
    (waited : (children.mapM fun index => do
      let status ← external.wait index
      .ok (index, status)) = Except.ok statuses) : statuses.map fst = children := by
  induction children generalizing statuses with
  | nil =>
    cases waited
    rfl
  | cons child children ih =>
    rw [mapM_cons] at waited
    obtain ⟨entry, first, waited⟩ := bind_ok waited
    obtain ⟨_, _, named⟩ := bind_ok first
    obtain ⟨others, rest, waited⟩ := bind_ok waited
    cases named
    cases waited
    rw [map_cons, ih rest]

theorem waitChildren_indices {external : External} {children : List Nat} {statuses : List (Nat × Status)}
    {duration : Duration} (waited : waitChildren external children = .ok (statuses, duration)) :
    statuses.map fst = children := by
  unfold waitChildren at waited
  obtain ⟨_, each, waited⟩ := bind_ok waited
  obtain ⟨_, _, waited⟩ := bind_ok waited
  cases waited
  exact waitEach_indices each

theorem runChecks_ok {slots : StageStatusSlots} {checks : List DeferredCheck}
    (full : ∀ check ∈ checks, ∃ status, slots.slots[check.upstreamStage]? = some (some status)) :
    ∃ result, runChecks slots checks = .ok result := by
  induction checks with
  | nil => exact ⟨none, rfl⟩
  | cons check checks ih =>
    obtain ⟨status, found⟩ := full check (by simp)
    obtain ⟨result, rest⟩ := ih (fun other later => full other (by simp [later]))
    have upstream : slots.completed check.upstreamStage = .ok status := by
      simp [StageStatusSlots.completed, found]
    have unfolded : runChecks slots (check :: checks) =
        if status.isOk then runChecks slots checks
        else .ok (some (.unsuccessfulStatus status check.checkStage)) := by
      simp only [runChecks, upstream]
      rfl
    rw [unfolded]
    split
    · exact ⟨result, rest⟩
    · exact ⟨_, rfl⟩

/-- Internal and external stages together are all stages. -/
theorem stages_perm (found : TopologyOf plan topology) :
    (topology.internalSegments.flatMap InternalSegment.stages ++ topology.externalIndices).Perm
      (List.range plan.length) := by
  rw [found.internals, found.externals, range_eq_range']
  exact indicesOf_perm 0 plan

/-- Entries for distinct stages of the plan fit into new slots. -/
theorem fill {stageCount : Nat} {entries : List (Nat × Status)} {rest : List Nat}
    (stages : (entries.map fst ++ rest).Subperm (List.range stageCount)) :
    ∃ slots, (StageStatusSlots.new stageCount).completeAll entries = .ok slots ∧
      Filled (.new stageCount) entries slots := by
  have inside : ∀ index ∈ entries.map fst, index < stageCount := by
    intro index listed
    exact mem_range.mp (stages.subset (by simp [listed]))
  apply completeAll_filled
  · intro entry listed
    exact new_pending (inside entry.1 (mem_map_of_mem listed))
  · obtain ⟨_, perm, sublist⟩ := stages
    have distinct : (entries.map fst ++ rest).Nodup := perm.nodup_iff.mp (sublist.nodup nodup_range)
    exact (nodup_append.mp distinct).1

/-- The results of the workers fit into new slots, in whatever order they are merged. -/
theorem fill_results (found : TopologyOf plan topology) (placed : AllPlaced plan topology.internalSegments state)
    (same : results.Perm (outcomes topology.internalSegments state)) :
    ∃ slots, (StageStatusSlots.new plan.length).completeAll (results.flatMap statusesOf) = .ok slots ∧
      Filled (.new plan.length) (results.flatMap statusesOf) slots := by
  have perm : ((results.flatMap statusesOf).map fst).Perm
      (((outcomes topology.internalSegments state).flatMap statusesOf).map fst) :=
    (same.flatMap_right statusesOf).map fst
  have part : (((results.flatMap statusesOf).map fst) ++ []).Subperm (List.range plan.length) := by
    rw [append_nil]
    exact perm.subperm.trans ((outcomes_sublist placed).subperm.trans
      ((sublist_append_left _ _).subperm.trans (stages_perm found).subperm))
  exact fill part

/-- With the statuses of the external stages every slot is filled, each once. -/
theorem fill_all (found : TopologyOf plan topology)
    (completed : ∀ (worker : Nat) (segment : InternalSegment), topology.internalSegments[worker]? = some segment →
      HasCompleted plan segment (state.phase worker))
    (same : results.Perm (outcomes topology.internalSegments state)) {statuses : List (Nat × Status)}
    (indices : statuses.map fst = topology.externalIndices) :
    ((results.flatMap statusesOf ++ statuses).map fst).Perm (List.range plan.length) ∧
    ∃ slots, (StageStatusSlots.new plan.length).completeAll (results.flatMap statusesOf ++ statuses) = .ok slots ∧
      slots.slots.length = plan.length ∧ ∀ index < plan.length, ∃ status, slots.slots[index]? = some (some status) := by
  have internals : ((results.flatMap statusesOf).map fst).Perm
      (topology.internalSegments.flatMap InternalSegment.stages) := by
    rw [← outcomes_all completed]
    exact (same.flatMap_right statusesOf).map fst
  have perm : ((results.flatMap statusesOf ++ statuses).map fst).Perm (List.range plan.length) := by
    rw [map_append, indices]
    exact (internals.append_right _).trans (stages_perm found)
  have part : ((results.flatMap statusesOf ++ statuses).map fst ++ []).Subperm (List.range plan.length) := by
    rw [append_nil]
    exact perm.subperm
  obtain ⟨slots, filled, length, entered, _⟩ := fill part
  refine ⟨perm, slots, filled, ?_, ?_⟩
  · rw [length]
    exact length_replicate
  · intro index inside
    obtain ⟨entry, listed, same⟩ := mem_map.mp (perm.mem_iff.mpr (mem_range.mpr inside))
    exact ⟨entry.2, by rw [← same]; exact entered entry listed⟩

/-- With all slots filled neither a check nor the aggregation panics over a slot. -/
theorem conclude_asserted {slots : StageStatusSlots} {checks : List DeferredCheck} {stageCount : Nat}
    (length : slots.slots.length = stageCount)
    (full : ∀ index < stageCount, ∃ status, slots.slots[index]? = some (some status))
    (fit : ∀ check ∈ checks, check.upstreamStage < stageCount) (pipefail : Bool) (duration : Duration) :
    (∃ result, conclude slots checks pipefail duration = .ok result) ∨
      ∃ message, conclude slots checks pipefail duration = .error (.aggregate message) := by
  have upstream : ∀ check ∈ checks.mergeSort fun first second => first.checkStage ≤ second.checkStage,
      ∃ status, slots.slots[check.upstreamStage]? = some (some status) := by
    intro check listed
    exact full _ (fit check (mem_mergeSort.mp listed))
  obtain ⟨checked, ran⟩ := runChecks_ok upstream
  obtain ⟨statuses, all, _⟩ := intoStatuses_full length full
  unfold conclude
  rw [ran]
  cases checked with
  | some => exact .inl ⟨_, rfl⟩
  | none =>
    simp only [asserted, all]
    cases aggregated : aggregateStatuses statuses pipefail duration with
    | ok status =>
      left
      exact ⟨.ok (.status status), by simp [bind, Except.bind, aggregated]⟩
    | error message =>
      right
      exact ⟨message, by simp [bind, Except.bind, aggregated]⟩

/-- The checks of workers that fit look at stages of the plan. -/
theorem checksOf_inside {segments : List InternalSegment} (placed : AllPlaced plan segments state)
    (same : results.Perm (outcomes segments state)) :
    ∀ check ∈ results.flatMap checksOf, check.upstreamStage < plan.length := by
  intro check listed
  obtain ⟨outcome, member, checked⟩ := mem_flatMap.mp listed
  obtain ⟨worker, segment, known, back⟩ := mem_outcomes.mp (same.mem_iff.mp member)
  have fits := outcomeFits_of_placed (placed worker segment known) back
  cases outcome with
  | error failure => contradiction
  | ok result =>
    cases result with
    | completed ordinal statuses checks =>
      obtain ⟨path, upstream⟩ := fits.2.2 check checked
      by_contra beyond
      rw [List.getElem?_eq_none (by omega)] at upstream
      contradiction
    | exit | stoppedByExit | skipped => contradiction

/-- In whatever way the workers end, merging their results fails no assertion on slots. -/
theorem Coordinated.mergeSorted_asserted (found : TopologyOf plan topology)
    (coordinated : Coordinated plan topology.internalSegments state)
    (finished : Finished topology.internalSegments state) (pipefail : Bool) (external : External)
    (same : results.Perm (outcomes topology.internalSegments state)) :
    let merged := mergeSorted plan.length pipefail (remainingChildren topology.externalIndices state) external results
    (∃ result, merged = .ok result) ∨ ∃ message, merged = .error (.aggregate message) := by
  unfold mergeSorted
  cases selected : failureIndex results with
  | some =>
    obtain ⟨_, failed⟩ := failureIndex_some selected
    simp only [failed]
    exact .inl ⟨_, rfl⟩
  | none =>
    obtain ⟨slots, filled, _⟩ := fill_results found coordinated.placed same
    let start : Merged := ⟨.new plan.length, [], none⟩
    have fromStart : start.slots.completeAll (results.flatMap statusesOf) = .ok slots := filled
    obtain ⟨exit, folded, silent⟩ := merge_fold results fromStart
    have merges : results.foldlM mergeResult ⟨.new plan.length, [], none⟩ =
        .ok ⟨slots, results.flatMap checksOf, exit⟩ := folded
    simp only [merges]
    cases exit with
    | some =>
      cases terminated : external.terminate with
      | ok | error => exact .inl ⟨_, rfl⟩
    | none =>
      -- Nobody asked for an exit, so the workers have all completed.
      have successful : ∀ outcome ∈ outcomes topology.internalSegments state, isFatal outcome = false := by
        intro outcome listed
        exact failureIndex_none selected (silent rfl).2 outcome (same.mem_iff.mpr listed)
      obtain ⟨active, completed⟩ := coordinated.completed finished successful
      have children : remainingChildren topology.externalIndices state = topology.externalIndices := by
        simp [remainingChildren, active]
      rw [children]
      cases waited : waitChildren external topology.externalIndices with
      | error => exact .inl ⟨_, rfl⟩
      | ok pair =>
        obtain ⟨statuses, duration⟩ := pair
        obtain ⟨_, all, filledAll, length, full⟩ := fill_all found completed same (waitChildren_indices waited)
        rw [completeAll_append, filled] at filledAll
        have finalSlots : slots.completeAll statuses = .ok all := filledAll
        have concluded := conclude_asserted length full (checksOf_inside coordinated.placed same) pipefail duration
        show (∃ result, (asserted (slots.completeAll statuses) >>= fun slots =>
            conclude slots (results.flatMap checksOf) pipefail duration) = .ok result) ∨
          ∃ message, (asserted (slots.completeAll statuses) >>= fun slots =>
            conclude slots (results.flatMap checksOf) pipefail duration) = .error (.aggregate message)
        rw [finalSlots]
        exact concluded

theorem no_slot_panic {result : Except Panic (Except MergeError ChainStep)}
    (asserted : (∃ value, result = .ok value) ∨ ∃ message, result = .error (.aggregate message)) :
    result ≠ .error .selectedNoFailure ∧ ∀ assertion, result ≠ .error (.slot assertion) := by
  rcases asserted with ⟨_, rfl⟩ | ⟨_, rfl⟩
  · exact ⟨by simp, by simp⟩
  · exact ⟨by simp, by simp⟩

/-- What every schedule of the workers of a mixed plan keeps to.

Stages are executed in source order and by one worker at a time, after all stages of the
segments before its own.  A worker sleeps only for a turn that is still to come, some
worker can always take a step until all are done, and the steps are bounded.  When all
are done no assertion on the slots fails, and without a failure or an exit every stage of
the plan has exactly one status. -/
theorem mixed_coordination_safe (plan : List PlannedResolution) (topology : MixedTopology)
    (mixed : mixedTopology plan = some topology) :
    (∀ state, (workers plan topology.internalSegments).Reachable state →
      state.executed <+: indicesOf PlannedResolution.isInternal 0 plan ∧
      (∀ first second, (state.phase first).holdsLock = true → (state.phase second).holdsLock = true →
        first = second) ∧
      (∀ worker segment, topology.internalSegments[worker]? = some segment →
        (state.phase worker).holdsLock = true → state.executed =
          (topology.internalSegments.take worker).flatMap InternalSegment.stages ++
            turnStages segment (state.phase worker)) ∧
      (∀ worker, state.phase worker = .asleep → state.stopped = false ∧ state.nextSegment < worker) ∧
      ((∃ worker < topology.internalSegments.length, (state.phase worker).isDone = false) →
        ∃ after, Step plan topology.internalSegments state after)) ∧
    (∀ steps wakes last, (workers plan topology.internalSegments).Path .initial steps wakes last →
      steps ≤ stepsLeft topology.internalSegments .initial + wakes) ∧
    (∀ state, (workers plan topology.internalSegments).Reachable state →
      Finished topology.internalSegments state → ∀ pipefail external,
      (mergeResults plan.length pipefail (remainingChildren topology.externalIndices state) external
        (outcomes topology.internalSegments state) ≠ .error .selectedNoFailure) ∧
      (∀ assertion, mergeResults plan.length pipefail (remainingChildren topology.externalIndices state) external
        (outcomes topology.internalSegments state) ≠ .error (.slot assertion)) ∧
      ((∀ outcome ∈ outcomes topology.internalSegments state, isFatal outcome = false) →
        ∀ statuses duration,
          waitChildren external (remainingChildren topology.externalIndices state) = .ok (statuses, duration) →
          let entries := (outcomes topology.internalSegments state).flatMap statusesOf ++ statuses
          (entries.map fst).Perm (List.range plan.length) ∧
            ∃ slots all, (StageStatusSlots.new plan.length).completeAll entries = .ok slots ∧
              slots.intoStatuses = .ok all ∧ all.length = plan.length)) := by
  have found := mixedTopology_spec mixed
  have invariant : ∀ state, (workers plan topology.internalSegments).Reachable state →
      Coordinated plan topology.internalSegments state :=
    fun state reachable => (coordinated_inductive found).reachable reachable
  refine ⟨?_, ?_, ?_⟩
  · intro state reachable
    have coordinated := invariant state reachable
    refine ⟨?_, ?_, coordinated.history.during, ?_, ?_⟩
    · rw [← found.internals]
      exact coordinated.history.ordered
    · intro first second firstHolds secondHolds
      have one := ((coordinated.orderly.fits first).holding firstHolds).2.1
      have other := ((coordinated.orderly.fits second).holding secondHolds).2.1
      omega
    · intro worker asleep
      exact (coordinated.orderly.fits worker).asleep asleep
    · rintro ⟨_, inside, unfinished⟩
      exact coordinated.steps found inside unfinished
  · intro steps wakes last path
    exact paths_bounded found path
  · intro state reachable finished pipefail external
    have coordinated := invariant state reachable
    have asserted := coordinated.mergeSorted_asserted found finished pipefail external
      (mergeSort_perm (outcomes topology.internalSegments state) fun first second =>
        sortKey first ≤ sortKey second)
    obtain ⟨selected, slotted⟩ := no_slot_panic asserted
    refine ⟨selected, slotted, ?_⟩
    intro successful statuses duration waited
    obtain ⟨active, completed⟩ := coordinated.completed finished successful
    have indices := waitChildren_indices waited
    rw [show remainingChildren topology.externalIndices state = topology.externalIndices by
      simp [remainingChildren, active]] at indices
    obtain ⟨perm, slots, filled, length, full⟩ := fill_all found completed (List.Perm.refl _) indices
    obtain ⟨all, into, same⟩ := intoStatuses_full length full
    refine ⟨perm, slots, all, filled, into, ?_⟩
    rw [← length, ← same, length_map]

theorem mixed_coordination_safe_check :
    mixedTopology [.external ⟨[47]⟩, .internal "check"] = some ⟨[⟨0, 1, 2⟩], [0]⟩ ∧
      ∃ after, Step [.external ⟨[47]⟩, .internal "check"] [⟨0, 1, 2⟩] .initial after := by
  have mixed : mixedTopology [.external ⟨[47]⟩, .internal "check"] = some ⟨[⟨0, 1, 2⟩], [0]⟩ := by decide
  have start : (workers [.external ⟨[47]⟩, .internal "check"] [⟨0, 1, 2⟩]).Reachable .initial :=
    ⟨.initial, 0, 0, rfl, .refl _⟩
  exact ⟨mixed, ((mixed_coordination_safe _ _ mixed).1 _ start).2.2.2.2 ⟨0, by decide, rfl⟩⟩

end Merging

end Opaal.Runtime.Mixed
