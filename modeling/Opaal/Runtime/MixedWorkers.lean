import Mathlib.Logic.Function.Basic
import Opaal.Machine.System
import Opaal.Runtime.MixedPlan

/-!
# The workers of a mixed pipeline

Each internal segment is run by a worker of its own.  Workers take turns under one lock:
a counter says whose turn it is, a flag says that no further turn will come, and a
condition variable wakes those that sleep until either changes.  Cancellation is a flag
outside the lock that any worker may raise.

A worker is modelled by the place it has reached; every step is what it does up to the
next point at which another worker can be seen.  What a stage or a drain comes to is left
open.
-/

namespace Opaal.Runtime.Mixed

/-! ## Results -/

/-- Why a stage or a drain did not succeed. -/
inductive Interrupt where
  | streamCancelled
  | other (message : String)
deriving DecidableEq

structure DeferredCheck where
  checkStage : Nat
  upstreamStage : Nat
deriving DecidableEq

structure MixedSegmentFailure where
  stageIndex : Nat
  triggered : Bool
  interrupt : Interrupt
deriving DecidableEq

inductive MixedSegmentResult where
  | completed (ordinal : Nat) (statuses : List (Nat × Status)) (deferredChecks : List DeferredCheck)
  | exit (ordinal stageIndex : Nat) (code : UInt8)
  | stoppedByExit (ordinal : Nat)
  | skipped (ordinal : Nat)
deriving DecidableEq

def MixedSegmentResult.ordinal : MixedSegmentResult → Nat
  | .completed ordinal _ _ | .exit ordinal _ _ | .stoppedByExit ordinal | .skipped ordinal => ordinal

abbrev Outcome := Except MixedSegmentFailure MixedSegmentResult

/-- A failure and whether another one had begun cancellation before it. -/
def segmentFailure (stageIndex : Nat) (interrupt : Interrupt) (cancellationWasActive cancelled : Bool) :
    MixedSegmentFailure where
  stageIndex := stageIndex
  triggered := cancellationWasActive || (cancelled && decide (interrupt = .streamCancelled))
  interrupt := interrupt

/-! ## Places and states -/

/-- The place a worker has reached in its segment. -/
inductive Phase where
  /-- Before it asks for the lock for the first time. -/
  | arriving
  /-- Waiting on the condition variable. -/
  | asleep
  /-- Woken, before it has the lock again. -/
  | woken
  /-- At the head of its loop, with the lock. -/
  | atStage (index : Nat) (statuses : List (Nat × Status)) (checks : List DeferredCheck)
  /-- Executing a stage, with the lock. -/
  | running (index : Nat) (statuses : List (Nat × Status)) (checks : List DeferredCheck)
  /-- After its turn, without the lock. -/
  | advanced (statuses : List (Nat × Status)) (checks : List DeferredCheck)
  /-- After its turn, having seen that the pipeline is cancelled. -/
  | cancelledAfterTurn
  | draining (statuses : List (Nat × Status)) (checks : List DeferredCheck)
  | drainFailed (interrupt : Interrupt)
  /-- Having asked for an exit, before it cancels the pipeline. -/
  | exiting (index : Nat) (code : UInt8)
  /-- Back from its segment, before an untriggered failure cancels the pipeline. -/
  | returned (outcome : Outcome)
  | done (outcome : Outcome)
  | panicked
deriving DecidableEq

namespace Phase

def isWaiting : Phase → Bool
  | .arriving | .woken => true
  | _ => false

def holdsLock : Phase → Bool
  | .atStage _ _ _ | .running _ _ _ => true
  | _ => false

/-- Done with its turn, or without one. -/
def isPast : Phase → Bool
  | .arriving | .asleep | .woken | .atStage _ _ _ | .running _ _ _ => false
  | _ => true

def wake : Phase → Phase
  | .asleep => .woken
  | phase => phase

def isDone : Phase → Bool
  | .done _ => true
  | _ => false

/-- The outcome of a worker that is back from its segment. -/
def outcome : Phase → Option Outcome
  | .returned outcome | .done outcome => some outcome
  | _ => none

end Phase

structure MixedState where
  /-- The worker that holds the lock. -/
  lock : Option Nat
  nextSegment : Nat
  stopped : Bool
  /-- The segment that asked for an exit. -/
  requestedExit : Option Nat
  cancelled : Bool
  /-- The stages executed so far. -/
  executed : List Nat
  phase : Nat → Phase

namespace MixedState

def initial : MixedState := ⟨none, 0, false, none, false, [], fun _ => .arriving⟩

def move (state : MixedState) (worker : Nat) (phase : Phase) : MixedState :=
  { state with phase := Function.update state.phase worker phase }

def notifyAll (state : MixedState) : MixedState := { state with phase := fun worker => (state.phase worker).wake }

/-- No further turn will come, and every sleeper is told. -/
def halt (state : MixedState) : MixedState := { state with stopped := true }.notifyAll

def unlock (state : MixedState) : MixedState := { state with lock := none }

end MixedState

/-- Whether a stage checks the external stage right before its segment. -/
def isDeferredCheck (plan : List PlannedResolution) (segment : InternalSegment) (index : Nat) : Bool :=
  plan[index]? = some (.internal "check") && index = segment.start && decide (0 < index) &&
    match plan[index - 1]? with
    | some (.external _) => true
    | _ => false

def deferredChecks (plan : List PlannedResolution) (segment : InternalSegment) (index : Nat) : List DeferredCheck :=
  if isDeferredCheck plan segment index then [⟨index, index - 1⟩] else []

/-! ## Steps -/

section Steps

variable (plan : List PlannedResolution) (segments : List InternalSegment)

/-- One step of one worker. -/
inductive Step : MixedState → MixedState → Prop where
  | skip {state : MixedState} {worker : Nat} {segment : InternalSegment} (known : segments[worker]? = some segment)
      (waiting : (state.phase worker).isWaiting = true) (free : state.lock = none) (stopped : state.stopped = true) :
      Step state (state.move worker (.returned (.ok (.skipped segment.ordinal))))
  | sleep {state : MixedState} {worker : Nat} {segment : InternalSegment} (known : segments[worker]? = some segment)
      (waiting : (state.phase worker).isWaiting = true) (free : state.lock = none) (open_ : state.stopped = false)
      (other : state.nextSegment ≠ segment.ordinal) : Step state (state.move worker .asleep)
  | enter {state : MixedState} {worker : Nat} {segment : InternalSegment} (known : segments[worker]? = some segment)
      (waiting : (state.phase worker).isWaiting = true) (free : state.lock = none) (open_ : state.stopped = false)
      (turn : state.nextSegment = segment.ordinal) :
      Step state (MixedState.move { state with lock := some worker } worker (.atStage segment.start [] []))
  | observeCancellation {state : MixedState} {worker index : Nat} {segment : InternalSegment}
      {statuses : List (Nat × Status)} {checks : List DeferredCheck} (known : segments[worker]? = some segment)
      (place : state.phase worker = .atStage index statuses checks) (inside : index < segment.stop)
      (cancelled : state.cancelled = true) :
      Step state (state.halt.unlock.move worker (.returned (.ok (.skipped segment.ordinal))))
  | execute {state : MixedState} {worker index : Nat} {segment : InternalSegment} {name : String}
      {statuses : List (Nat × Status)} {checks : List DeferredCheck} (known : segments[worker]? = some segment)
      (place : state.phase worker = .atStage index statuses checks) (inside : index < segment.stop)
      (active : state.cancelled = false) (resolution : plan[index]? = some (.internal name)) :
      Step state (MixedState.move { state with executed := state.executed ++ [index] } worker
        (.running index statuses checks))
  | misplaced {state : MixedState} {worker index : Nat} {segment : InternalSegment}
      {statuses : List (Nat × Status)} {checks : List DeferredCheck} (known : segments[worker]? = some segment)
      (place : state.phase worker = .atStage index statuses checks) (inside : index < segment.stop)
      (active : state.cancelled = false) (resolution : ∀ name, plan[index]? ≠ some (.internal name)) :
      Step state (state.unlock.move worker .panicked)
  | completeStage {state : MixedState} {worker index : Nat} {segment : InternalSegment}
      {statuses : List (Nat × Status)} {checks : List DeferredCheck} (known : segments[worker]? = some segment)
      (place : state.phase worker = .running index statuses checks) (status : Status) :
      Step state (state.move worker
        (.atStage (index + 1) (statuses ++ [(index, status)]) (checks ++ deferredChecks plan segment index)))
  | requestExit {state : MixedState} {worker index : Nat} {segment : InternalSegment}
      {statuses : List (Nat × Status)} {checks : List DeferredCheck} (known : segments[worker]? = some segment)
      (place : state.phase worker = .running index statuses checks) (code : UInt8) :
      Step state (MixedState.move { state with requestedExit := some segment.ordinal }.halt.unlock worker
        (.exiting index code))
  | failStage {state : MixedState} {worker index : Nat} {segment : InternalSegment}
      {statuses : List (Nat × Status)} {checks : List DeferredCheck} (known : segments[worker]? = some segment)
      (place : state.phase worker = .running index statuses checks) (interrupt : Interrupt) :
      Step state (state.halt.unlock.move worker
        (.returned (.error (segmentFailure index interrupt false state.cancelled))))
  | passTurn {state : MixedState} {worker index : Nat} {segment : InternalSegment}
      {statuses : List (Nat × Status)} {checks : List DeferredCheck} (known : segments[worker]? = some segment)
      (place : state.phase worker = .atStage index statuses checks) (finished : segment.stop ≤ index) :
      Step state (MixedState.move { state with nextSegment := state.nextSegment + 1 }.notifyAll.unlock worker
        (.advanced statuses checks))
  | seeCancellation {state : MixedState} {worker : Nat} {segment : InternalSegment}
      {statuses : List (Nat × Status)} {checks : List DeferredCheck} (known : segments[worker]? = some segment)
      (place : state.phase worker = .advanced statuses checks) (cancelled : state.cancelled = true) :
      Step state (state.move worker .cancelledAfterTurn)
  | drain {state : MixedState} {worker : Nat} {segment : InternalSegment}
      {statuses : List (Nat × Status)} {checks : List DeferredCheck} (known : segments[worker]? = some segment)
      (place : state.phase worker = .advanced statuses checks) (active : state.cancelled = false) :
      Step state (state.move worker (.draining statuses checks))
  | giveUp {state : MixedState} {worker : Nat} {segment : InternalSegment} (known : segments[worker]? = some segment)
      (place : state.phase worker = .cancelledAfterTurn) (free : state.lock = none) :
      Step state (state.move worker (.returned (.ok
        (if state.requestedExit.any (segment.ordinal < ·) then .stoppedByExit segment.ordinal
          else .skipped segment.ordinal))))
  | finishDrain {state : MixedState} {worker : Nat} {segment : InternalSegment}
      {statuses : List (Nat × Status)} {checks : List DeferredCheck} (known : segments[worker]? = some segment)
      (place : state.phase worker = .draining statuses checks) :
      Step state (state.move worker (.returned (.ok (.completed segment.ordinal statuses checks))))
  | failDrain {state : MixedState} {worker : Nat} {segment : InternalSegment}
      {statuses : List (Nat × Status)} {checks : List DeferredCheck} (known : segments[worker]? = some segment)
      (place : state.phase worker = .draining statuses checks) (interrupt : Interrupt) :
      Step state (state.move worker (.drainFailed interrupt))
  | reportDrain {state : MixedState} {worker : Nat} {segment : InternalSegment} {interrupt : Interrupt}
      (known : segments[worker]? = some segment) (place : state.phase worker = .drainFailed interrupt)
      (free : state.lock = none) :
      Step state (state.halt.move worker (.returned
        (if state.requestedExit.any (segment.ordinal < ·) ∧ interrupt = .streamCancelled then
          .ok (.stoppedByExit segment.ordinal)
        else .error (segmentFailure (segment.stop - 1) interrupt false state.cancelled))))
  | cancelForExit {state : MixedState} {worker index : Nat} {segment : InternalSegment} {code : UInt8}
      (known : segments[worker]? = some segment) (place : state.phase worker = .exiting index code) :
      Step state (MixedState.move { state with cancelled := true } worker
        (.returned (.ok (.exit segment.ordinal index code))))
  | finish {state : MixedState} {worker : Nat} {segment : InternalSegment} {outcome : Outcome}
      (known : segments[worker]? = some segment) (place : state.phase worker = .returned outcome) :
      Step state (MixedState.move
        { state with
          cancelled := state.cancelled ||
            match outcome with
            | .error failure => !failure.triggered
            | .ok _ => false } worker (.done outcome))

/-- A sleeper may wake without having been told to. -/
inductive Spurious : MixedState → MixedState → Prop where
  | wake {state : MixedState} {worker : Nat} (asleep : state.phase worker = .asleep) :
      Spurious state (state.move worker .woken)

/-- All workers of a pipeline under every schedule. -/
def workers : Machine.System MixedState where
  initial state := state = .initial
  step := Step plan segments
  disturb := Spurious

end Steps

end Opaal.Runtime.Mixed
