import Mathlib.Algebra.GroupWithZero.Nat
import Mathlib.Data.List.Chain
import Opaal.Machine.Brackets
import Opaal.Artifact.Lifecycle

/-!
# The discipline of a run journal

The events of a journal are read as words of openings and closings: the boundaries of actions by
their node, the effects by everything that identifies them.  What the lifecycle admits is nested
in both, numbers its attempts, cleans up in the reverse order of registration after the last
action, ends once, and never admits more bytes than the policy.
-/

namespace Opaal.Workflow

open List

open Opaal.Json (Tree Members)
open Opaal.Machine
open JournalLifecycle

/-! ## Effects -/

/-- What identifies the effect of an event. -/
structure EffectRecord where
  node : Option String
  effect : Option String
  scope : Tree
  operation : Tree
  attempt : Option Nat
deriving DecidableEq

namespace EffectRecord

def ofPayload (payload : Tree) : EffectRecord where
  node := (payload.index "action_node_id").asStr
  effect := (payload.index "effect").asStr
  scope := payload.index "scope"
  operation := payload.index "operation"
  attempt := (payload.index "attempt").asU64

def admittedBytes (self : EffectRecord) : Nat := (self.operation.index "admitted_bytes").asU64.getD 0

/-- Only entropy and the standard streams transfer bytes. -/
def transferredBytes (self : EffectRecord) : Nat :=
  if isTransfer (self.operation.index "kind") then self.admittedBytes else 0

end EffectRecord

/-- Two descriptors of one operation differ in nothing but the fields of its result. -/
inductive SameOperation : Tree → Tree → Prop
  | intro {before after : Members} {fields : List String} (kind : before.get? "kind" = after.get? "kind")
      (known : resultFields ((before.get? "kind").bind Tree.asStr) = some fields)
      (others : ∀ name, name ∉ fields → before.get? name = after.get? name) :
      SameOperation (.object before) (.object after)

structure Closes (before after : EffectRecord) : Prop where
  node : after.node = before.node
  effect : after.effect = before.effect
  scope : after.scope = before.scope
  attempt : after.attempt = before.attempt
  operation : SameOperation before.operation after.operation
  admitted : after.admittedBytes ≤ before.admittedBytes

/-! ## Journals -/

def actionBoundary (event : Event) : Option (Option String ⊕ Option String) :=
  match event.kind with
  | "action-start" => some (.inl (event.payload.index "action_node_id").asStr)
  | "action-end" => some (.inr (event.payload.index "action_node_id").asStr)
  | _ => none

def effectBoundary (event : Event) : Option (EffectRecord ⊕ EffectRecord) :=
  match event.kind with
  | "effect-before" => some (.inl (.ofPayload event.payload))
  | "effect-after" => some (.inr (.ofPayload event.payload))
  | _ => none

def actions (events : List Event) : List (Option String ⊕ Option String) := events.filterMap actionBoundary

def effects (events : List Event) : List (EffectRecord ⊕ EffectRecord) := events.filterMap effectBoundary

def attempts (events : List Event) : List (Option Nat) :=
  (effects events).filterMap fun boundary => boundary.getLeft?.map EffectRecord.attempt

def cleanups (events : List Event) : List Tree :=
  (events.filter (·.kind = "cleanup")).map Event.payload

def cleanupOrdinals (events : List Event) : List (Option Nat) :=
  (cleanups events).map fun payload => (payload.index "ordinal").asU64

def cleanupResourceIds (events : List Event) : List (Option String) :=
  (cleanups events).map fun payload => (payload.index "resource_id").asStr

/-- The bytes of the transfers that were closed. -/
def closedBytes (events : List Event) : Nat :=
  ((effects events).filterMap fun boundary => boundary.getRight?.map EffectRecord.transferredBytes).sum

/-- The bytes the effects that are still open were admitted for. -/
def openBytes (events : List Event) : Nat := ((unclosed (effects events)).map EffectRecord.admittedBytes).sum

structure Disciplined (policy : Option Tree) (events : List Event) : Prop where
  actionsNested : Nested Eq (actions events) (unclosed (actions events))
  effectsNested : Nested Closes (effects events) (unclosed (effects events))
  attemptsCount : attempts events = (List.range (attempts events).length).map some
  noStartAfterCleanup : ∀ before cleanup after, events = before ++ cleanup :: after → cleanup.kind = "cleanup" →
    ∀ event ∈ after, event.kind ≠ "action-start" ∧ event.kind ≠ "effect-before"
  ordinalsDescend : ∃ ordinals : List Nat, cleanupOrdinals events = ordinals.map some ∧
    ordinals.IsChain (fun previous next => previous = next + 1) ∧
    ((∃ event ∈ events, event.kind = "terminal") → ∀ last ∈ ordinals.getLast?, last = 0)
  resourcesDistinct : ∃ ids : List String, cleanupResourceIds events = ids.map some ∧ ids.Nodup
  terminalLast : ∀ before terminal after, events = before ++ terminal :: after → terminal.kind = "terminal" →
    after = [] ∧ Balanced Eq (actions before) ∧ Balanced Closes (effects before)
  bytesBounded : ∀ before after accepted limit, events = before ++ after → policy = some accepted →
    (accepted.index "max_host_bytes").asU64 = some limit → closedBytes before + openBytes before ≤ limit

/-! ## One event -/

namespace OpenEffect

def toRecord (effect : OpenEffect) : EffectRecord :=
  ⟨some effect.actionNodeId, some effect.effect, effect.scope, effect.operation, some effect.attempt⟩

end OpenEffect

/-- What an event that is admitted does to the lifecycle. -/
inductive Admitted (state : JournalLifecycle) : Event → JournalLifecycle → Prop
  | actionStart {payload : Tree} {node : String} (running : state.cleanupStarted = false)
      (isNode : (payload.index "action_node_id").asStr = some node) :
      Admitted state ⟨"action-start", payload⟩
        { state with actionPhaseStarted := true, actionStack := node :: state.actionStack }
  | actionEnd {payload : Tree} {node : String} {outer : List String} (active : state.actionStack = node :: outer)
      (isNode : (payload.index "action_node_id").asStr = some node) :
      Admitted state ⟨"action-end", payload⟩ { state with actionStack := outer }
  | effectBefore {payload : Tree} {effect : OpenEffect} (running : state.cleanupStarted = false)
      (isRecord : .ofPayload payload = effect.toRecord) (next : effect.attempt = state.nextAttempt) :
      Admitted state ⟨"effect-before", payload⟩
        { state with nextAttempt := state.nextAttempt + 1, effectStack := effect :: state.effectStack }
  | effectAfter {payload : Tree} {effect : OpenEffect} {outer : List OpenEffect}
      (active : state.effectStack = effect :: outer)
      (closes : Closes effect.toRecord (.ofPayload payload)) :
      Admitted state ⟨"effect-after", payload⟩
        { state with
          hostBytes := state.hostBytes + (EffectRecord.ofPayload payload).transferredBytes
          effectStack := outer }
  | cleanup {payload outcome : Tree} {id : String} {ordinal : Nat}
      (isId : (payload.index "resource_id").asStr = some id) (fresh : id ∉ state.cleanupResourceIds)
      (isOrdinal : (payload.index "ordinal").asU64 = some ordinal)
      (follows : ∀ previous ∈ state.cleanupOrdinals.getLast?, previous = ordinal + 1) :
      Admitted state ⟨"cleanup", payload⟩
        { state with
          cleanupStarted := true
          cleanupResourceIds := insert id state.cleanupResourceIds
          cleanupOrdinals := state.cleanupOrdinals ++ [ordinal]
          cleanup := state.cleanup ++ [outcome] }
  | terminal {payload : Tree} (noAction : state.actionStack = []) (noEffect : state.effectStack = [])
      (complete : ∀ last ∈ state.cleanupOrdinals.getLast?, last = 0) :
      Admitted state ⟨"terminal", payload⟩ { state with terminal := true }
  | evidenceFailure {payload : Tree} : Admitted state ⟨"evidence-failure", payload⟩ state

/-! ### The identity of an operation -/

theorem kind_not_mem_resultFields {kind : Option String} {fields : List String}
    (known : resultFields kind = some fields) : "kind" ∉ fields := by
  unfold resultFields at known
  split at known <;> cases known <;> decide

theorem get?_clear {object : Members} {name : String} (fields : List String) (other : name ∉ fields) :
    Members.get? (fields.foldl (fun object field => .insert field .null object) object) name =
      object.get? name := by
  induction fields generalizing object with
  | nil => rfl
  | cons _ _ ih =>
    rw [mem_cons, not_or] at other
    rw [foldl_cons, ih other.2, Members.get?_insert_of_ne other.1]

theorem clearOperationResult_ok {value cleared : Tree} (passed : clearOperationResult value = .ok cleared) :
    ∃ (object : Members) (fields : List String), value = .object object ∧ resultFields ((object.get? "kind").bind Tree.asStr) = some fields ∧
      cleared = .object (fields.foldl (fun object field => Members.insert field .null object) object) := by
  unfold clearOperationResult at passed
  split at passed
  · cases passed
  · next object isObject =>
    split at passed
    · cases passed
    · next fields known =>
      exact ⟨object, fields, Tree.eq_object isObject, known, (Except.ok.inj passed).symm⟩

/-- A transfer is told by the kind, which no result overwrites. -/
theorem isTransfer_fields {object : Members} {fields : List String}
    (known : resultFields ((object.get? "kind").bind Tree.asStr) = some fields)
    (noTransfer : isTransfer (.index (.object object) "kind") = false) : "admitted_bytes" ∉ fields := by
  have plain : ¬ ((object.get? "kind").bind Tree.asStr = some "entropy" ∨
      (object.get? "kind").bind Tree.asStr = some "standard-stream") := by
    simp only [isTransfer, Tree.index, Tree.get?, Tree.asObject, Option.bind_some, Bool.or_eq_false_iff] at noTransfer
    cases held : object.get? "kind" with
    | none => simp
    | some => simpa [held] using noTransfer
  unfold resultFields at known
  split at known
  case h_6 heq => exact absurd (.inl heq) plain
  case h_7 heq => exact absurd (.inr heq) plain
  all_goals cases known <;> decide

theorem admitted_le_of_not_optionLess {before after : Option Nat} (bounded : optionLess before after = false) :
    after.getD 0 ≤ before.getD 0 := by
  cases before <;> cases after <;> simp_all [optionLess]

theorem sameOperationIdentity_true {before after : Tree} (same : sameOperationIdentity before after = .ok true) :
    SameOperation before after ∧
      (after.index "admitted_bytes").asU64.getD 0 ≤ (before.index "admitted_bytes").asU64.getD 0 := by
  unfold sameOperationIdentity at same
  split at same
  · cases same
  · next bounded =>
    obtain ⟨_, first, same⟩ := bind_ok same
    obtain ⟨_, second, same⟩ := bind_ok same
    obtain ⟨before, fields, rfl, known, rfl⟩ := clearOperationResult_ok first
    obtain ⟨after, others, rfl, knownAfter, rfl⟩ := clearOperationResult_ok second
    have cleared := Tree.object.inj (of_decide_eq_true (Except.ok.inj same))
    have kind : before.get? "kind" = after.get? "kind" := by
      rw [← get?_clear fields (kind_not_mem_resultFields known), cleared,
        get?_clear others (kind_not_mem_resultFields knownAfter)]
    rw [← kind, known] at knownAfter
    cases knownAfter
    have agree : ∀ name, name ∉ fields → before.get? name = after.get? name := by
      intro name other
      rw [← get?_clear fields other, cleared, get?_clear fields other]
    refine ⟨.intro kind known agree, ?_⟩
    by_cases transfer : isTransfer (.index (.object before) "kind") = true
    · rw [transfer, Bool.true_and, Bool.not_eq_true] at bounded
      exact admitted_le_of_not_optionLess bounded
    · rw [Bool.not_eq_true] at transfer
      have equal := agree "admitted_bytes" (isTransfer_fields known transfer)
      simp [Tree.index, Tree.get?, Tree.asObject, equal]

theorem sameEffect_true {effect : OpenEffect} {object : Members}
    (same : sameEffect effect object = .ok true) :
    Closes effect.toRecord (.ofPayload (.object object)) := by
  obtain ⟨node, isNode, same⟩ := bind_ok same
  split at same
  · cases same
  · next sameNode =>
    obtain ⟨_, isName, same⟩ := bind_ok same
    split at same
    · cases same
    · next sameName =>
      obtain ⟨scope, isScope, same⟩ := bind_ok same
      split at same
      · cases same
      · next sameScope =>
        obtain ⟨operation, isOperation, same⟩ := bind_ok same
        obtain ⟨_, isIdentical, same⟩ := bind_ok same
        split at same
        · cases same
        · next sameOperation =>
          obtain ⟨attempt, isAttempt, same⟩ := bind_ok same
          have sameAttempt := of_decide_eq_true (Except.ok.inj same)
          rw [Bool.not_eq_true, Bool.not_eq_false'] at sameOperation
          subst sameOperation
          have identity := sameOperationIdentity_true isIdentical
          rw [← required_index isOperation] at identity
          exact {
            node := by rw [EffectRecord.ofPayload, requiredString_index isNode, ← not_not.mp sameNode]; rfl
            effect := by rw [EffectRecord.ofPayload, requiredString_index isName, ← not_not.mp sameName]; rfl
            scope := by rw [EffectRecord.ofPayload, required_index isScope, ← not_not.mp sameScope]; rfl
            attempt := by rw [EffectRecord.ofPayload, requiredU64_index isAttempt, ← sameAttempt]; rfl
            operation := identity.1
            admitted := identity.2 }

/-! ### The kinds of events -/

variable {state next : JournalLifecycle} {object : Members}

theorem refuseIf_bind_ok {α : Type} {refused : Bool} {message : String} {rest : Unit → Checked α} {value : α}
    (passed : (refuseIf refused message >>= rest) = .ok value) : refused = false ∧ rest () = .ok value := by
  obtain ⟨_, check, passed⟩ := bind_ok passed
  exact ⟨refuseIf_ok check, passed⟩

theorem isEmpty_of_not {α : Type} {stack : List α} (closed : (!stack.isEmpty) = false) : stack = [] := by
  cases stack with
  | nil => rfl
  | cons => cases closed

theorem actionStart_admitted (passed : state.actionStart object = .ok next) :
    Admitted state ⟨"action-start", .object object⟩ next := by
  obtain ⟨running, passed⟩ := refuseIf_bind_ok passed
  obtain ⟨_, passed⟩ := refuseIf_bind_ok passed
  obtain ⟨_, isNode, passed⟩ := bind_ok passed
  obtain ⟨_, _, passed⟩ := bind_ok passed
  obtain ⟨_, passed⟩ := refuseIf_bind_ok passed
  cases passed
  exact .actionStart running (requiredString_index isNode)

theorem actionEnd_admitted (passed : state.actionEnd object = .ok next) :
    Admitted state ⟨"action-end", .object object⟩ next := by
  obtain ⟨_, passed⟩ := refuseIf_bind_ok passed
  obtain ⟨_, isNode, passed⟩ := bind_ok passed
  split at passed
  · next active outer stack =>
    split at passed
    · next same =>
      cases passed
      exact .actionEnd (same ▸ stack) (requiredString_index isNode)
    · cases passed
  · cases passed

theorem effectBefore_admitted (passed : state.effectBefore object = .ok next) :
    Admitted state ⟨"effect-before", .object object⟩ next := by
  obtain ⟨running, passed⟩ := refuseIf_bind_ok passed
  obtain ⟨_, isNode, passed⟩ := bind_ok passed
  obtain ⟨_, _, passed⟩ := bind_ok passed
  obtain ⟨attempt, isAttempt, passed⟩ := bind_ok passed
  obtain ⟨contiguous, passed⟩ := refuseIf_bind_ok passed
  split at passed
  · cases passed
  · next following counted =>
    obtain ⟨_, isEffect, passed⟩ := bind_ok passed
    obtain ⟨_, isScope, passed⟩ := bind_ok passed
    obtain ⟨_, isOperation, passed⟩ := bind_ok passed
    cases passed
    cases checkedAdd_eq_some counted
    have number : attempt = state.nextAttempt := not_not.mp (of_decide_eq_false contiguous)
    refine .effectBefore running ?_ number
    simp [EffectRecord.ofPayload, OpenEffect.toRecord, requiredString_index isNode, requiredString_index isEffect, required_index isScope, required_index isOperation, requiredU64_index isAttempt]

theorem countTransfer_ok {operation : Tree} {hostBytes : Nat}
    (counted : state.countTransfer operation = .ok hostBytes) :
    hostBytes = state.hostBytes +
      if isTransfer (operation.index "kind") then (operation.index "admitted_bytes").asU64.getD 0 else 0 := by
  unfold countTransfer at counted
  split at counted
  · next transfer =>
    obtain ⟨_, isAdmitted, counted⟩ := bind_ok counted
    split at counted
    · cases counted
    · next total sum =>
      cases counted
      rw [checkedAdd_eq_some sum, if_pos transfer, expect_ok isAdmitted, Option.getD_some]
  · next noTransfer =>
    cases counted
    rw [if_neg noTransfer, Nat.add_zero]

theorem effectAfter_admitted (passed : state.effectAfter object = .ok next) :
    Admitted state ⟨"effect-after", .object object⟩ next := by
  obtain ⟨_, isOperation, passed⟩ := bind_ok passed
  obtain ⟨_, counted, passed⟩ := bind_ok passed
  split at passed
  · cases passed
  · next effect outer active =>
    obtain ⟨_, isSame, passed⟩ := bind_ok passed
    obtain ⟨agree, passed⟩ := refuseIf_bind_ok passed
    cases passed
    rw [Bool.not_eq_false'] at agree
    subst agree
    have closes := sameEffect_true isSame
    have total := countTransfer_ok counted
    rw [← required_index isOperation] at total
    subst total
    exact .effectAfter active closes

theorem cleanUp_admitted (passed : state.cleanUp object = .ok next) :
    Admitted state ⟨"cleanup", .object object⟩ next := by
  obtain ⟨_, passed⟩ := refuseIf_bind_ok passed
  obtain ⟨id, isId, passed⟩ := bind_ok passed
  obtain ⟨fresh, passed⟩ := refuseIf_bind_ok passed
  obtain ⟨ordinal, isOrdinal, passed⟩ := bind_ok passed
  obtain ⟨contiguous, passed⟩ := refuseIf_bind_ok passed
  obtain ⟨outcome, _, passed⟩ := bind_ok passed
  cases passed
  refine .cleanup (requiredString_index isId) (of_decide_eq_false fresh) (requiredU64_index isOrdinal) ?_
  intro previous last
  rw [last, Option.any_some, Bool.or_eq_false_iff, decide_eq_false_iff_not, decide_eq_false_iff_not] at contiguous
  omega

theorem finish_admitted (passed : state.finish object = .ok next) :
    Admitted state ⟨"terminal", .object object⟩ next := by
  obtain ⟨closed, passed⟩ := refuseIf_bind_ok passed
  obtain ⟨_, _, passed⟩ := bind_ok passed
  obtain ⟨_, passed⟩ := refuseIf_bind_ok passed
  obtain ⟨complete, passed⟩ := refuseIf_bind_ok passed
  cases passed
  rw [Bool.or_eq_false_iff] at closed
  refine .terminal (isEmpty_of_not closed.1) (isEmpty_of_not closed.2) ?_
  intro last isLast
  rw [isLast, Option.any_some, decide_eq_false_iff_not, not_not] at complete
  exact complete

theorem admitEvent_admitted {event : Event} (passed : state.admitEvent event = .ok next) :
    state.terminal = false ∧ Admitted state event next := by
  unfold admitEvent at passed
  split at passed
  · cases passed
  · next running =>
    refine ⟨Bool.eq_false_iff.mpr running, ?_⟩
    obtain ⟨object, isObject, passed⟩ := bind_ok passed
    obtain ⟨_, payload⟩ := event
    have payloadEq : payload = .object object := Tree.eq_object (expect_ok isObject)
    subst payloadEq
    dsimp only at passed
    split at passed
    · exact actionStart_admitted passed
    · exact actionEnd_admitted passed
    · exact effectBefore_admitted passed
    · exact effectAfter_admitted passed
    · exact cleanUp_admitted passed
    · exact finish_admitted passed
    · cases passed
      exact .evidenceFailure
    · cases passed

/-! ## Whole journals -/

section Snoc

variable (events : List Event) (event : Event)

theorem actions_snoc : actions (events ++ [event]) = actions events ++ (actionBoundary event).toList := by
  simp only [actions, filterMap_append, filterMap_cons, filterMap_nil]
  cases actionBoundary event <;> rfl

theorem effects_snoc : effects (events ++ [event]) = effects events ++ (effectBoundary event).toList := by
  simp only [effects, filterMap_append, filterMap_cons, filterMap_nil]
  cases effectBoundary event <;> rfl

theorem cleanups_snoc : cleanups (events ++ [event]) = cleanups events ++
    if event.kind = "cleanup" then [event.payload] else [] := by
  simp only [cleanups, filter_append, map_append, filter_cons, filter_nil]
  by_cases isCleanup : event.kind = "cleanup" <;> simp [isCleanup]

end Snoc

variable {events : List Event} {event : Event} {policy : Option Tree}

structure EffectsRecorded (events : List Event) (stack : List OpenEffect) (nextAttempt hostBytes : Nat) : Prop where
  nested : Nested Closes (effects events) (stack.map OpenEffect.toRecord)
  counted : attempts events = (List.range nextAttempt).map some
  closed : closedBytes events = hostBytes

structure CleanupRecorded (events : List Event) (started : Bool) (ordinals : List Nat) (held : Finset String) : Prop where
  notStarted : started = false → cleanups events = []
  listed : cleanupOrdinals events = ordinals.map some
  descend : ordinals.IsChain (fun previous next => previous = next + 1)
  ids : ∃ ids : List String, cleanupResourceIds events = ids.map some ∧ ids.Nodup ∧ ∀ id, id ∈ ids ↔ id ∈ held

/-- The lifecycle holds what its events say. -/
structure Recorded (events : List Event) (state : JournalLifecycle) : Prop where
  actions : Nested Eq (actions events) (state.actionStack.map some)
  effects : EffectsRecorded events state.effectStack state.nextAttempt state.hostBytes
  cleanup : CleanupRecorded events state.cleanupStarted state.cleanupOrdinals state.cleanupResourceIds
  unfinished : state.terminal = false → ∀ event ∈ events, event.kind ≠ "terminal"
  complete : state.terminal = true → ∀ last ∈ state.cleanupOrdinals.getLast?, last = 0

theorem recorded_start : Recorded [] {} where
  actions := .nil
  effects := ⟨.nil, rfl, rfl⟩
  cleanup := ⟨fun _ => rfl, rfl, .nil, [], rfl, .nil, fun id => by simp⟩
  unfinished := fun _ event held => by cases held
  complete := fun ended => by cases ended

/-! ### Effects -/

section Effects

variable {stack : List OpenEffect} {nextAttempt hostBytes : Nat} {payload : Tree} {effect : OpenEffect}

theorem EffectsRecorded.frame (recorded : EffectsRecorded events stack nextAttempt hostBytes)
    (other : effectBoundary event = none) : EffectsRecorded (events ++ [event]) stack nextAttempt hostBytes := by
  have same : effects (events ++ [event]) = effects events := by
    rw [effects_snoc, other, Option.toList_none, append_nil]
  constructor
  · rw [same]
    exact recorded.nested
  · rw [attempts, same]
    exact recorded.counted
  · rw [closedBytes, same]
    exact recorded.closed

theorem EffectsRecorded.before (recorded : EffectsRecorded events stack nextAttempt hostBytes)
    (isRecord : .ofPayload payload = effect.toRecord) (number : effect.attempt = nextAttempt) :
    EffectsRecorded (events ++ [⟨"effect-before", payload⟩]) (effect :: stack) (nextAttempt + 1) hostBytes := by
  have grown : effects (events ++ [⟨"effect-before", payload⟩]) = effects events ++ [.inl effect.toRecord] := by
    rw [effects_snoc, effectBoundary, isRecord]
    rfl
  constructor
  · rw [grown]
    exact recorded.nested.open _
  · have previous := recorded.counted
    unfold attempts at previous ⊢
    rw [grown, filterMap_append, previous, range_succ, map_append, ← number]
    rfl
  · have previous := recorded.closed
    unfold closedBytes at previous ⊢
    rw [grown, filterMap_append, sum_append, previous]
    rfl

theorem EffectsRecorded.after (recorded : EffectsRecorded events (effect :: stack) nextAttempt hostBytes)
    (closes : Closes effect.toRecord (.ofPayload payload)) :
    EffectsRecorded (events ++ [⟨"effect-after", payload⟩]) stack nextAttempt
      (hostBytes + (EffectRecord.ofPayload payload).transferredBytes) := by
  have grown : effects (events ++ [⟨"effect-after", payload⟩]) =
      effects events ++ [.inr (EffectRecord.ofPayload payload)] := effects_snoc _ _
  constructor
  · rw [grown]
    exact recorded.nested.close closes
  · have previous := recorded.counted
    unfold attempts at previous ⊢
    rw [grown, filterMap_append, previous]
    exact append_nil _
  · have previous := recorded.closed
    unfold closedBytes at previous ⊢
    rw [grown, filterMap_append, sum_append, previous]
    rfl

/-- The bytes of the open effects are those the lifecycle adds up. -/
theorem EffectsRecorded.openBytes_eq (recorded : EffectsRecorded events stack nextAttempt hostBytes) :
    openBytes events = (stack.map fun effect => (effect.operation.index "admitted_bytes").asU64.getD 0).sum := by
  rw [openBytes, recorded.nested.unclosed_eq, map_map]
  rfl

end Effects

/-! ### Cleanup -/

section Cleanup

variable {started : Bool} {ordinals : List Nat} {held : Finset String} {payload : Tree}

theorem CleanupRecorded.frame (recorded : CleanupRecorded events started ordinals held)
    (other : event.kind ≠ "cleanup") : CleanupRecorded (events ++ [event]) started ordinals held := by
  have same : cleanups (events ++ [event]) = cleanups events := by
    rw [cleanups_snoc, if_neg other, append_nil]
  constructor
  · rw [same]
    exact recorded.notStarted
  · rw [cleanupOrdinals, same]
    exact recorded.listed
  · exact recorded.descend
  · rw [cleanupResourceIds, same]
    exact recorded.ids

theorem CleanupRecorded.cleanup {id : String} {ordinal : Nat} (recorded : CleanupRecorded events started ordinals held)
    (isId : (payload.index "resource_id").asStr = some id) (fresh : id ∉ held)
    (isOrdinal : (payload.index "ordinal").asU64 = some ordinal)
    (follows : ∀ previous ∈ ordinals.getLast?, previous = ordinal + 1) :
    CleanupRecorded (events ++ [⟨"cleanup", payload⟩]) true (ordinals ++ [ordinal]) (insert id held) := by
  have grown : cleanups (events ++ [⟨"cleanup", payload⟩]) = cleanups events ++ [payload] := by
    rw [cleanups_snoc, if_pos rfl]
  obtain ⟨ids, areIds, distinct, same⟩ := recorded.ids
  constructor
  · intro notStarted
    cases notStarted
  · have previous := recorded.listed
    unfold cleanupOrdinals at previous ⊢
    rw [grown, map_append, previous, map_append, map_singleton, map_singleton, isOrdinal]
  · refine isChain_append.mpr ⟨recorded.descend, .singleton _, ?_⟩
    intro last isLast first isFirst
    rw [List.head?_cons, Option.mem_some] at isFirst
    rw [← isFirst]
    exact follows last isLast
  · refine ⟨ids ++ [id], ?_, ?_, ?_⟩
    · unfold cleanupResourceIds at areIds ⊢
      rw [grown, map_append, areIds, map_append, map_singleton, map_singleton, isId]
    · have absent : id ∉ ids := fun member => fresh ((same id).mp member)
      exact nodup_append.mpr ⟨distinct, nodup_singleton id, by
        intro other isOther last isLast
        rw [mem_singleton.mp isLast]
        exact fun equal => absent (equal ▸ isOther)⟩
    · intro other
      rw [mem_append, mem_singleton, Finset.mem_insert, same other]
      exact or_comm

end Cleanup

/-! ### Steps and runs -/

theorem actions_frame {stack : List (Option String)} (nested : Nested Eq (actions events) stack)
    (other : actionBoundary event = none) : Nested Eq (actions (events ++ [event])) stack := by
  rw [actions_snoc, other, Option.toList_none, append_nil]
  exact nested

theorem Recorded.step (recorded : Recorded events state) (running : state.terminal = false)
    (admitted : Admitted state event next) : Recorded (events ++ [event]) next := by
  have stillOpen : event.kind ≠ "terminal" → ∀ held ∈ events ++ [event], held.kind ≠ "terminal" := by
    intro other held isHeld
    rcases mem_append.mp isHeld with isHeld | isHeld
    · exact recorded.unfinished running held isHeld
    · rw [mem_singleton.mp isHeld]
      exact other
  have notComplete : state.terminal = true → False := by
    rw [running]
    exact Bool.false_ne_true
  obtain ⟨actions, effects, cleanup, _, complete⟩ := recorded
  cases admitted with
  | actionStart _ isNode =>
    refine ⟨?_, effects.frame rfl, cleanup.frame (by simp), fun _ => stillOpen (by simp), complete⟩
    rw [actions_snoc, actionBoundary, isNode]
    exact actions.open _
  | actionEnd active isNode =>
    refine ⟨?_, effects.frame rfl, cleanup.frame (by simp), fun _ => stillOpen (by simp), complete⟩
    rw [actions_snoc, actionBoundary, isNode]
    rw [active] at actions
    exact actions.close rfl
  | effectBefore _ isRecord number =>
    exact ⟨actions_frame actions rfl, effects.before isRecord number, cleanup.frame (by simp),
      fun _ => stillOpen (by simp), complete⟩
  | effectAfter active closes =>
    rw [active] at effects
    exact ⟨actions_frame actions rfl, effects.after closes, cleanup.frame (by simp),
      fun _ => stillOpen (by simp), complete⟩
  | cleanup isId fresh isOrdinal follows =>
    exact ⟨actions_frame actions rfl, effects.frame rfl, cleanup.cleanup isId fresh isOrdinal follows,
      fun _ => stillOpen (by simp), fun ended => (notComplete ended).elim⟩
  | terminal _ _ reached =>
    exact ⟨actions_frame actions rfl, effects.frame rfl, cleanup.frame (by simp),
      (fun unended => by cases unended), fun _ => reached⟩
  | evidenceFailure =>
    exact ⟨actions_frame actions rfl, effects.frame rfl, cleanup.frame (by simp),
      fun _ => stillOpen (by simp), complete⟩

variable {before after : List Event}

theorem recordAll_append (passed : state.recordAll policy (before ++ after) = .ok next) :
    ∃ middle, state.recordAll policy before = .ok middle ∧ middle.recordAll policy after = .ok next := by
  unfold recordAll at passed ⊢
  rw [foldlM_append] at passed
  exact bind_ok passed

theorem recordAll_cons (passed : state.recordAll policy (event :: after) = .ok next) :
    ∃ middle, state.record policy event = .ok middle ∧ middle.recordAll policy after = .ok next := by
  unfold recordAll at passed ⊢
  exact bind_ok passed

theorem record_ok (passed : state.record policy event = .ok next) :
    state.terminal = false ∧ Admitted state event next ∧ next.validateHostBytes policy = .ok () := by
  obtain ⟨_, isAdmitted, passed⟩ := bind_ok passed
  obtain ⟨_, validated, passed⟩ := bind_ok passed
  cases passed
  exact ⟨(admitEvent_admitted isAdmitted).1, (admitEvent_admitted isAdmitted).2, validated⟩

theorem Recorded.run (recorded : Recorded events state) (passed : state.recordAll policy after = .ok next) : Recorded (events ++ after) next := by
  induction after generalizing events state with
  | nil =>
    cases passed
    rw [append_nil]
    exact recorded
  | cons _ _ ih =>
    obtain ⟨_, first, rest⟩ := recordAll_cons passed
    obtain ⟨running, admitted, _⟩ := record_ok first
    have stepped := ih (recorded.step running admitted) rest
    rw [append_assoc] at stepped
    exact stepped

theorem recorded_of_run (passed : recordAll policy {} events = .ok state) :
    Recorded events state := recorded_start.run passed

/-- The lifecycle when an event of an admitted journal comes. -/
theorem recorded_at (passed : recordAll policy {} (before ++ event :: after) = .ok state) :
    ∃ middle later, Recorded before middle ∧ middle.terminal = false ∧ Admitted middle event later ∧
      later.recordAll policy after = .ok state := by
  obtain ⟨middle, first, rest⟩ := recordAll_append passed
  obtain ⟨later, second, rest⟩ := recordAll_cons rest
  obtain ⟨running, admitted, _⟩ := record_ok second
  exact ⟨middle, later, recorded_of_run first, running, admitted, rest⟩

theorem openBytes_fold {total admitted : Nat} {stack : List OpenEffect}
    (fits : JournalLifecycle.openBytes total stack = some admitted) :
    admitted = total + (stack.map fun effect => (effect.operation.index "admitted_bytes").asU64.getD 0).sum := by
  induction stack generalizing total with
  | nil =>
    cases fits
    rfl
  | cons effect stack ih =>
    obtain ⟨sum, added, rest⟩ := Option.bind_eq_some_iff.mp fits
    rw [ih rest, checkedAdd_eq_some added, map_cons, sum_cons]
    omega

theorem validateHostBytes_ok {accepted : Tree} {limit : Nat}
    (validated : state.validateHostBytes (some accepted) = .ok ())
    (isLimit : (accepted.index "max_host_bytes").asU64 = some limit) :
    state.hostBytes + (state.effectStack.map fun effect =>
      (effect.operation.index "admitted_bytes").asU64.getD 0).sum ≤ limit := by
  unfold JournalLifecycle.validateHostBytes at validated
  dsimp only at validated
  split at validated
  · cases validated
  · next admitted fits =>
    obtain ⟨found, isFound, validated⟩ := bind_ok validated
    have same : found = limit := Option.some.inj ((expect_ok isFound).symm.trans isLimit)
    have bounded := of_decide_eq_false (refuseIf_ok validated)
    have sum := openBytes_fold fits
    omega

theorem bytes_le_limit {accepted : Tree} {limit : Nat}
    (passed : recordAll (some accepted) {} events = .ok state)
    (isLimit : (accepted.index "max_host_bytes").asU64 = some limit) : closedBytes events + openBytes events ≤ limit := by
  rcases eq_nil_or_concat events with rfl | ⟨_, _, rfl⟩
  · exact Nat.zero_le limit
  · rw [concat_eq_append] at passed ⊢
    obtain ⟨_, _, last⟩ := recordAll_append passed
    obtain ⟨_, step, rest⟩ := recordAll_cons last
    cases rest
    have recorded := recorded_of_run passed
    rw [recorded.effects.closed, recorded.effects.openBytes_eq]
    exact validateHostBytes_ok (record_ok step).2.2 isLimit

/-- After a cleanup neither an action nor an effect is admitted. -/
theorem no_start_after_cleanup (passed : recordAll policy {} events = .ok state) {cleanup : Event}
    (split : events = before ++ cleanup :: after) (isCleanup : cleanup.kind = "cleanup") : ∀ event ∈ after, event.kind ≠ "action-start" ∧ event.kind ≠ "effect-before" := by
  intro event member
  obtain ⟨between, rest, rfl⟩ := append_of_mem member
  subst split
  rw [← cons_append, ← append_assoc] at passed
  obtain ⟨middle, later, recorded, _, admitted, _⟩ := recorded_at passed
  have started : middle.cleanupStarted ≠ false := by
    intro notStarted
    have none := recorded.cleanup.notStarted notStarted
    simp [cleanups, isCleanup] at none
  constructor
  all_goals
    intro kind
    cases admitted <;> simp at kind
  · exact started ‹_›
  · exact started ‹_›

theorem terminal_is_last (passed : recordAll policy {} events = .ok state) {terminal : Event}
    (split : events = before ++ terminal :: after) (isTerminal : terminal.kind = "terminal") :
    after = [] ∧ Balanced Eq (actions before) ∧ Balanced Closes (effects before) := by
  subst split
  obtain ⟨_, _, recorded, _, admitted, rest⟩ := recorded_at passed
  cases admitted <;> simp at isTerminal
  next noAction noEffect _ =>
    have ended := recorded.actions
    rw [noAction] at ended
    have closed := recorded.effects.nested
    rw [noEffect] at closed
    refine ⟨?_, ended.complete, closed.complete⟩
    cases after with
    | nil => rfl
    | cons =>
      obtain ⟨_, step, _⟩ := recordAll_cons rest
      cases (record_ok step).1

/-- A journal that the lifecycle admits event by event, with the bytes compared after each, is disciplined. -/
theorem admitted_journal_disciplined (policy : Option Tree) (events : List Event) (state : JournalLifecycle)
    (passed : recordAll policy {} events = .ok state) : Disciplined policy events := by
  have recorded := recorded_of_run passed
  have counted := recorded.effects.counted
  refine {
    actionsNested := ?_
    effectsNested := ?_
    attemptsCount := ?_
    noStartAfterCleanup := fun before cleanup after split isCleanup => no_start_after_cleanup passed split isCleanup
    ordinalsDescend := ⟨state.cleanupOrdinals, recorded.cleanup.listed, recorded.cleanup.descend, ?_⟩
    resourcesDistinct := ?_
    terminalLast := fun before terminal after split isTerminal => terminal_is_last passed split isTerminal
    bytesBounded := ?_ }
  · rw [recorded.actions.unclosed_eq]
    exact recorded.actions
  · rw [recorded.effects.nested.unclosed_eq]
    exact recorded.effects.nested
  · rw [counted, length_map, length_range]
  · rintro ⟨event, member, isTerminal⟩
    cases ended : state.terminal with
    | false => exact absurd isTerminal (recorded.unfinished ended event member)
    | true => exact recorded.complete ended
  · obtain ⟨ids, areIds, distinct, _⟩ := recorded.cleanup.ids
    exact ⟨ids, areIds, distinct⟩
  · intro before after accepted limit split isPolicy isLimit
    subst split isPolicy
    obtain ⟨_, first, _⟩ := recordAll_append passed
    exact bytes_le_limit first isLimit

theorem admitted_journal_disciplined_entropy :
    let count (value : Fin 100) : Tree := .ofNat value (by omega)
    let contract := "sha256:0123456789abcdef0123456789abcdef0123456789abcdef0123456789abcdef"
    let node : Tree := .string (contract ++ "#000000")
    let operation (admitted : Fin 100) (confirmed : Tree) : Tree := .object [("admitted_bytes", count admitted),
      ("confirmed_bytes", confirmed), ("kind", .string "entropy")]
    let effect (operation : Tree) : Tree := .object [("action_node_id", node), ("attempt", count 0),
      ("effect", .string "entropy.system"), ("operation", operation), ("scope", .null)]
    let cleanup (ordinal : Fin 100) (id : String) : Event := ⟨"cleanup", .object [("ordinal", count ordinal),
      ("outcome", .null), ("resource_id", .string id)]⟩
    Disciplined (some (.object [("max_host_bytes", count 16)]))
      [⟨"action-start", .object [("action_node_id", node), ("contract_digest", .string contract)]⟩,
        ⟨"effect-before", effect (operation 16 .null)⟩, ⟨"effect-after", effect (operation 8 (count 8))⟩,
        ⟨"action-end", .object [("action_node_id", node)]⟩, cleanup 1 "socket", cleanup 0 "file",
        ⟨"terminal", .object [("cleanup", .array [.null, .null])]⟩] := by
  intro count contract node operation effect cleanup
  exact admitted_journal_disciplined _ _
    { cleanup := [.null, .null]
      cleanupOrdinals := [1, 0]
      cleanupResourceIds := insert "file" (insert "socket" ∅)
      nextAttempt := 1
      actionPhaseStarted := true
      cleanupStarted := true
      terminal := true
      hostBytes := 8 } (by decide +kernel)

end Opaal.Workflow
