import Mathlib.Data.List.Sort
import Opaal.Order.FirstOccurrences
import Opaal.Runtime.ActionCallGraph
import Opaal.Runtime.CallableReads

/-!
# Dependencies of actions

The calls in the bodies of actions are collected, put in the order of the source and freed
of repetitions that follow each other; what they call are the dependencies of the action.
-/

namespace Opaal.Runtime

open Opaal.Order Opaal.Syntax List

inductive CallableKind where
  | function
  | action
deriving DecidableEq

inductive ModuleReferenceTarget (Module : Type) where
  | dynamicStatus
  | scriptArguments
  | local_ (module : Module) (declarationSpan : Span)
  | imported (aliasSpan : Span) (targetModule : Module) (declarationSpan exportSpan : Span)

abbrev ActionKey (Module : Type) := Module × String

/-- What the analysis knows of names, and of the callables among them. -/
structure CallableNames (Module : Type) where
  text : Span → String
  reference : Module → Span → Option (ModuleReferenceTarget Module)
  function : Module → Span → Option (CallableKind × String)
  actions : List (ActionKey Module)

structure CallableDefinition (Module : Type) where
  module : Module
  kind : CallableKind
  name : String
  body : List (Statement Span)

inductive CallableError (Module : Type) where
  | actionValue (module : Module) (action : String) (span : Span)
  | functionCallsAction (module : Module) (function action : String) (span : Span)

variable {Module : Type}

def CallableDefinition.key (definition : CallableDefinition Module) : ActionKey Module := (definition.module, definition.name)

/-! ## Definitions -/

section Definitions

variable (names : CallableNames Module) (module : Module)

mutual

/-- The functions and actions of statements, those inside of others after them. -/
def definitionsIn : List (Statement Span) → List (CallableDefinition Module)
  | [] => []
  | statement :: statements => definitionsOf statement ++ definitionsIn statements

def definitionsOf : Statement Span → List (CallableDefinition Module)
  | .mk (.function _ name _ _ _ (.mk body _)) _ => ⟨module, .function, names.text name.span, body⟩ :: definitionsIn body
  | .mk (.action _ name _ _ _ _ _ (.mk body _)) _ => ⟨module, .action, names.text name.span, body⟩ :: definitionsIn body
  | .mk (.if_ statement) _ => definitionsOfIf statement
  | .mk (.while_ _ (.mk body _)) _ => definitionsIn body
  | .mk (.for_ _ _ (.mk body _)) _ => definitionsIn body
  | .mk (.match_ _ arms) _ => definitionsOfArms arms
  | .mk (.try_ (.mk tryBlock _) _ (.mk catchBlock _)) _ => definitionsIn tryBlock ++ definitionsIn catchBlock
  | .mk _ _ => []

def definitionsOfIf : IfStatement Span → List (CallableDefinition Module)
  | .mk _ (.mk body _) none => definitionsIn body
  | .mk _ (.mk body _) (some branch) => definitionsIn body ++ definitionsOfElse branch

def definitionsOfElse : ElseBranch Span → List (CallableDefinition Module)
  | .block (.mk body _) => definitionsIn body
  | .if_ node _ => definitionsOfIf node

def definitionsOfArms : List (MatchArm Span) → List (CallableDefinition Module)
  | [] => []
  | .mk _ _ (.mk body _) _ :: arms => definitionsIn body ++ definitionsOfArms arms

end

end Definitions

/-! ## Calls -/

section Calls

variable [DecidableEq Module] (names : CallableNames Module)

/-- The declaration a name was resolved to, in the module that has it. -/
def ModuleReferenceTarget.declaration : ModuleReferenceTarget Module → Option (Module × Span)
  | .local_ module declarationSpan => some (module, declarationSpan)
  | .imported _ targetModule declarationSpan _ => some (targetModule, declarationSpan)
  | .dynamicStatus => none
  | .scriptArguments => none

/-- The registered action that a read stands for. -/
def actionRead (module : Module) (read : CallableRead Span) : Option (ActionKey Module) := do
  let target ← names.reference module read.span
  let (targetModule, declarationSpan) ← target.declaration
  let (kind, name) ← names.function targetModule declarationSpan
  if kind = .action ∧ (targetModule, name) ∈ names.actions then some (targetModule, name) else none

def validateRead (definition : CallableDefinition Module) (read : CallableRead Span) :
    Option (CallableError Module ⊕ ActionCall (ActionKey Module)) :=
  (actionRead names definition.module read).map fun action =>
    if !read.isCallee then .inl (.actionValue definition.module action.2 read.span)
    else
      match definition.kind with
      | .function => .inl (.functionCallsAction definition.module definition.name action.2 read.span)
      | .action => .inr ⟨action, read.span⟩

/-- What reads are in error and which are calls of the definition. -/
def validateCallableBody (definition : CallableDefinition Module) (reads : List (CallableRead Span)) :
    List (CallableError Module) × List (ActionCall (ActionKey Module)) :=
  ((reads.filterMap (validateRead names definition)).filterMap Sum.getLeft?,
    (reads.filterMap (validateRead names definition)).filterMap Sum.getRight?)

end Calls

/-- Sources with their definitions; actions are known by their names and all registered. -/
structure ActionProgram (Module : Type) where
  names : CallableNames Module
  sources : List (Module × List (Statement Span))
  distinct : (((sources.flatMap fun source => definitionsIn names source.1 source.2).filter (·.kind = .action)).map
    CallableDefinition.key).Nodup
  registered : ∀ definition ∈ sources.flatMap fun source => definitionsIn names source.1 source.2, definition.kind = .action →
    definition.key ∈ names.actions

/-- Calls by where they stand in the source; those at one place stay as they were. -/
def inSourceOrder (calls : List (ActionCall (ActionKey Module))) : List (ActionCall (ActionKey Module)) :=
  calls.insertionSort fun left right => left.span.start ≤ right.span.start

namespace ActionProgram

variable [DecidableEq Module] (program : ActionProgram Module)

omit [DecidableEq Module] in
def definitions : List (CallableDefinition Module) :=
  program.sources.flatMap fun source => definitionsIn program.names source.1 source.2

/-- The calls that were pushed for a key, one definition after the other. -/
def collectedCalls (key : ActionKey Module) : List (ActionCall (ActionKey Module)) :=
  (program.definitions.filter fun definition => definition.kind = .action ∧ definition.key = key).flatMap fun definition =>
    (validateCallableBody program.names definition (collectReads definition.body)).2

def callEdges (key : ActionKey Module) : List (ActionCall (ActionKey Module)) :=
  (inSourceOrder (program.collectedCalls key)).destutter fun left right => left.callee ≠ right.callee

def dependencies (key : ActionKey Module) : List (ActionKey Module) :=
  (program.callEdges key).filterMap fun call => if call.callee ∈ program.names.actions then some call.callee else none

/-- What is in error in the bodies, and the actions that are values elsewhere. -/
def readErrors : List (CallableError Module) :=
  (program.sources.flatMap fun source => (collectReads source.2).filterMap fun read =>
    if read.isCallee then none
    else (actionRead program.names source.1 read).map fun action => .actionValue source.1 action.2 read.span) ++
  program.definitions.flatMap fun definition => (validateCallableBody program.names definition (collectReads definition.body)).1

/-- The actions that reads call, by where they stand in the source. -/
def actionsCalled (definition : CallableDefinition Module) (reads : List (CallableRead Span)) : List (ActionKey Module) :=
  (inSourceOrder (validateCallableBody program.names definition reads).2).map (·.callee)

/-! ## What the dependencies are -/

variable {program}

variable {definition : CallableDefinition Module} {call : ActionCall (ActionKey Module)}

theorem registered_of_call {reads : List (CallableRead Span)}
    (listed : call ∈ (validateCallableBody program.names definition reads).2) :
    call.callee ∈ program.names.actions := by
  obtain ⟨outcome, found, isCall⟩ := mem_filterMap.mp listed
  rw [Sum.getRight?_eq_some_iff] at isCall
  obtain ⟨_, _, validated⟩ := mem_filterMap.mp found
  rw [isCall, validateRead, Option.map_eq_some_iff] at validated
  obtain ⟨action, reads, outcome⟩ := validated
  have same : call.callee = action := by
    split at outcome
    · cases outcome
    · split at outcome
      · cases outcome
      · cases outcome
        rfl
  rw [same]
  simp only [actionRead, Option.bind_eq_bind, Option.bind_eq_some_iff] at reads
  obtain ⟨_, _, _, _, _, _, reads⟩ := reads
  split at reads
  · rename_i known
    cases reads
    exact known.2
  · cases reads

omit [DecidableEq Module] in
theorem mem_inSourceOrder {calls : List (ActionCall (ActionKey Module))} :
    call ∈ inSourceOrder calls ↔ call ∈ calls :=
  mem_insertionSort _

/-- Every callee has a contract, so none is dropped. -/
theorem dependencies_eq (key : ActionKey Module) : program.dependencies key = (program.callEdges key).map (·.callee) := by
  rw [dependencies, ← filterMap_eq_map]
  apply filterMap_congr
  intro call listed
  have collected := mem_inSourceOrder.mp ((destutter_sublist _ _).subset listed)
  obtain ⟨_, _, called⟩ := mem_flatMap.mp collected
  exact if_pos (registered_of_call called)

/-- Distinct names tell the elements of a list apart. -/
theorem filter_of_distinct {α κ : Type} [DecidableEq κ] {items : List α} {key : α → κ} (distinct : (items.map key).Nodup) {item : α}
    (listed : item ∈ items) : (items.filter fun other => key other = key item) = [item] := by
  induction items with
  | nil => cases listed
  | cons first _ ih =>
    rw [map_cons, nodup_cons] at distinct
    rcases mem_cons.mp listed with rfl | later
    · rw [filter_cons_of_pos (by simp)]
      congr 1
      rw [filter_eq_nil_iff]
      intro other there same
      rw [decide_eq_true_eq] at same
      exact distinct.1 (same ▸ mem_map_of_mem there)
    · have different : key first ≠ key item := fun same => distinct.1 (same ▸ mem_map_of_mem later)
      rw [filter_cons_of_neg (by simpa using different)]
      exact ih distinct.2 later

theorem collectedCalls_eq (listed : definition ∈ program.definitions) (isAction : definition.kind = .action) : program.collectedCalls definition.key =
      (validateCallableBody program.names definition (collectReads definition.body)).2 := by
  have among : definition ∈ program.definitions.filter (·.kind = .action) :=
    mem_filter.mpr ⟨listed, decide_eq_true isAction⟩
  have alone : (program.definitions.filter fun other => other.kind = .action ∧ other.key = definition.key) = [definition] := by
    rw [← filter_of_distinct program.distinct among, filter_filter]
    apply filter_congr
    intro other _
    rw [Bool.decide_and, Bool.and_comm]
  rw [collectedCalls, alone, flatMap_singleton]

/-- The dependencies of an action are what it calls, each once and by the first call, exactly
when no call of one action stands between calls of another and calls in patterns make no
difference. -/
theorem dependencies_exact {definition : CallableDefinition Module} (listed : definition ∈ program.definitions)
    (isAction : definition.kind = .action) :
    FirstOccurrences (program.actionsCalled definition (allReads definition.body)) (program.dependencies definition.key) ↔
      Uninterrupted (program.actionsCalled definition (collectReads definition.body)) ∧
        SameFirsts (program.actionsCalled definition (collectReads definition.body))
          (program.actionsCalled definition (allReads definition.body)) := by
  have dropped : program.dependencies definition.key =
      (program.actionsCalled definition (collectReads definition.body)).destutter (· ≠ ·) := by
    rw [dependencies_eq, callEdges, collectedCalls_eq listed isAction]
    exact map_destutter fun _ _ _ _ => Iff.rfl
  rw [dropped]
  exact firstOccurrences_destutter_iff _ _

variable (program) in
/-- The graph that is searched for cycles and for long chains. -/
def callGraph : ActionCallGraph (ActionKey Module) where
  actions := program.names.actions
  edges := program.callEdges
  callers action called := by
    obtain ⟨call, listed⟩ := exists_mem_of_ne_nil _ called
    have collected := mem_inSourceOrder.mp ((destutter_sublist _ _).subset listed)
    obtain ⟨definition, found, _⟩ := mem_flatMap.mp collected
    obtain ⟨defined, owner⟩ := mem_filter.mp found
    rw [decide_eq_true_eq] at owner
    exact owner.2 ▸ program.registered definition defined owner.1

end ActionProgram

/-! One action that calls a second, a third and the second again. -/

def spanAt (start : Nat) : Span := ⟨0, start, start + 1⟩

def callStatement (start : Nat) : Statement Span :=
  let span := spanAt start
  .mk (.job (.mk [.mk [.mk [.mk (.expression (.mk (.call (.mk (.name ⟨⟨span⟩, span⟩) span) [] []) span)) span] [] span] [] span] [] span)
    none) span

def actionStatement (start : Nat) (body : List (Statement Span)) : Statement Span :=
  let span := spanAt start
  .mk (.action none ⟨span⟩ [] [] (.mk ⟨span⟩ [] span) [] span (.mk body span)) span

/-- The names of three actions are declared at 0, 1 and 2 and read further on. -/
def threeNames : CallableNames Unit where
  text span := match span.start with | 0 => "build" | 1 => "test" | _ => "all"
  reference _ span := match span.start with | 10 | 12 => some (.local_ () (spanAt 0)) | 11 => some (.local_ () (spanAt 1)) | _ => none
  function _ span := match span.start with | 0 => some (.action, "build") | 1 => some (.action, "test") | _ => some (.action, "all")
  actions := [((), "build"), ((), "test"), ((), "all")]

def interrupted : List (Statement Span) := [callStatement 10, callStatement 11, callStatement 12]

def threeActions : ActionProgram Unit where
  names := threeNames
  sources := [((), [actionStatement 0 [], actionStatement 1 [], actionStatement 2 interrupted])]
  distinct := by decide
  registered := by
    have each : ∀ definition ∈ definitionsIn threeNames () [actionStatement 0 [], actionStatement 1 [], actionStatement 2 interrupted],
        definition.key ∈ threeNames.actions :=
      forall_mem_cons.mpr ⟨by decide, forall_mem_cons.mpr ⟨by decide, forall_mem_singleton.mpr (by decide)⟩⟩
    intro definition listed _
    rw [flatMap_singleton] at listed
    exact each definition listed

def allAction : CallableDefinition Unit := ⟨(), .action, "all", interrupted⟩

theorem repeated_dependency :
    threeActions.readErrors = [] ∧ validateActionCallGraph threeActions.callGraph = [] ∧
      threeActions.dependencies allAction.key = [((), "build"), ((), "test"), ((), "build")] ∧
      ¬ FirstOccurrences (threeActions.actionsCalled allAction (allReads allAction.body)) (threeActions.dependencies allAction.key) := by
  have listed : threeActions.dependencies allAction.key = [((), "build"), ((), "test"), ((), "build")] := by decide +kernel
  refine ⟨rfl, rfl, listed, fun occurrences => ?_⟩
  have nodup := occurrences.nodup
  exact absurd nodup (by decide)

theorem threeActions_exact :
    FirstOccurrences (threeActions.actionsCalled allAction (allReads allAction.body)) (threeActions.dependencies allAction.key) ↔
      Uninterrupted (threeActions.actionsCalled allAction (collectReads allAction.body)) ∧
        SameFirsts (threeActions.actionsCalled allAction (collectReads allAction.body))
          (threeActions.actionsCalled allAction (allReads allAction.body)) :=
  ActionProgram.dependencies_exact (.tail _ (.tail _ (.head _))) rfl

end Opaal.Runtime
