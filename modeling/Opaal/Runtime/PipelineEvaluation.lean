import Opaal.Runtime.ModuleAliases
import Opaal.Syntax.Ast

/-!
# Evaluation of a pipeline

A pipeline is a value of its own when every stage is an expression or the name of an
imported operation; everything else goes to the host.  The evaluation of expressions and
of chains that run commands are given.
-/

namespace Opaal.Runtime

variable {σ Module F C : Type}

/-! ## Operations as stages -/

/-- What of a compiled operation a pipeline of values reads. -/
structure ValueOperation where
  qualifiedName : String
  /-- Only `length` is called without arguments. -/
  supportsValuePipeline : Bool

/-- The value overload of `length`, on a list of any items. -/
def executeValue (operation : ValueOperation) (value : Value F C) : Except OperationFailure (Value F C) :=
  if (ValueType.list (.typeParameter "T")).accepts value then
    match value with
    | .list values =>
      if values.length < 2 ^ 63 then .ok (.int (Int64.ofNat values.length))
      else .error (.rejected (.lengthOverflow operation.qualifiedName))
    | _ => .error (.panicked "the selected value overload accepts only lists")
  else .error (.rejected (.noMatchingOverload operation.qualifiedName ("Value(" ++ value.familyName ++ ")")))

/-- The operation a stage may name: a name by itself, as an expression or as a command. -/
def operationStageName : Syntax.Stage σ → Option (Syntax.QualifiedName σ)
  | .mk (.expression expression) _ =>
    match expression.kind with
    | .qualified name => some name
    | .name reference => some ⟨[reference.name], expression.span, List.cons_ne_nil _ _⟩
    | _ => none
  | .mk (.command (.mk .bare (.mk [part] _) span) []) _ =>
    match part.kind with
    | .bare => some ⟨[⟨part.span⟩], span, List.cons_ne_nil _ _⟩
    | _ => none
  | _ => none

/-- The name that a pipeline consists of. -/
def standalonePipelineName : Syntax.Pipeline σ → Option σ
  | .mk [.mk (.command (.mk .bare (.mk [part] _) _) []) _] _ _ =>
    match part.kind with
    | .bare => some part.span
    | _ => none
  | _ => none

/-- What a module's names are looked up in, and the text that spans stand for. -/
structure ModuleBindings (σ Module : Type) where
  text : σ → String
  start : σ → Nat
  source : Syntax.SourceId
  modulesBySource : Syntax.SourceId → Option Module
  aliases : ModuleAliasRegistry Module
  standardOperation : Module → String → Option ValueOperation

section Names

variable [DecidableEq Module] (bindings : ModuleBindings σ Module)

/-- A selected member, unless it is selected further on in the same source. -/
def selectedEntityAt (name : String) (offset : Nat) : Option (Module × String) := do
  let current ← bindings.modulesBySource bindings.source
  let selection ← bindings.aliases.selection current name
  if selection.localSpan.sourceId = bindings.source ∧ offset < selection.localSpan.stop then none
  else bindings.aliases.selectedEntity (fun module name => (bindings.standardOperation module name).isSome) current name

def qualifiedOperation (segments : List String) : Option ValueOperation := do
  let current ← bindings.modulesBySource bindings.source
  let (owner, name) ←
    bindings.aliases.resolveEntity (fun module name => (bindings.standardOperation module name).isSome) current segments
  bindings.standardOperation owner name

def pipelineOperation (stage : Syntax.Stage σ) (scope : ScopeStack F C) : Option ValueOperation := do
  let name ← operationStageName stage
  let segments := name.segments.map fun segment => bindings.text segment.span
  match segments with
  | [local_] =>
    if (scope.find local_).isSome then none
    else do
      let _ ← selectedEntityAt bindings local_ (bindings.start name.span)
      qualifiedOperation bindings segments
  | _ => qualifiedOperation bindings segments

end Names

/-! ## Evaluation -/

inductive PipelineErrorKind where
  | scope (error : ScopeError)
  | unsupported (feature : String)
  | operation (error : OperationError)
  | restrictedStartup

/-- How an evaluation ends: with a value, with a report, or because the code takes for
impossible what has happened. -/
inductive PipelineOutcome (Abort F C : Type) where
  | value (value : Value F C)
  | aborted (abort : Abort)
  | panicked (message : String)

/-- The evaluator around a pipeline, with the parts that are not its own. -/
structure PipelineEvaluator (σ State Abort F C : Type) where
  scope : State → ScopeStack F C
  currentStatus : State → Option Status
  checkCancel : σ → State → Except Abort Unit
  error : PipelineErrorKind → σ → Abort
  expression : Syntax.Expression σ → Option ValueType → State → Except Abort (Value F C) × State
  executeChain : Syntax.ConditionalChain σ → Bool → State → Except Abort Status × State
  resolvesBareCommands : Bool
  startup : Bool

def chainOfPipeline (pipeline : Syntax.Pipeline σ) : Syntax.ConditionalChain σ :=
  .mk [.mk [pipeline] [] pipeline.span] [] pipeline.span

def isExpressionStage : Syntax.Stage σ → Bool
  | .mk (.expression _) _ => true
  | .mk (.command _ _) _ => false

def stagesOf : Syntax.Pipeline σ → List (Syntax.Stage σ)
  | .mk stages _ _ => stages

section Evaluation

variable {State Abort : Type} [DecidableEq Module] (bindings : ModuleBindings σ Module)
  (evaluator : PipelineEvaluator σ State Abort F C)

def reported (result : Except Abort (Value F C)) : PipelineOutcome Abort F C :=
  match result with
  | .ok value => .value value
  | .error abort => .aborted abort

def bindingValue (name : String) (span : σ) (state : State) : Except Abort (Value F C) :=
  if isDynamicBinding name then .ok (((evaluator.currentStatus state).map Value.status).getD .null)
  else
    match (evaluator.scope state).find name with
    | some binding => .ok binding.value
    | none => .error (evaluator.error (.scope (.unknownBinding name)) span)

/-- The stages after the first one. -/
def evalOperations (state : State) : List (Syntax.Stage σ) → Value F C → PipelineOutcome Abort F C
  | [], value => .value value
  | stage :: stages, value =>
    match evaluator.checkCancel stage.span state with
    | .error abort => .aborted abort
    | .ok () =>
      match pipelineOperation bindings stage (evaluator.scope state) with
      | none => .aborted (evaluator.error (.unsupported "non-operation value pipeline stage") stage.span)
      | some operation =>
        if operation.supportsValuePipeline then
          match executeValue operation value with
          | .ok value => evalOperations state stages value
          | .error (.rejected error) => .aborted (evaluator.error (.operation error) stage.span)
          | .error (.panicked message) => .panicked message
        else .aborted (evaluator.error (.unsupported "parameterized value pipeline operation") stage.span)

/-- The test of a pipeline of values. -/
def isValueStage (scope : ScopeStack F C) (stage : Syntax.Stage σ) : Bool :=
  isExpressionStage stage || (pipelineOperation bindings stage scope).isSome

/-- A name that is read as a binding: one that is in scope, that is not lexical, or any name
where bare commands are not resolved. -/
def readsBinding (pipeline : Syntax.Pipeline σ) (state : State) : Option σ :=
  (standalonePipelineName pipeline).filter fun span =>
    ((evaluator.scope state).find (bindings.text span)).isSome || isDynamicBinding (bindings.text span) ||
      !evaluator.resolvesBareCommands

def evalValuePipeline (stages : List (Syntax.Stage σ)) (state : State) : PipelineOutcome Abort F C × State :=
  match stages with
  | [] => (.panicked "a parsed pipeline contains at least one stage", state)
  | .mk (.command _ _) _ :: _ => (.panicked "the pure pipeline predicate accepts only expressions", state)
  | .mk (.expression expression) _ :: rest =>
    match evaluator.expression expression none state with
    | (.error abort, after) => (.aborted abort, after)
    | (.ok value, after) => (evalOperations bindings evaluator after rest value, after)

def delegate (pipeline : Syntax.Pipeline σ) (manageForeground : Bool) (state : State) : PipelineOutcome Abort F C × State :=
  if evaluator.startup then (.aborted (evaluator.error .restrictedStartup pipeline.span), state)
  else
    let executed := evaluator.executeChain (chainOfPipeline pipeline) manageForeground state
    (reported (executed.1.map Value.status), executed.2)

def evalPipeline (pipeline : Syntax.Pipeline σ) (manageForeground : Bool) (expected : Option ValueType) (state : State) :
    PipelineOutcome Abort F C × State :=
  match readsBinding bindings evaluator pipeline state with
  | some span => (reported (bindingValue evaluator (bindings.text span) span state), state)
  | none =>
    match stagesOf pipeline with
    | [.mk (.expression expression) _] =>
      let evaluated := evaluator.expression expression expected state
      (reported evaluated.1, evaluated.2)
    | stages =>
      if stages.all (isValueStage bindings (evaluator.scope state)) then evalValuePipeline bindings evaluator stages state
      else delegate evaluator pipeline manageForeground state

/-! ## What cannot happen -/

/-- A value or a report. -/
def PipelineOutcome.Total (outcome : PipelineOutcome Abort F C) : Prop := ∀ message, outcome ≠ .panicked message

theorem PipelineOutcome.Total.of_value (value : Value F C) :
    (.value value : PipelineOutcome Abort F C).Total :=
  fun _ same => nomatch same

theorem PipelineOutcome.Total.of_aborted (abort : Abort) :
    (.aborted abort : PipelineOutcome Abort F C).Total :=
  fun _ same => nomatch same

theorem reported_total (result : Except Abort (Value F C)) : (reported result).Total := by
  cases result with
  | ok value => exact .of_value value
  | error abort => exact .of_aborted abort

/-- Only lists are accepted, so the overload finds a list. -/
theorem executeValue_total (operation : ValueOperation) (value : Value F C) (message : String) :
    executeValue operation value ≠ .error (.panicked message) := by
  intro panicked
  unfold executeValue at panicked
  by_cases accepted : (ValueType.list (.typeParameter "T")).accepts value = true
  · rw [if_pos accepted] at panicked
    cases value with
    | list =>
      dsimp only at panicked
      split at panicked <;> cases panicked
    | _ => cases accepted
  · rw [if_neg accepted] at panicked
    cases panicked

theorem evalOperations_total (state : State) (stages : List (Syntax.Stage σ)) (value : Value F C) :
    (evalOperations bindings evaluator state stages value).Total := by
  induction stages generalizing value with
  | nil => exact .of_value value
  | cons stage _ ih =>
    rw [evalOperations]
    cases evaluator.checkCancel stage.span state with
    | error abort => exact .of_aborted abort
    | ok =>
      cases pipelineOperation bindings stage (evaluator.scope state) with
      | none => exact .of_aborted _
      | some operation =>
        dsimp only
        split_ifs
        · cases executed : executeValue operation value with
          | ok value => exact ih value
          | error failure =>
            cases failure with
            | rejected => exact .of_aborted _
            | panicked message => exact absurd executed (executeValue_total operation value message)
        · exact .of_aborted _

/-- A pipeline of values runs when it starts with an expression. -/
theorem evalValuePipeline_total_iff (stages : List (Syntax.Stage σ)) (state : State) :
    (evalValuePipeline bindings evaluator stages state).1.Total ↔
      ∃ first, stages.head? = some first ∧ isExpressionStage first = true := by
  match stages with
  | [] => exact ⟨fun total => absurd rfl (total _), fun ⟨_, empty, _⟩ => nomatch empty⟩
  | .mk (.command head items) span :: rest =>
    refine ⟨fun total => absurd rfl (total _), fun ⟨first, same, expression⟩ => ?_⟩
    cases same
    cases expression
  | .mk (.expression expression) span :: rest =>
    refine ⟨fun _ => ⟨_, rfl, rfl⟩, fun _ => ?_⟩
    rw [evalValuePipeline]
    cases evaluator.expression expression none state with
    | mk result after =>
      cases result with
      | error abort => exact .of_aborted abort
      | ok value => exact evalOperations_total bindings evaluator after rest value

theorem delegate_total (pipeline : Syntax.Pipeline σ) (manageForeground : Bool) (state : State) :
    (delegate evaluator pipeline manageForeground state).1.Total := by
  rw [delegate]
  split_ifs
  · exact .of_aborted _
  · exact reported_total _

/-- A pipeline is evaluated to a value or a report exactly when it is a name read as a
binding, starts with an expression or has a stage that is no value. -/
theorem evalPipeline_total_iff (pipeline : Syntax.Pipeline σ) (manageForeground : Bool) (expected : Option ValueType) (state : State) :
    (evalPipeline bindings evaluator pipeline manageForeground expected state).1.Total ↔
      (readsBinding bindings evaluator pipeline state).isSome ∨
      (∃ first, (stagesOf pipeline).head? = some first ∧ isExpressionStage first = true) ∨
      ∃ stage ∈ stagesOf pipeline, isValueStage bindings (evaluator.scope state) stage = false := by
  rw [evalPipeline]
  cases readsBinding bindings evaluator pipeline state with
  | some => exact ⟨fun _ => .inl rfl, fun _ => reported_total _⟩
  | none =>
    dsimp only
    split
    · rename_i expression span alone
      rw [alone]
      exact ⟨fun _ => .inr (.inl ⟨_, rfl, rfl⟩), fun _ => reported_total _⟩
    · split_ifs with values
      · rw [evalValuePipeline_total_iff]
        refine ⟨fun first => .inr (.inl first), fun either => ?_⟩
        rcases either with reads | first | ⟨stage, listed, other⟩
        · cases reads
        · exact first
        · rw [List.all_eq_true.mp values stage listed] at other
          cases other
      · refine ⟨fun _ => .inr (.inr ?_), fun _ => delegate_total evaluator pipeline manageForeground state⟩
        rw [List.all_eq_true] at values
        push Not at values
        obtain ⟨stage, listed, other⟩ := values
        exact ⟨stage, listed, Bool.eq_false_iff.mpr other⟩

end Evaluation

/-! A pipeline of two names, each of them the imported `length`. -/

def lengthSource : Syntax.SourceFile := ⟨1, "length | length".toList⟩

def lengthStage (start : Nat) : Syntax.Stage Syntax.Span :=
  let span : Syntax.Span := ⟨1, start, start + 6⟩
  .mk (.command (.mk .bare (.mk [.mk .bare span] span) span) []) span

def lengthTwice : Syntax.Pipeline Syntax.Span :=
  .mk [lengthStage 0, lengthStage 9] [⟨.stdout, ⟨1, 7, 8⟩⟩] ⟨1, 0, 15⟩

/-- Module 0 has selected `length` from module 1 in an earlier source. -/
def lengthBindings : ModuleBindings Syntax.Span Nat where
  text span := String.ofList ((lengthSource.slice span).toOption.getD [])
  start := Syntax.Span.start
  source := 1
  modulesBySource source := if source = 1 then some 0 else none
  aliases := ⟨[(0, ⟨[], [], [("length", ⟨"length", 1, "length", ⟨0, 9, 15⟩⟩)], [], []⟩)]⟩
  standardOperation module name := if module = 1 ∧ name = "length" then some ⟨"std::value::length", true⟩ else none

def lengthEvaluator : PipelineEvaluator Syntax.Span Unit Unit Empty Empty where
  scope _ := .new
  currentStatus _ := none
  checkCancel _ _ := .ok ()
  error _ _ := ()
  expression _ _ state := (.ok .null, state)
  executeChain _ _ state := (.error (), state)
  resolvesBareCommands := true
  startup := false

theorem lengthTwice_panics :
    (evalPipeline lengthBindings lengthEvaluator lengthTwice true none ()).1 =
      .panicked "the pure pipeline predicate accepts only expressions" := by
  rfl

end Opaal.Runtime
