import Opaal.Runtime.ListOperations

/-!
# Operations on values

The operations on records and strings share the control of the evaluation with those on lists:
they poll the token, charge the budget and reserve memory in the same way, and besides they may
refuse an argument.
-/

namespace Opaal.Runtime.Evaluation

open Opaal.Machine
open Opaal.Syntax (Span)
open ListOperations

/-- Why an operation stops: with the evaluation, or over an argument; `unbounded` stands for a loop
that does not end. -/
inductive EvalAbort where
  | aborted (abort : ListAbort)
  | invalidArgument (operation message : String) (span : Span)
  | unbounded
deriving DecidableEq

abbrev EvalM := Action ListInput EvalAbort ListState

variable {α : Type}

def lifted (program : ListM α) : EvalM α := raising .aborted program

/-- A poll and a charge. -/
def visit (span : Span) : EvalM Unit := do
  lifted (ListOperations.checkCancel span)
  lifted (ListOperations.charge span)

def checkCancel (span : Span) : EvalM Unit := lifted (ListOperations.checkCancel span)

def retainCollectionBytes (amount : Nat) (span : Span) : EvalM Unit :=
  lifted (ListOperations.spend (ResourceBudget.chargeCollectionBytes amount) span)

/-- Evaluations that stop for an interruption, or over an argument that is `refused`. -/
def evaluation (input : ListInput) (free : Prop) (length : Nat) (refused : String → String → Prop) : Order EvalAbort ListState where
  valid := (discipline input free length fun _ => False).valid
  later := (discipline input free length fun _ => False).later
  allowed
    | .aborted abort => Interrupted input free length abort
    | .invalidArgument operation message _ => refused operation message
    | .unbounded => False
  refl := (discipline input free length fun _ => False).refl
  trans := (discipline input free length fun _ => False).trans
  keeps := (discipline input free length fun _ => False).keeps

section Rules

variable {input : ListInput} {state : ListState} {free : Prop} {length : Nat} {refused : String → String → Prop} {span : Span}

theorem lifted_runs {program : ListM α} {post : α → ListState → Prop}
    (runs : Runs (discipline input free length fun _ => False) program input state post) :
    Runs (evaluation input free length refused) (lifted program) input state post :=
  runs.raising id (fun _ later => later) fun _ allowed => allowed.resolve_right id

theorem checkCancel_runs : Runs (evaluation input free length refused) (checkCancel span) input state fun _ _ => True :=
  lifted_runs ListOperations.checkCancel_runs

theorem visit_runs : Runs (evaluation input free length refused) (visit span) input state fun _ _ => True := by
  refine (lifted_runs ListOperations.checkCancel_runs).bind ?_
  intro _ _ _ _
  exact lifted_runs ListOperations.charge_runs

/-- What follows a visit. -/
theorem visited {rest : Unit → EvalM α} {post : α → ListState → Prop}
    (runs : ∀ after, Runs (evaluation input free length refused) (rest ()) input after post) :
    Runs (evaluation input free length refused) (visit span >>= rest) input state fun value after => post value after :=
  Runs.bind visit_runs fun _ after _ _ => runs after

theorem retainCollectionBytes_runs {amount : Nat} :
    Runs (evaluation input free length refused) (retainCollectionBytes amount span) input state fun _ _ => True :=
  lifted_runs (ListOperations.spend_runs (ResourceBudget.gentle_bytes amount))

/-- What is known of an evaluation when it returns, and when it stops. -/
structure Concludes (outcome : EStateM.Result EvalAbort ListState α) (returned : α → Prop) (interrupted : ListAbort → Prop)
    (refused : String → String → Prop) : Prop where
  ok : ∀ {value after}, outcome = .ok value after → returned value
  aborted : ∀ {abort after}, outcome = .error (.aborted abort) after → interrupted abort
  invalid : ∀ {operation message span after}, outcome = .error (.invalidArgument operation message span) after →
    refused operation message
  bounded : ∀ {after}, outcome ≠ .error .unbounded after

theorem Runs.concludes {program : EvalM α} {post : α → Prop}
    (runs : Runs (evaluation input state.budget.Unlimited length refused) program input state fun value _ => post value) :
    Concludes (program input state) post (Interrupted input state.budget.Unlimited length) refused := by
  have ended := runs id
  constructor
  · intro value after ran
    rw [ran] at ended
    exact ended.2
  · intro abort after ran
    rw [ran] at ended
    exact ended.2
  · intro operation message span after ran
    rw [ran] at ended
    exact ended.2
  · intro after ran
    rw [ran] at ended
    exact ended.2

end Rules

end Opaal.Runtime.Evaluation
