import Opaal.Artifact.PlanClosure

/-!
# How deep the chains of an accepted plan are

The walk counts the depth at which an action is first entered.  An action that is reached by
one branch only is as deep as that; behind one that several actions share, the depth of the
longer branches was not counted.
-/

namespace Opaal.Workflow

open Opaal.Graph List
open Opaal.Json (Members)

namespace Plan

variable (plan : Plan)

/-- No chain of dependencies from the first action has more actions than the limit. -/
def Bounded (root : String) : Prop :=
  ∀ path last, Path plan.dependenciesOf root path last → path.length + 1 ≤ maxDependencyDepth

/-- An action that two others depend on. -/
def Shared (id : String) : Prop :=
  ∃ first second, first ≠ second ∧ id ∈ plan.dependenciesOf first ∧ id ∈ plan.dependenciesOf second

/-- Through a shared action, the longest branch and what follows stay within the limit. -/
def SharedBounded (root : String) : Prop :=
  ∀ shared branch tail last, plan.Shared shared → Path plan.dependenciesOf root branch shared →
    Path plan.dependenciesOf shared tail last → branch.length + tail.length + 1 ≤ maxDependencyDepth

end Plan

section Chains

variable {plan : Plan} {root : String}

/-- A chain goes through a shared action, or it is the only one to its end. -/
theorem Plan.Closed.chain (closed : plan.Closed root) {path : List String} {last : String}
    (chain : Path plan.dependenciesOf root path last) :
    (∃ shared branch tail, plan.Shared shared ∧ Path plan.dependenciesOf root branch shared ∧
      Path plan.dependenciesOf shared tail last ∧ path = branch ++ tail) ∨
    ∀ other, Path plan.dependenciesOf root other last → other = path := by
  induction length : path.length generalizing path last with
  | zero =>
    have empty := length_eq_zero_iff.mp length
    subst empty
    cases chain
    exact .inr fun other cycle => closed.acyclic root other cycle
  | succ _ ih =>
    rcases Path.last chain with ⟨rfl, _⟩ | ⟨front, middle, rfl, before, depends⟩
    · cases length
    rw [length_append, length_singleton, Nat.succ.injEq] at length
    rcases ih before length with ⟨shared, branch, tail, isShared, leads, follows, rfl⟩ | only
    · refine .inl ⟨shared, branch, tail ++ [last], isShared, leads, ?_, append_assoc _ _ _⟩
      exact Path.append follows (.step depends (.here last))
    by_cases isShared : plan.Shared last
    · exact .inl ⟨last, front ++ [last], [], isShared, chain, .here last, (append_nil _).symm⟩
    · refine .inr fun other walk => ?_
      rcases Path.last walk with ⟨rfl, rfl⟩ | ⟨front', middle', rfl, before', depends'⟩
      · exact absurd (closed.acyclic last _ chain) (by simp)
      · have same : middle' = middle := by
          by_contra different
          exact isShared ⟨middle', middle, different, depends', depends⟩
        rw [same] at before'
        rw [only front' before']

theorem Plan.Closed.bounded_iff (closed : plan.Closed root) (shallow : plan.Shallow root) :
    plan.Bounded root ↔ plan.SharedBounded root := by
  constructor
  · intro bounded shared branch tail last _ leads follows
    have whole := bounded (branch ++ tail) last (Path.append leads follows)
    rw [length_append] at whole
    exact whole
  · intro bounded path last chain
    rcases closed.chain chain with ⟨shared, branch, tail, isShared, leads, follows, rfl⟩ | only
    · rw [length_append]
      exact bounded shared branch tail last isShared leads follows
    · have listed : last ∈ plan.ids := by
        rcases Path.last chain with ⟨rfl, rfl⟩ | ⟨_, _, rfl, _, depends⟩
        · exact mem_of_mem_head? closed.first
        · obtain ⟨action, among, _, dependency⟩ := dependenciesOf_mem depends
          exact closed.present action among last dependency
      obtain ⟨branch, walk, short⟩ := shallow last listed
      rw [← only branch walk]
      exact short

end Chains

/-- The limit bounds every chain of an accepted plan exactly when it bounds those through shared
actions. -/
theorem dependencyDepth_bounded_iff (toWriter : String → List UInt8) (object : Members)
    (passed : validatePlanActions toWriter object = .ok ()) :
    ∃ plan root, plan? object = some plan ∧ plan.ids.head? = some root ∧ (plan.Bounded root ↔ plan.SharedBounded root) := by
  obtain ⟨plan, root, _, accepted⟩ := validatePlanActions_ok passed
  exact ⟨plan, root, accepted.isPlan, accepted.first, accepted.closed.bounded_iff accepted.shallow⟩

theorem splitVerdicts_bounded : ∃ plan root, plan? splitVerdicts = some plan ∧ plan.ids.head? = some root ∧
    (plan.Bounded root ↔ plan.SharedBounded root) :=
  dependencyDepth_bounded_iff quoted splitVerdicts splitVerdicts_accepted

/-- The dependencies of an action in a chain of 64 that its first action and its last share. -/
def rejoined (number : Nat) : List Nat :=
  if number = 0 then [1, 64] else if number = 63 then [] else if number = 64 then [1] else [number + 1]

/-- The first action depends on the second and on the last, which depends on the second: the
walk enters the chain from the first. -/
def rejoinedChain : Members := samplePlan ((List.range 65).map fun number => sampleAction number (rejoined number) []) []

theorem rejoinedChain_accepted : validatePlanActions quoted rejoinedChain = .ok () := by decide +kernel

/-- Whether a list of vertices is a path. -/
def isPath (next : String → List String) : String → List String → Bool
  | _, [] => true
  | vertex, later :: path => (next vertex).contains later && isPath next later path

theorem isPath_leads {next : String → List String} {first : String} {path : List String} (holds : isPath next first path = true) :
    ∃ last, Path next first path last := by
  induction path generalizing first with
  | nil => exact ⟨first, .here first⟩
  | cons _ _ ih =>
    rw [isPath, Bool.and_eq_true] at holds
    obtain ⟨last, walk⟩ := ih holds.2
    exact ⟨last, .step (by simpa using holds.1) walk⟩

/-- The longer branch is not counted: 65 actions stand in one chain. -/
theorem rejoinedChain_unbounded : ¬ ∀ object, validatePlanActions quoted object = .ok () →
    ∃ plan root, plan? object = some plan ∧ plan.ids.head? = some root ∧ plan.Bounded root := by
  intro bounded
  obtain ⟨plan, root, isPlan, first, bounded⟩ := bounded rejoinedChain rejoinedChain_accepted
  have deep : (plan? rejoinedChain).all (fun plan => plan.ids.head?.all fun root =>
      isPath plan.dependenciesOf root (sampleId 64 :: (List.range 63).map fun number => sampleId (number + 1))) = true := by
    decide +kernel
  rw [isPlan, Option.all_some, first, Option.all_some] at deep
  obtain ⟨last, chain⟩ := isPath_leads deep
  have within : 65 ≤ 64 := bounded _ last chain
  exact absurd within (by decide)

end Opaal.Workflow
