import Mathlib.Data.List.Basic
import Mathlib.Data.Nat.Basic
import Mathlib.Order.Basic

/-!
# Resource budgets

Deterministic limits and counters for one evaluation.  A charge that would pass its limit
is refused and leaves the budget as it was.  The counters have no upper end here; those of
the code are 64 bits wide.
-/

namespace Opaal.Runtime

structure ResourceBudget where
  stepLimit : Option Nat
  usedSteps : Nat
  callDepthLimit : Option Nat
  callDepth : Nat
  peakCallDepth : Nat
  collectionItemLimit : Option Nat
  collectionItems : Nat
  collectionByteLimit : Option Nat
  collectionBytes : Nat

namespace ResourceBudget

/-- A budget that never runs out. -/
def unlimited : ResourceBudget := ⟨none, 0, none, 0, 0, none, 0, none, 0⟩

/-- A budget of exactly so many charges. -/
def steps (limit : Nat) : ResourceBudget := { unlimited with stepLimit := some limit }

/-- Whether a count is past a limit. -/
def exceeds (count : Nat) (limit : Option Nat) : Bool := limit.any fun limit => limit < count

/-- One step; steps are only counted against a limit. -/
def charge (budget : ResourceBudget) : Option ResourceBudget :=
  match budget.stepLimit with
  | none => some budget
  | some limit => if limit ≤ budget.usedSteps then none else some { budget with usedSteps := budget.usedSteps + 1 }

def chargeCollectionItems (amount : Nat) (budget : ResourceBudget) : Option ResourceBudget :=
  if exceeds (budget.collectionItems + amount) budget.collectionItemLimit then none
  else some { budget with collectionItems := budget.collectionItems + amount }

def chargeCollectionBytes (amount : Nat) (budget : ResourceBudget) : Option ResourceBudget :=
  if exceeds (budget.collectionBytes + amount) budget.collectionByteLimit then none
  else some { budget with collectionBytes := budget.collectionBytes + amount }

def enterCall (budget : ResourceBudget) : Option ResourceBudget :=
  if exceeds (budget.callDepth + 1) budget.callDepthLimit then none
  else some { budget with
    callDepth := budget.callDepth + 1
    peakCallDepth := max budget.peakCallDepth (budget.callDepth + 1) }

/-- Every entered call leaves exactly once; leaving without one is a panic. -/
def leaveCall (budget : ResourceBudget) : Option ResourceBudget :=
  match budget.callDepth with
  | 0 => none
  | depth + 1 => some { budget with callDepth := depth }

/-- No limit is set. -/
structure Unlimited (budget : ResourceBudget) : Prop where
  steps : budget.stepLimit = none
  calls : budget.callDepthLimit = none
  items : budget.collectionItemLimit = none
  bytes : budget.collectionByteLimit = none

def limits (budget : ResourceBudget) : Option Nat × Option Nat × Option Nat × Option Nat :=
  (budget.stepLimit, budget.callDepthLimit, budget.collectionItemLimit, budget.collectionByteLimit)

/-- As many calls are open as before, and every call entered in between was within the limit. -/
structure Balanced (before after : ResourceBudget) : Prop where
  limits : after.limits = before.limits
  depth : after.callDepth = before.callDepth
  grows : before.peakCallDepth ≤ after.peakCallDepth
  bounded : ∀ limit, before.callDepthLimit = some limit → after.peakCallDepth ≤ max before.peakCallDepth limit

variable {first second third : ResourceBudget}

theorem Unlimited.of_limits (free : first.Unlimited) (same : second.limits = first.limits) : second.Unlimited := by
  simp only [limits, free.steps, free.calls, free.items, free.bytes, Prod.mk.injEq] at same
  exact ⟨same.1, same.2.1, same.2.2.1, same.2.2.2⟩

theorem Balanced.unlimited (balanced : Balanced first second) (free : first.Unlimited) : second.Unlimited :=
  free.of_limits balanced.limits

theorem Balanced.of_eq (limits : second.limits = first.limits) (depth : second.callDepth = first.callDepth)
    (peak : second.peakCallDepth = first.peakCallDepth) : Balanced first second :=
  ⟨limits, depth, peak.ge, fun _ _ => peak.le.trans (Nat.le_max_left _ _)⟩

theorem Balanced.refl (budget : ResourceBudget) : Balanced budget budget := .of_eq rfl rfl rfl

theorem Balanced.trans (one : Balanced first second) (two : Balanced second third) : Balanced first third where
  limits := two.limits.trans one.limits
  depth := two.depth.trans one.depth
  grows := one.grows.trans two.grows
  bounded limit limited := by
    have early := one.bounded limit limited
    have late := two.bounded limit ((congrArg (·.2.1) one.limits).trans limited)
    omega

theorem enterCall_cases (entered : first.enterCall = some second) : second.limits = first.limits ∧
    second.callDepth = first.callDepth + 1 ∧ second.peakCallDepth = max first.peakCallDepth (first.callDepth + 1) ∧
      ∀ limit, first.callDepthLimit = some limit → first.callDepth + 1 ≤ limit := by
  unfold enterCall at entered
  split at entered
  · contradiction
  · next within =>
    cases entered
    refine ⟨rfl, rfl, rfl, ?_⟩
    intro limit limited
    simpa [exceeds, limited] using within

/-- What is balanced inside a call can leave it, and is balanced around it. -/
theorem Balanced.around (entered : first.enterCall = some second) (inside : Balanced second third) :
    ∃ left, third.leaveCall = some left ∧ Balanced first left := by
  obtain ⟨limits, depth, peak, within⟩ := enterCall_cases entered
  refine ⟨{ third with callDepth := first.callDepth }, ?_, inside.limits.trans limits, rfl, ?_, ?_⟩
  · unfold leaveCall
    rw [inside.depth, depth]
  · exact (peak ▸ Nat.le_max_left _ _ : first.peakCallDepth ≤ second.peakCallDepth).trans inside.grows
  · intro limit limited
    have bounded : third.peakCallDepth ≤ _ := inside.bounded limit ((congrArg (·.2.1) limits).trans limited)
    have below := within limit limited
    show third.peakCallDepth ≤ _
    omega

theorem enterCall_afforded (free : first.Unlimited) : first.enterCall ≠ none := by
  unfold enterCall exceeds
  rw [free.calls]
  simp

/-- A charge that an unlimited budget affords and that opens no call. -/
structure Gentle (charge : ResourceBudget → Option ResourceBudget) : Prop where
  afforded : ∀ budget, budget.Unlimited → charge budget ≠ none
  balanced : ∀ budget next, charge budget = some next → Balanced budget next

theorem gentle_charge : Gentle charge where
  afforded budget free := by
    unfold charge
    rw [free.steps]
    simp
  balanced budget next charged := by
    unfold charge at charged
    split at charged
    · cases charged
      exact .refl budget
    · split at charged
      · contradiction
      · cases charged
        exact .of_eq rfl rfl rfl

theorem gentle_items (amount : Nat) : Gentle (chargeCollectionItems amount) where
  afforded budget free := by
    unfold chargeCollectionItems exceeds
    rw [free.items]
    simp
  balanced budget next charged := by
    unfold chargeCollectionItems at charged
    split at charged
    · contradiction
    · cases charged
      exact .of_eq rfl rfl rfl

theorem gentle_bytes (amount : Nat) : Gentle (chargeCollectionBytes amount) where
  afforded budget free := by
    unfold chargeCollectionBytes exceeds
    rw [free.bytes]
    simp
  balanced budget next charged := by
    unfold chargeCollectionBytes at charged
    split at charged
    · contradiction
    · cases charged
      exact .of_eq rfl rfl rfl

end ResourceBudget

end Opaal.Runtime
