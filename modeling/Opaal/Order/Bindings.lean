import Mathlib.Data.List.Perm.Basic
import Mathlib.Data.List.Basic

/-!
# Names bound once

A name is bound by the first value required of it; what is required later is compared
with that.  Values are compared by an equivalence, which need not be equality.
-/

namespace Opaal.Order

open List

/-- What names are bound to. -/
abbrev Bindings (κ ν : Type) := κ → Option ν

namespace Bindings

variable {κ ν : Type} [DecidableEq κ]

def insert (bindings : Bindings κ ν) (name : κ) (value : ν) : Bindings κ ν :=
  fun other => if other = name then some value else bindings other

variable (bindings : Bindings κ ν)

theorem insert_self (name : κ) (value : ν) : bindings.insert name value name = some value :=
  if_pos rfl

theorem insert_other {name other : κ} (value : ν) (different : other ≠ name) :
    bindings.insert name value other = bindings other :=
  if_neg different

/-- Every binding is kept. -/
def Extends (start final : Bindings κ ν) : Prop := ∀ name value, start name = some value → final name = some value

omit [DecidableEq κ] in
theorem Extends.refl : Extends bindings bindings := fun _ _ bound => bound

omit [DecidableEq κ] in
theorem Extends.trans {first second third : Bindings κ ν} (left : Extends first second) (right : Extends second third) :
    Extends first third :=
  fun name value bound => right name value (left name value bound)

theorem Extends.insert {bindings : Bindings κ ν} {name : κ} (value : ν) (free : bindings name = none) :
    Extends bindings (bindings.insert name value) := by
  intro other kept bound
  have different : other ≠ name := by
    rintro rfl
    rw [free] at bound
    cases bound
  rw [insert_other bindings value different]
  exact bound

/-! ## Offers -/

/-- Binds a name that is free. -/
def offer (name : κ) (value : ν) (bindings : Bindings κ ν) : Bindings κ ν :=
  match bindings name with
  | some _ => bindings
  | none => bindings.insert name value

def offerAll : List (κ × ν) → Bindings κ ν → Bindings κ ν
  | [], bindings => bindings
  | (name, value) :: rest, bindings => offerAll rest (bindings.offer name value)

theorem offerAll_append (first second : List (κ × ν)) (bindings : Bindings κ ν) :
    offerAll (first ++ second) bindings = offerAll second (offerAll first bindings) := by
  induction first generalizing bindings with
  | nil => rfl
  | cons _ _ ih => exact ih _

/-- The first offer of a free name is the one that is taken. -/
theorem offerAll_lookup (offers : List (κ × ν)) (bindings : Bindings κ ν) (name : κ) :
    offerAll offers bindings name = (bindings name).or (offers.lookup name) := by
  induction offers generalizing bindings with
  | nil => exact (Option.or_none).symm
  | cons offered _ ih =>
    obtain ⟨other, value⟩ := offered
    rw [offerAll, ih, lookup_cons, offer]
    by_cases same : name = other
    · subst same
      rw [beq_self_eq_true]
      cases bound : bindings name with
      | some =>
        dsimp only
        rw [bound]
        rfl
      | none =>
        dsimp only
        rw [insert_self]
        rfl
    · rw [beq_eq_false_iff_ne.mpr same]
      cases bindings other with
      | some => rfl
      | none =>
        dsimp only
        rw [insert_other bindings value same]

/-! ## Requirements -/

section Requirements

variable [BEq ν]

/-- Binds a free name; a bound one is compared. -/
def require (name : κ) (value : ν) (bindings : Bindings κ ν) : Bool × Bindings κ ν :=
  match bindings name with
  | some previous => (previous == value, bindings)
  | none => (true, bindings.insert name value)

/-- The values required one after another, as long as none conflicts. -/
def requireAll : List (κ × ν) → Bindings κ ν → Option (Bindings κ ν)
  | [], bindings => some bindings
  | (name, value) :: rest, bindings =>
    match bindings.require name value with
    | (true, bindings) => requireAll rest bindings
    | (false, _) => none

theorem require_extends (name : κ) (value : ν) (bindings : Bindings κ ν) :
    Extends bindings (bindings.require name value).2 := by
  unfold require
  split
  · exact Extends.refl bindings
  · next free => exact Extends.insert value free

theorem requireAll_append (first second : List (κ × ν)) (bindings : Bindings κ ν) :
    requireAll (first ++ second) bindings = (requireAll first bindings).bind (requireAll second) := by
  induction first generalizing bindings with
  | nil => rfl
  | cons requirement _ ih =>
    rw [cons_append, requireAll, requireAll]
    split
    · exact ih _
    · rfl

variable {requirements : List (κ × ν)} {start final bindings : Bindings κ ν} {name : κ}

theorem requireAll_extends (bound : requireAll requirements start = some final) : Extends start final := by
  induction requirements generalizing start with
  | nil =>
    cases bound
    exact Extends.refl _
  | cons requirement _ ih =>
    obtain ⟨name, value⟩ := requirement
    have step := require_extends name value start
    rw [requireAll] at bound
    split at bound
    · next after required =>
      rw [required] at step
      exact step.trans (ih bound)
    · cases bound

variable [EquivBEq ν]

/-- What a name has to be bound to, when it is bound. -/
def Agrees (bindings : Bindings κ ν) (requirement : κ × ν) : Prop :=
  ∀ previous, bindings requirement.1 = some previous → (previous == requirement.2) = true

/-- Two requirements of one name are of one value. -/
def Consistent (first second : κ × ν) : Prop := first.1 = second.1 → (first.2 == second.2) = true

omit [DecidableEq κ] in
theorem Consistent.symm {first second : κ × ν} (consistent : Consistent first second) : Consistent second first :=
  fun same => BEq.symm (consistent same.symm)

omit [EquivBEq ν] in
/-- What agrees with a requirement and was there before agrees still, if it is consistent. -/
theorem agrees_insert {value : ν} (free : bindings name = none) (other : κ × ν) :
    Agrees (bindings.insert name value) other ↔ Agrees bindings other ∧ Consistent (name, value) other := by
  by_cases same : other.1 = name
  · constructor
    · intro agrees
      have equal := agrees value (by rw [same]; exact insert_self bindings name value)
      refine ⟨fun previous bound => ?_, fun _ => equal⟩
      rw [same, free] at bound
      cases bound
    · rintro ⟨_, consistent⟩ previous bound
      rw [same, insert_self] at bound
      cases bound
      exact consistent same.symm
  · unfold Agrees
    rw [insert_other bindings value same]
    exact ⟨fun agrees => ⟨agrees, fun equal => absurd equal.symm same⟩, fun both => both.1⟩

omit [DecidableEq κ] in
/-- A name that is bound agrees with what it was compared with. -/
theorem consistent_of_bound {value previous : ν} (bound : bindings name = some previous) (equal : (previous == value) = true)
    {other : κ × ν} (agrees : Agrees bindings other) : Consistent (name, value) other := by
  intro same
  have here : bindings other.1 = some previous := by rw [← same]; exact bound
  exact BEq.trans (BEq.symm equal) (agrees previous here)

/-- Requirements are met when they agree with what is bound and with each other. -/
theorem requireAll_isSome_iff (requirements : List (κ × ν)) (start : Bindings κ ν) :
    (requireAll requirements start).isSome = true ↔
      (∀ requirement ∈ requirements, Agrees start requirement) ∧ requirements.Pairwise Consistent := by
  induction requirements generalizing start with
  | nil => simp [requireAll]
  | cons requirement _ ih =>
    obtain ⟨name, value⟩ := requirement
    rw [requireAll, pairwise_cons, forall_mem_cons]
    cases bound : start name with
    | some previous =>
      have required : start.require name value = (previous == value, start) := by
        unfold require
        rw [bound]
      rw [required]
      cases equal : previous == value with
      | true =>
        have first : Agrees start (name, value) := by
          intro other there
          rw [bound] at there
          cases there
          exact equal
        rw [ih]
        constructor
        · rintro ⟨agrees, consistent⟩
          exact ⟨⟨first, agrees⟩, fun other listed => consistent_of_bound bound equal (agrees other listed), consistent⟩
        · rintro ⟨⟨_, agrees⟩, _, consistent⟩
          exact ⟨agrees, consistent⟩
      | false =>
        refine iff_of_false Bool.false_ne_true ?_
        rintro ⟨⟨agrees, _⟩, _⟩
        rw [agrees previous bound] at equal
        cases equal
    | none =>
      have required : start.require name value = (true, start.insert name value) := by
        unfold require
        rw [bound]
      rw [required]
      rw [ih]
      have first : Agrees start (name, value) := by
        intro previous there
        rw [bound] at there
        cases there
      constructor
      · rintro ⟨agrees, consistent⟩
        have both := fun other listed => (agrees_insert bound other).mp (agrees other listed)
        exact ⟨⟨first, fun other listed => (both other listed).1⟩, fun other listed => (both other listed).2, consistent⟩
      · rintro ⟨⟨_, agrees⟩, apart, consistent⟩
        exact ⟨fun other listed => (agrees_insert bound other).mpr ⟨agrees other listed, apart other listed⟩, consistent⟩

/-- Afterwards every requirement is bound to what it asks for. -/
theorem requireAll_binds (bound : requireAll requirements start = some final) {requirement : κ × ν}
    (listed : requirement ∈ requirements) :
    ∃ value, final requirement.1 = some value ∧ (value == requirement.2) = true := by
  induction requirements generalizing start with
  | nil => cases listed
  | cons first _ ih =>
    obtain ⟨name, value⟩ := first
    rw [requireAll] at bound
    split at bound
    · next after required =>
      rcases mem_cons.mp listed with rfl | later
      · have kept := requireAll_extends bound
        unfold require at required
        split at required
        · next previous there =>
          obtain ⟨equal, rfl⟩ := Prod.mk.inj required
          exact ⟨previous, kept name previous there, equal⟩
        · cases required
          exact ⟨value, kept name value (insert_self start name value), BEq.rfl⟩
      · exact ih bound later
    · cases bound

omit [EquivBEq ν] in
/-- A name that nothing is required of keeps what it had. -/
theorem requireAll_other (bound : requireAll requirements start = some final)
    (unlisted : ∀ requirement ∈ requirements, requirement.1 ≠ name) :
    final name = start name := by
  induction requirements generalizing start with
  | nil =>
    cases bound
    rfl
  | cons first _ ih =>
    obtain ⟨_, value⟩ := first
    rw [forall_mem_cons] at unlisted
    rw [requireAll] at bound
    split at bound
    · next after required =>
      rw [ih bound unlisted.2]
      unfold require at required
      split at required
      · obtain ⟨_, rfl⟩ := Prod.mk.inj required
        rfl
      · obtain ⟨_, rfl⟩ := Prod.mk.inj required
        exact insert_other start value unlisted.1.symm
    · cases bound

/-- The order of requirements decides neither whether they are met nor, up to the
equivalence, what is bound. -/
theorem requireAll_perm {first second : List (κ × ν)} (perm : first.Perm second) (start : Bindings κ ν) :
    (requireAll first start).isSome = (requireAll second start).isSome ∧
      ∀ left right, requireAll first start = some left → requireAll second start = some right →
        ∀ name, (left name == right name) = true := by
  constructor
  · rw [Bool.eq_iff_iff, requireAll_isSome_iff, requireAll_isSome_iff,
      perm.pairwise_iff fun consistent => consistent.symm]
    simp [perm.mem_iff]
  · intro left right boundLeft boundRight name
    by_cases listed : ∃ requirement ∈ first, requirement.1 = name
    · obtain ⟨requirement, there, rfl⟩ := listed
      obtain ⟨_, isLeft, equalLeft⟩ := requireAll_binds boundLeft there
      obtain ⟨_, isRight, equalRight⟩ := requireAll_binds boundRight (perm.mem_iff.mp there)
      rw [isLeft, isRight, Option.some_beq_some]
      exact BEq.trans equalLeft (BEq.symm equalRight)
    · have unlisted : ∀ requirement ∈ first, requirement.1 ≠ name := fun requirement there same =>
        listed ⟨requirement, there, same⟩
      rw [requireAll_other boundLeft unlisted,
        requireAll_other boundRight fun requirement there => unlisted requirement (perm.mem_iff.mpr there)]
      cases start name with
      | none => rfl
      | some => exact BEq.rfl

end Requirements

end Bindings

end Opaal.Order
