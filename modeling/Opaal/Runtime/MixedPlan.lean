import Mathlib.Data.List.Range
import Opaal.Runtime.Value

/-!
# The topology of a mixed pipeline

A plan mixes stages the session runs itself with stages that are processes.  Its maximal
runs of internal stages are the segments, numbered in source order; what is left are the
external stages.  Every stage belongs to exactly one of them.
-/

namespace Opaal.Runtime

open List

inductive PlannedResolution where
  | internal (canonicalName : String)
  | external (path : NativePath)
deriving DecidableEq

def PlannedResolution.isInternal : PlannedResolution → Bool
  | .internal _ => true
  | .external _ => false

open PlannedResolution (isInternal)

/-- A maximal run of internal stages, from `start` up to but not including `stop`. -/
structure InternalSegment where
  ordinal : Nat
  start : Nat
  stop : Nat
deriving DecidableEq

def InternalSegment.stages (segment : InternalSegment) : List Nat :=
  List.range' segment.start (segment.stop - segment.start)

structure MixedTopology where
  internalSegments : List InternalSegment
  externalIndices : List Nat
deriving DecidableEq

/-- The segments with the one that is still open closed before `stop`. -/
def closeSegment (segments : List InternalSegment) (openSegment : Option Nat) (stop : Nat) : List InternalSegment :=
  match openSegment with
  | none => segments
  | some start => segments ++ [⟨segments.length, start, stop⟩]

def partitionStages : List PlannedResolution → Nat → Option Nat → List InternalSegment → List Nat →
    List InternalSegment × List Nat
  | [], index, openSegment, segments, externals => (closeSegment segments openSegment index, externals)
  | .internal _ :: stages, index, openSegment, segments, externals =>
    partitionStages stages (index + 1) (some (openSegment.getD index)) segments externals
  | .external _ :: stages, index, openSegment, segments, externals =>
    partitionStages stages (index + 1) none (closeSegment segments openSegment index) (externals ++ [index])

def mixedTopology (stages : List PlannedResolution) : Option MixedTopology :=
  let (segments, externals) := partitionStages stages 0 none [] []
  if segments ≠ [] ∧ externals ≠ [] then some ⟨segments, externals⟩ else none

/-! ## Every stage is in one part -/

/-- The positions, counted from `index`, of the stages for which `holds` is true. -/
def indicesOf (holds : PlannedResolution → Bool) : Nat → List PlannedResolution → List Nat
  | _, [] => []
  | index, stage :: stages =>
    if holds stage then index :: indicesOf holds (index + 1) stages else indicesOf holds (index + 1) stages

variable {index : Nat} {stages : List PlannedResolution} {segments : List InternalSegment} {openSegment : Option Nat}

theorem mem_indicesOf {holds : PlannedResolution → Bool} {position : Nat} :
    position ∈ indicesOf holds index stages ↔
      ∃ offset stage, position = index + offset ∧ stages[offset]? = some stage ∧ holds stage = true := by
  induction stages generalizing index with
  | nil => simp [indicesOf]
  | cons stage stages ih =>
    have later : position ∈ indicesOf holds (index + 1) stages ↔
        ∃ offset other, position = index + (offset + 1) ∧ stages[offset]? = some other ∧ holds other = true := by
      rw [ih]
      constructor
      all_goals
        rintro ⟨offset, other, rfl, found, held⟩
        exact ⟨offset, other, by omega, found, held⟩
    have split : (∃ offset other, position = index + offset ∧ (stage :: stages)[offset]? = some other ∧
        holds other = true) ↔ (position = index ∧ holds stage = true) ∨
          ∃ offset other, position = index + (offset + 1) ∧ stages[offset]? = some other ∧ holds other = true := by
      constructor
      · rintro ⟨offset, other, same, found, held⟩
        cases offset with
        | zero =>
          simp only [List.getElem?_cons_zero, Option.some.injEq] at found
          subst found
          exact .inl ⟨same, held⟩
        | succ offset => exact .inr ⟨offset, other, same, found, held⟩
      · rintro (⟨same, held⟩ | ⟨offset, other, same, found, held⟩)
        · exact ⟨0, stage, same, rfl, held⟩
        · exact ⟨offset + 1, other, same, found, held⟩
    have unfolded : indicesOf holds index (stage :: stages) =
        if holds stage then index :: indicesOf holds (index + 1) stages else indicesOf holds (index + 1) stages := rfl
    rw [split, ← later, unfolded]
    split
    · next held => simp [held]
    · next held => simp [held]

theorem indicesOf_perm (index : Nat) (stages : List PlannedResolution) :
    (indicesOf isInternal index stages ++
      indicesOf (fun stage => !stage.isInternal) index stages).Perm (List.range' index stages.length) := by
  induction stages generalizing index with
  | nil => exact List.Perm.refl _
  | cons stage _ ih =>
    cases stage with
    | internal => exact (ih (index + 1)).cons index
    | external => exact perm_middle.trans ((ih (index + 1)).cons index)

/-- The stages of the segment that is open. -/
def openStages (openSegment : Option Nat) (index : Nat) : List Nat :=
  match openSegment with
  | none => []
  | some start => List.range' start (index - start)

/-- What holds of the segments found so far. -/
structure Numbered (segments : List InternalSegment) : Prop where
  ordinals : ∀ (i : Nat) (segment : InternalSegment), segments[i]? = some segment → segment.ordinal = i
  nonempty : ∀ segment ∈ segments, segment.start < segment.stop

theorem closeSegment_stages (segments : List InternalSegment) (openSegment : Option Nat) (index : Nat) :
    (closeSegment segments openSegment index).flatMap InternalSegment.stages =
      segments.flatMap InternalSegment.stages ++ openStages openSegment index := by
  cases openSegment with
  | none => simp [closeSegment, openStages]
  | some => simp [closeSegment, openStages, InternalSegment.stages]

theorem closeSegment_numbered (numbered : Numbered segments) (begun : ∀ start, openSegment = some start → start < index) :
    Numbered (closeSegment segments openSegment index) := by
  cases openSegment with
  | none => exact numbered
  | some start =>
    constructor
    · intro i segment found
      unfold closeSegment at found
      rw [List.getElem?_append] at found
      split at found
      · exact numbered.ordinals i segment found
      · next beyond =>
        have first : i - segments.length = 0 := by
          by_contra later
          rw [List.getElem?_eq_none (by simp; omega)] at found
          contradiction
        rw [first] at found
        simp only [List.getElem?_cons_zero, Option.some.injEq] at found
        subst found
        show segments.length = i
        omega
    · intro segment listed
      rcases mem_append.mp listed with earlier | last
      · exact numbered.nonempty segment earlier
      · rw [mem_singleton.mp last]
        exact begun start rfl

theorem openStages_succ (begun : ∀ start, openSegment = some start → start < index) :
    openStages (some (openSegment.getD index)) (index + 1) = openStages openSegment index ++ [index] := by
  cases openSegment with
  | none =>
    show List.range' index (index + 1 - index) = [] ++ [index]
    rw [show index + 1 - index = 1 by omega]
    rfl
  | some start =>
    have before := begun start rfl
    show List.range' start (index + 1 - start) = List.range' start (index - start) ++ [index]
    rw [show index + 1 - start = (index - start) + 1 by omega, range'_concat, Nat.one_mul,
      show start + (index - start) = index by omega]

/-- The parts found so far and the stages still to come make up the parts of the whole. -/
theorem partitionStages_spec (stages : List PlannedResolution) (externals : List Nat) (numbered : Numbered segments)
    (begun : ∀ start, openSegment = some start → start < index) :
    let parts := partitionStages stages index openSegment segments externals
    parts.1.flatMap InternalSegment.stages = segments.flatMap InternalSegment.stages ++
      (openStages openSegment index ++ indicesOf isInternal index stages) ∧
    parts.2 = externals ++ indicesOf (fun stage => !stage.isInternal) index stages ∧ Numbered parts.1 := by
  induction stages generalizing index openSegment segments externals with
  | nil =>
    refine ⟨?_, ?_, closeSegment_numbered numbered begun⟩
    · simp [partitionStages, closeSegment_stages, indicesOf]
    · simp [partitionStages, indicesOf]
  | cons stage stages ih =>
    cases stage with
    | internal name =>
      have begunNext : ∀ start, some (openSegment.getD index) = some start → start < index + 1 := by
        intro start same
        cases openSegment with
        | none =>
          cases same
          show index < index + 1
          omega
        | some first =>
          cases same
          have before := begun first rfl
          show first < index + 1
          omega
      obtain ⟨internals, rest, named⟩ := ih externals numbered begunNext
      refine ⟨?_, rest, named⟩
      show (partitionStages stages (index + 1) (some (openSegment.getD index)) segments externals).1.flatMap
        InternalSegment.stages = _
      rw [internals, openStages_succ begun]
      simp [indicesOf, isInternal]
    | external path =>
      have closed := closeSegment_numbered numbered begun
      have fresh : ∀ start, (none : Option Nat) = some start → start < index + 1 := by
        intro start impossible
        contradiction
      obtain ⟨internals, rest, named⟩ := ih (externals ++ [index]) closed fresh
      refine ⟨?_, ?_, named⟩
      · show (partitionStages stages (index + 1) none (closeSegment segments openSegment index)
          (externals ++ [index])).1.flatMap InternalSegment.stages = _
        rw [internals, closeSegment_stages]
        simp [indicesOf, isInternal, openStages]
      · show (partitionStages stages (index + 1) none (closeSegment segments openSegment index)
          (externals ++ [index])).2 = _
        rw [rest]
        simp [indicesOf, isInternal]

/-- What a topology says of its plan. -/
structure TopologyOf (stages : List PlannedResolution) (topology : MixedTopology) : Prop where
  internals : topology.internalSegments.flatMap InternalSegment.stages =
    indicesOf isInternal 0 stages
  externals : topology.externalIndices = indicesOf (fun stage => !stage.isInternal) 0 stages
  numbered : Numbered topology.internalSegments

theorem mixedTopology_spec {topology : MixedTopology} (found : mixedTopology stages = some topology) : TopologyOf stages topology := by
  have empty : Numbered [] := ⟨by simp, by simp⟩
  have fresh : ∀ start, (none : Option Nat) = some start → start < 0 := by simp
  obtain ⟨internals, externals, numbered⟩ := partitionStages_spec stages [] empty fresh
  unfold mixedTopology at found
  simp only at found
  split at found
  · cases found
    exact ⟨by simpa [openStages] using internals, by simpa using externals, numbered⟩
  · contradiction

end Opaal.Runtime
