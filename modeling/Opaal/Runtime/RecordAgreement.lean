import Opaal.Runtime.RecordOperations

/-!
# Operations on records agree with their definitions

Merging assigns the entries of one record to another, one after the other, and selecting looks every
key up.  The sorted index finds what a linear search finds.
-/

namespace Opaal.Runtime

open Opaal.Machine List
open Opaal.Syntax (Span)
open ListOperations (ListInput ListState stableLe keyOrdering Comparable)
open Evaluation (evaluation)
open Evaluation

variable {F C : Type}

section Rules

variable {reads : ListInput} {state : ListState} {free : Prop} {length : Nat} {refused : String → String → Prop} {span : Span}
  {operation : String} {keys : List String}

/-! ## Work on keys -/

theorem recordCompare_runs (left right : String) : Runs (evaluation reads free length refused) (recordCompare span left right) reads state
    fun ordering _ => ordering = compare (utf8 left) (utf8 right) := by
  apply visited
  intro after
  exact lifted_runs (ListOperations.compareKeyBytes_runs _ _)

theorem compare_utf8_eq {left right : String} : compare (utf8 left) (utf8 right) = .eq ↔ left = right := by
  constructor
  · intro equal
    exact utf8_injective (Std.LawfulEqOrd.eq_of_compare equal)
  · rintro rfl
    exact Std.ReflCmp.compare_self

variable (key : String)

theorem recordPosition_runs : Runs (evaluation reads free length refused) (recordPosition span key keys) reads state
    fun position _ => position = keys.idxOf? key := by
  induction keys generalizing state with
  | nil => exact .pure rfl
  | cons candidate _ ih =>
    refine (recordCompare_runs candidate key).bind ?_
    rintro _ _ _ rfl
    rw [List.idxOf?_cons]
    by_cases same : candidate = key
    · rw [if_pos (compare_utf8_eq.mpr same), if_pos (by simpa using same)]
      exact .pure rfl
    · rw [if_neg fun equal => same (compare_utf8_eq.mp equal), if_neg (by simpa using same)]
      refine ih.bind ?_
      rintro _ _ _ rfl
      exact .pure rfl

theorem retainRecordItem_runs : Runs (evaluation reads free length refused) (retainRecordItem span) reads state fun _ _ => True := by
  refine checkCancel_runs.bind ?_
  intro _ _ _ _
  exact lifted_runs (ListOperations.spend_runs (ResourceBudget.gentle_items 1))

theorem retainRecordKey_runs :
    Runs (evaluation reads free length refused) (retainRecordKey span key) reads state fun _ _ => True := by
  unfold retainRecordKey
  induction (utf8 key).toChunks ListOperations.keyChunkSize generalizing state with
  | nil => exact Runs.pure trivial
  | cons _ _ ih =>
    apply visited
    intro after
    refine Evaluation.retainCollectionBytes_runs.bind ?_
    intro _ _ _ _
    exact ih

theorem copyRecordEntry_runs {output : List (String × Value F C)} {key : String} {value : Value F C} :
    Runs (evaluation reads free length refused) (copyRecordEntry span output key value) reads state
      fun result _ => result = output ++ [(key, value)] := by
  apply visited
  intro after
  refine (retainRecordKey_runs key).bind ?_
  intro _ _ _ _
  refine retainRecordItem_runs.bind ?_
  intro _ _ _ _
  exact .pure rfl

variable {count : Nat} {positions sorted : List Nat}

theorem recordWorkspace_runs {size : Nat} (fits : count * size ≤ length * max 16 reads.sizeOfValue) :
    Runs (evaluation reads free length refused) (recordWorkspace span count size) reads state fun _ _ => True := by
  have retained (middle : ListState) : Runs (ListOperations.discipline reads free length fun _ => False)
      (ListOperations.retainElements count size span) reads middle fun _ _ => True := by
    unfold ListOperations.retainElements
    split
    · next overflows => exact Runs.throw (.inl (.inr (.inr (Nat.le_trans overflows fits))))
    · exact ListOperations.spend_runs (ResourceBudget.gentle_bytes _)
  refine checkCancel_runs.bind ?_
  intro _ _ _ _
  refine (lifted_runs (retained _)).bind ?_
  intro _ _ _ _
  exact lifted_runs ListOperations.tryReserveExact_runs

/-- Room for entries takes that of two values each. -/
theorem entryWorkspace_runs (fits : 2 * count ≤ length) :
    Runs (evaluation reads free length refused) (entryWorkspace span count) reads state fun _ _ => True := by
  have room : count * (16 + reads.sizeOfValue) ≤ length * max 16 reads.sizeOfValue := by
    have sizes : 16 + reads.sizeOfValue ≤ 2 * max 16 reads.sizeOfValue := by omega
    calc count * (16 + reads.sizeOfValue) ≤ count * (2 * max 16 reads.sizeOfValue) := Nat.mul_le_mul_left _ sizes
      _ = 2 * count * max 16 reads.sizeOfValue := by rw [← Nat.mul_assoc, Nat.mul_comm count 2]
      _ ≤ length * max 16 reads.sizeOfValue := Nat.mul_le_mul_right _ fits
  refine .reads (rfl : _ = EStateM.Result.ok reads _) ?_
  exact recordWorkspace_runs room

theorem indexWorkspace_runs (fits : count ≤ length) :
    Runs (evaluation reads free length refused) (recordWorkspace span count 8) reads state fun _ _ => True :=
  recordWorkspace_runs (Nat.mul_le_mul fits (by omega))

theorem visitEach_runs (count : Nat) : Runs (evaluation reads free length refused) (visitEach span count) reads state fun _ _ => True := by
  induction count generalizing state with
  | zero => exact .pure trivial
  | succ _ ih =>
    apply visited
    intro after
    exact ih

/-! ## Sorted positions -/

/-- The key of the first position comes first, or they are equal and the position does. -/
def Precedes (keys : List String) (first second : Nat) : Prop :=
  ∃ a b, keys[first]? = some a ∧ keys[second]? = some b ∧ (compare (utf8 a) (utf8 b) = .lt ∨ a = b ∧ first < second)

variable {first second third : Nat}

/-- Equal keys keep the order of their positions. -/
theorem Precedes.before (precedes : Precedes keys first second) (same : keys[first]? = keys[second]?) : first < second := by
  obtain ⟨a, b, left, right, less | ⟨_, before⟩⟩ := precedes
  · rw [left, right, Option.some.injEq] at same
    rw [compare_utf8_eq.mpr same] at less
    contradiction
  · exact before

theorem Precedes.not_after {a b : String} (precedes : Precedes keys first second) (left : keys[first]? = some a)
    (right : keys[second]? = some b) : compare (utf8 b) (utf8 a) ≠ .lt := by
  obtain ⟨_, _, left', right', below⟩ := precedes
  cases left.symm.trans left'
  cases right.symm.trans right'
  rcases below with less | ⟨rfl, _⟩
  · rw [@Std.OrientedCmp.eq_swap _ compare, less]
    decide
  · rw [compare_utf8_eq.mpr rfl]
    decide

/-- A key that comes before another one comes before all that follow. -/
theorem Precedes.apart (one : Precedes keys first second) (two : Precedes keys second third) (different : keys[first]? ≠ keys[second]?) :
    keys[first]? ≠ keys[third]? := by
  obtain ⟨a, b, left, middle, less | ⟨same, _⟩⟩ := one
  · obtain ⟨_, _, middle', right, below⟩ := two
    cases middle.symm.trans middle'
    intro equal
    rw [left, right, Option.some.injEq] at equal
    subst equal
    exact Precedes.not_after ⟨b, a, middle, right, below⟩ middle right less
  · exact absurd (by rw [left, middle, same]) different

theorem stringKeys_comparable (keys : List String) : Comparable (stringKeys keys) := by
  intro a left b right
  obtain ⟨_, _, rfl⟩ := mem_map.mp left
  obtain ⟨_, _, rfl⟩ := mem_map.mp right
  exact ⟨_, rfl⟩

theorem precedes_of_stableLe (inside : first < keys.length) (inside' : second < keys.length)
    (different : first ≠ second) (ordered : stableLe (stringKeys keys) first second) : Precedes keys first second := by
  have left := List.getElem?_eq_getElem inside
  have right := List.getElem?_eq_getElem inside'
  have compared : keyOrdering (stringKeys keys) first second = compare (utf8 keys[first]) (utf8 keys[second]) := by
    unfold keyOrdering stringKeys
    rw [List.getElem?_map, List.getElem?_map, left, right]
    rfl
  refine ⟨_, _, left, right, ?_⟩
  unfold stableLe at ordered
  rw [compared] at ordered
  cases decided : compare (utf8 keys[first]) (utf8 keys[second]) with
  | lt => exact .inl rfl
  | eq =>
    rw [decided, Ordering.eq_then, Nat.isLE_compare] at ordered
    exact .inr ⟨compare_utf8_eq.mp decided, by omega⟩
  | gt =>
    rw [decided] at ordered
    contradiction

theorem sortedRecordIndices_runs (fits : keys.length ≤ length) :
    Runs (evaluation reads free length refused) (sortedRecordIndices span keys) reads state fun positions _ =>
      positions.Perm (List.range keys.length) ∧ positions.Pairwise (Precedes keys) := by
  refine (indexWorkspace_runs fits).bind ?_
  intro _ _ _ _
  refine (visitEach_runs _).bind ?_
  intro _ _ _ _
  by_cases few : keys.length < 2
  · rw [if_pos few]
    refine .pure ⟨.refl _, ?_⟩
    have cases : keys.length = 0 ∨ keys.length = 1 := by omega
    rcases cases with none | one
    · rw [none]
      exact .nil
    · rw [one]
      exact pairwise_singleton _ _
  · rw [if_neg few]
    refine (indexWorkspace_runs fits).bind ?_
    intro _ _ _ _
    refine (visitEach_runs _).bind ?_
    intro _ _ _ _
    refine (lifted_runs (ListOperations.mergePasses_runs (stringKeys_comparable keys) _ _ ?_)).mono ?_
    · intro position listed
      rw [stringKeys, length_map]
      exact mem_range.mp listed
    · rintro positions _ _ rfl
      obtain ⟨perm, ordered⟩ := ListOperations.bottomUp_stable (stringKeys_comparable keys) keys.length
      refine ⟨perm, ?_⟩
      have distinct := perm.nodup_iff.mpr nodup_range
      apply (ordered.and distinct).imp_of_mem
      intro first second left right ⟨below, different⟩
      exact precedes_of_stableLe (mem_range.mp (perm.mem_iff.mp left)) (mem_range.mp (perm.mem_iff.mp right))
        different below

/-! ## Selecting -/

theorem requestedKeys_runs {requested : List (Value F C)}
    (allowed : (∃ value ∈ requested, ∀ key, value ≠ .string key) → refused operation "requested keys must be Strings") :
    Runs (evaluation reads free length refused) (requestedKeys operation span requested) reads state
      fun keys _ => requested = keys.map .string := by
  induction requested generalizing state with
  | nil => exact .pure rfl
  | cons value requested ih =>
    apply visited
    intro after
    have others : (∃ value ∈ requested, ∀ key, value ≠ .string key) → refused operation "requested keys must be Strings" := by
      rintro ⟨other, listed, different⟩
      exact allowed ⟨other, mem_cons_of_mem _ listed, different⟩
    cases value with
    | string =>
      refine (ih others).bind ?_
      rintro keys _ _ rfl
      exact .pure rfl
    | _ => exact .throw (allowed ⟨_, mem_cons_self, fun _ => nofun⟩)

/-- The requests pass when no two neighbours are equal, and then no two keys are. -/
theorem checkRequests_runs (inside : ∀ position ∈ positions, position < keys.length)
    (ordered : positions.Pairwise (Precedes keys))
    (allowed : ∀ (first second : Nat) (key : String), first < second → keys[first]? = some key → keys[second]? = some key → refused operation ("repeated requested key " ++ recordKeyExcerpt key)) :
    Runs (evaluation reads free length refused) (checkRequests operation span keys positions) reads state fun _ _ =>
      positions.Pairwise fun first second => keys[first]? ≠ keys[second]? := by
  induction positions generalizing state with
  | nil => exact .pure .nil
  | cons first more ih =>
    obtain ⟨below, ordered'⟩ := pairwise_cons.mp ordered
    cases more with
    | nil => exact .pure (pairwise_singleton _ _)
    | cons second =>
      have bound := inside first mem_cons_self
      have bound' := inside second (mem_cons_of_mem _ mem_cons_self)
      have left := List.getElem?_eq_getElem bound
      have right := List.getElem?_eq_getElem bound'
      refine (index_runs right).bind ?_
      rintro _ _ _ rfl
      refine (index_runs left).bind ?_
      rintro _ _ _ rfl
      refine (recordCompare_runs _ _).bind ?_
      rintro _ _ _ rfl
      by_cases equal : keys[first] = keys[second]
      · rw [if_pos (compare_utf8_eq.mpr equal)]
        have same : keys[first]? = keys[second]? := by rw [left, right, equal]
        have before := (below second mem_cons_self).before same
        exact .throw (allowed first second _ before (same.trans right) right)
      · rw [if_neg fun same => equal (compare_utf8_eq.mp same)]
        refine (ih (fun position listed => inside position (mem_cons_of_mem _ listed)) ordered').mono ?_
        intro _ _ _ distinct
        have different : keys[first]? ≠ keys[second]? := by
          rw [left, right, ne_eq, Option.some.injEq]
          exact equal
        refine pairwise_cons.mpr ⟨?_, distinct⟩
        intro third listed
        rcases mem_cons.mp listed with rfl | later
        · exact different
        · exact (below second mem_cons_self).apart ((pairwise_cons.mp ordered').1 third later) different

/-- Keys that stand at different positions once sorted are different. -/
theorem nodup_of_distinct (perm : positions.Perm (List.range keys.length))
    (distinct : positions.Pairwise fun first second => keys[first]? ≠ keys[second]?) : keys.Nodup := by
  have ranged : (List.range keys.length).Pairwise fun first second => keys[first]? ≠ keys[second]? :=
    perm.pairwise distinct fun different => different.symm
  rw [pairwise_iff_getElem] at ranged
  unfold List.Nodup
  rw [pairwise_iff_getElem]
  intro first second inside inside' before
  have different := ranged first second (by simpa using inside) (by simpa using inside') before
  rw [getElem_range, getElem_range, List.getElem?_eq_getElem inside, List.getElem?_eq_getElem inside', ne_eq,
    Option.some.injEq] at different
  exact different

/-! ### The binary search -/

/-- Where a key is, if it is anywhere among the sorted positions, and what was found otherwise. -/
def Located (keys : List String) (sorted : List Nat) (key : String) : Option Nat → Prop
  | some found => keys[found]? = some key
  | none => ∀ position ∈ sorted, keys[position]? ≠ some key

/-- The key is between the bounds or nowhere. -/
structure Between (keys : List String) (sorted : List Nat) (key : String) (bounds : Nat × Nat) : Prop where
  inside : bounds.2 ≤ sorted.length
  between : ∀ (place position : Nat), sorted[place]? = some position → keys[position]? = some key → bounds.1 ≤ place ∧ place < bounds.2

theorem precedes_at {place place' : Nat} (ordered : sorted.Pairwise (Precedes keys)) (left : sorted[place]? = some first)
    (right : sorted[place']? = some second) (before : place < place') : Precedes keys first second := by
  obtain ⟨inside, rfl⟩ := List.getElem?_eq_some_iff.mp left
  obtain ⟨inside', rfl⟩ := List.getElem?_eq_some_iff.mp right
  exact pairwise_iff_getElem.mp ordered place place' inside inside' before

theorem searchTurn_runs {key : String} {bounds : Nat × Nat} (ordered : sorted.Pairwise (Precedes keys))
    (known : ∀ position ∈ sorted, position < keys.length) (between : Between keys sorted key bounds) :
    Runs (evaluation reads free length refused) (searchTurn span keys sorted key bounds) reads state fun turn _ =>
      turn.Lowers (Between keys sorted key) (fun bounds => bounds.2 - bounds.1) (Located keys sorted key) bounds := by
  obtain ⟨low, high⟩ := bounds
  obtain ⟨inside, between⟩ := between
  unfold searchTurn
  dsimp only
  by_cases more : low < high
  · rw [if_pos more]
    obtain ⟨middle, isMiddle⟩ : ∃ middle, middle = low + (high - low) / 2 := ⟨_, rfl⟩
    rw [← isMiddle]
    have bound : middle < sorted.length := by omega
    have entry := List.getElem?_eq_getElem bound
    have known' := known sorted[middle] (getElem_mem bound)
    have candidate := List.getElem?_eq_getElem known'
    refine (index_runs entry).bind ?_
    rintro _ _ _ rfl
    refine (index_runs candidate).bind ?_
    rintro _ _ _ rfl
    refine (recordCompare_runs _ _).bind ?_
    rintro _ _ _ rfl
    cases decided : compare (utf8 keys[sorted[middle]]) (utf8 key) with
    | eq =>
      have same := compare_utf8_eq.mp decided
      exact .pure (by rw [← same]; exact candidate)
    | lt =>
      refine .pure ⟨⟨inside, ?_⟩, by dsimp only; omega⟩
      intro place position listed isKey
      refine ⟨?_, (between place position listed isKey).2⟩
      by_contra before
      rcases Nat.lt_or_eq_of_le (Nat.le_of_not_lt before) with earlier | rfl
      · exact (precedes_at ordered listed entry earlier).not_after isKey candidate decided
      · cases entry.symm.trans listed
        rw [candidate, Option.some.injEq] at isKey
        rw [compare_utf8_eq.mpr isKey] at decided
        contradiction
    | gt =>
      refine .pure ⟨⟨by dsimp only; omega, ?_⟩, by dsimp only; omega⟩
      intro place position listed isKey
      refine ⟨(between place position listed isKey).1, ?_⟩
      have less : compare (utf8 key) (utf8 keys[sorted[middle]]) = .lt := by
        rw [@Std.OrientedCmp.eq_swap _ compare, decided]
        rfl
      by_contra behind
      rcases Nat.lt_or_eq_of_le (Nat.le_of_not_lt behind) with later | rfl
      · exact (precedes_at ordered entry listed later).not_after candidate isKey less
      · cases entry.symm.trans listed
        rw [candidate, Option.some.injEq] at isKey
        rw [compare_utf8_eq.mpr isKey] at decided
        contradiction
  · rw [if_neg more]
    refine .pure ?_
    intro position listed isKey
    obtain ⟨place, _, listed⟩ := mem_iff_getElem.mp listed
    have := between place position (by rw [List.getElem?_eq_some_iff]; exact ⟨_, listed⟩) isKey
    omega

theorem searchSorted_runs (perm : sorted.Perm (List.range keys.length)) (ordered : sorted.Pairwise (Precedes keys)) :
    Runs (evaluation reads free length refused) (searchSorted span keys sorted key) reads state fun found _ =>
      match found with
      | some found => keys[found]? = some key
      | none => key ∉ keys := by
  have known : ∀ position ∈ sorted, position < keys.length := fun position listed => mem_range.mp (perm.mem_iff.mp listed)
  have all : Between keys sorted key (0, sorted.length) := by
    refine ⟨Nat.le_refl _, ?_⟩
    intro place position listed _
    exact ⟨Nat.zero_le _, (List.getElem?_eq_some_iff.mp listed).1⟩
  have located : Runs (evaluation reads free length refused) (searchSorted span keys sorted key) reads state
      fun found _ => Located keys sorted key found := by
    apply Runs.repeatFrom_smaller (fun _ _ between => searchTurn_runs ordered known between) (Nat.lt_succ_self _) all
  refine located.mono ?_
  intro found _ _ located
  cases found with
  | some => exact located
  | none =>
    intro listed
    obtain ⟨position, inside, isKey⟩ := mem_iff_getElem.mp listed
    apply located position (perm.mem_iff.mpr (mem_range.mpr inside))
    rw [List.getElem?_eq_getElem inside, isKey]

/-- The sorted index finds a key where a linear search does. -/
theorem indexed_eq_linear (unique : keys.Nodup) (found : Option Nat)
    (indexed : match found with | some found => keys[found]? = some key | none => key ∉ keys) : found = keys.idxOf? key := by
  cases found with
  | none => exact (List.idxOf?_eq_none_iff.mpr indexed).symm
  | some found =>
    obtain ⟨inside, isKey⟩ := List.getElem?_eq_some_iff.mp indexed
    rw [eq_comm, List.idxOf?_eq_some_iff]
    refine ⟨inside, isKey, ?_⟩
    intro earlier before isKey'
    have same := (List.Nodup.getElem_inj_iff unique).mp (isKey'.trans isKey.symm)
    omega

section Entries

variable {input : List (String × Value F C)} {output : List (String × Value F C)}

theorem selectEntries_runs {sorted : List Nat} (unique : (input.map Prod.fst).Nodup)
    (perm : sorted.Perm (List.range (input.map Prod.fst).length)) (ordered : sorted.Pairwise (Precedes (input.map Prod.fst)))
    (allowed : ∀ key ∈ keys, key ∉ input.map Prod.fst → refused operation ("missing requested key " ++ recordKeyExcerpt key)) :
    Runs (evaluation reads free length refused) (selectEntries operation span input sorted keys output) reads state fun result _ =>
      ∃ fields, Order.selected input keys = some fields ∧ result = output ++ fields := by
  induction keys generalizing output state with
  | nil => exact .pure ⟨[], rfl, (append_nil _).symm⟩
  | cons key _ ih =>
    apply visited
    intro after
    refine (searchSorted_runs key perm ordered).bind ?_
    intro found _ _ located
    cases found with
    | none => exact .throw (allowed key mem_cons_self located)
    | some found =>
      have isKey : (input.map Prod.fst)[found]? = some key := located
      rw [List.getElem?_map, Option.map_eq_some_iff] at isKey
      obtain ⟨⟨_, _⟩, listed, rfl⟩ := isKey
      refine (index_runs listed).bind ?_
      rintro _ _ _ rfl
      refine copyRecordEntry_runs.bind ?_
      rintro _ _ _ rfl
      refine (ih fun other requested => allowed other (mem_cons_of_mem _ requested)).mono ?_
      rintro result _ _ ⟨_, others, rfl⟩
      have value' := Order.lookup_getElem unique listed
      exact ⟨_, Order.selected_cons value' others, by rw [append_assoc]; rfl⟩

end Entries

end Rules

end Opaal.Runtime
