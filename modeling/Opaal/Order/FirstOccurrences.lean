import Mathlib.Data.List.Destutter

/-!
# First occurrences

The items of a list, each once and in the order in which they come first.  Dropping the
repetitions that follow each other gives them exactly when the occurrences of no item are
interrupted by another item.
-/

namespace Opaal.Order

open List

variable {α : Type} [DecidableEq α]

/-- The items of one list are those of another, each once, as they come first there. -/
structure FirstOccurrences (all firsts : List α) : Prop where
  nodup : firsts.Nodup
  mem_iff : ∀ item, item ∈ firsts ↔ item ∈ all
  ordered : firsts.Pairwise fun left right => all.idxOf left < all.idxOf right

/-- Between two occurrences of an item there is no other item. -/
def Uninterrupted (items : List α) : Prop :=
  ∀ (first between last : Nat) (item : α), first ≤ between → between ≤ last → items[first]? = some item → items[last]? = some item →
    items[between]? = some item

/-- Two lists with the same items, which come first in the same order. -/
structure SameFirsts (left right : List α) : Prop where
  mem_iff : ∀ item, item ∈ left ↔ item ∈ right
  ordered : ∀ first ∈ left, ∀ second ∈ left,
    left.idxOf first < left.idxOf second ↔ right.idxOf first < right.idxOf second

/-! ## Interruptions -/

omit [DecidableEq α] in
theorem uninterrupted_cons {item : α} {items : List α} :
    Uninterrupted (item :: items) ↔ Uninterrupted items ∧ (item ∈ items → items.head? = some item) := by
  constructor
  · intro whole
    constructor
    · intro first between last other start stop here there
      exact whole (first + 1) (between + 1) (last + 1) other (Nat.succ_le_succ start) (Nat.succ_le_succ stop) here there
    · intro listed
      obtain ⟨place, inside, here⟩ := getElem_of_mem listed
      have again : (item :: items)[place + 1]? = some item := by
        rw [List.getElem?_cons_succ, List.getElem?_eq_getElem inside, here]
      have next := whole 0 1 (place + 1) item (Nat.zero_le 1) (Nat.succ_le_succ (Nat.zero_le place)) rfl again
      rwa [List.getElem?_cons_succ, ← List.head?_eq_getElem?] at next
  · rintro ⟨later, head⟩ first between last other start stop here there
    cases between with
    | zero =>
      rwa [Nat.le_zero.mp start] at here
    | succ between =>
      obtain ⟨last, rfl⟩ : ∃ before, last = before + 1 := ⟨last - 1, by omega⟩
      cases first with
      | zero =>
        cases here
        have nextIs := head (mem_of_getElem? there)
        rw [List.head?_eq_getElem?] at nextIs
        exact later 0 between last item (Nat.zero_le between) (Nat.le_of_succ_le_succ stop) nextIs there
      | succ first => exact later first between last other (Nat.le_of_succ_le_succ start) (Nat.le_of_succ_le_succ stop) here there

/-! ## Dropping adjacent repetitions -/

theorem mem_destutter'_iff (first : α) (items : List α) (item : α) : item ∈ items.destutter' (· ≠ ·) first ↔ item ∈ first :: items := by
  induction items generalizing first with
  | nil => rw [destutter'_nil]
  | cons next items ih =>
    rw [destutter'_cons]
    split_ifs with other
    · rw [mem_cons, ih, mem_cons (l := next :: items)]
    · have same : first = next := not_not.mp other
      rw [ih, ← same]
      simp

/-- Nothing is left twice exactly when nothing was interrupted. -/
theorem nodup_destutter'_iff (first : α) (items : List α) :
    (items.destutter' (· ≠ ·) first).Nodup ↔ Uninterrupted (first :: items) := by
  induction items generalizing first with
  | nil =>
    rw [destutter'_nil, uninterrupted_cons]
    refine ⟨fun _ => ⟨?_, fun listed => nomatch listed⟩, fun _ => nodup_singleton first⟩
    intro first between last item _ _ here
    cases here
  | cons next items ih =>
    rw [destutter'_cons, uninterrupted_cons]
    split_ifs with other
    · rw [nodup_cons, mem_destutter'_iff, ih, List.head?_cons, Option.some_inj]
      exact ⟨fun ⟨absent, later⟩ => ⟨later, fun listed => (absent listed).elim⟩,
        fun ⟨later, head⟩ => ⟨fun listed => other (head listed).symm, later⟩⟩
    · have same : first = next := not_not.mp other
      rw [ih, same]
      exact ⟨fun later => ⟨later, fun _ => rfl⟩, fun ⟨later, _⟩ => later⟩

theorem ordered_destutter' (first : α) (items : List α) (nodup : (items.destutter' (· ≠ ·) first).Nodup) :
    (items.destutter' (· ≠ ·) first).Pairwise fun left right => (first :: items).idxOf left < (first :: items).idxOf right := by
  induction items generalizing first with
  | nil =>
    exact pairwise_singleton _ _
  | cons next items ih =>
    rw [destutter'_cons] at nodup ⊢
    split_ifs at nodup ⊢ with other
    · rw [nodup_cons] at nodup
      have different : ∀ item ∈ items.destutter' (· ≠ ·) next, first ≠ item := fun item listed same => nodup.1 (same ▸ listed)
      refine pairwise_cons.mpr ⟨fun item listed => ?_, ?_⟩
      · rw [idxOf_cons_self, idxOf_cons_ne _ (different item listed)]
        exact Nat.succ_pos _
      · refine (ih next nodup.2).imp_of_mem fun leftListed rightListed before => ?_
        rw [idxOf_cons_ne _ (different _ leftListed), idxOf_cons_ne _ (different _ rightListed)]
        exact Nat.succ_lt_succ before
    · have same : first = next := not_not.mp other
      subst same
      refine (ih first nodup).imp fun {left right} before => ?_
      by_cases start : first = left
      · subst start
        by_cases again : first = right
        · rw [again] at before
          exact absurd before (Nat.lt_irrefl _)
        · rw [idxOf_cons_self, idxOf_cons_ne _ again]
          exact Nat.succ_pos _
      · by_cases again : first = right
        · rw [again, idxOf_cons_self] at before
          exact absurd before (Nat.not_lt_zero _)
        · rw [idxOf_cons_ne _ start, idxOf_cons_ne _ again]
          exact Nat.succ_lt_succ before

/-! ## The condition -/

theorem nodup_destutter_iff (items : List α) : (items.destutter (· ≠ ·)).Nodup ↔ Uninterrupted items := by
  cases items with
  | nil =>
    refine ⟨fun _ first between last item _ _ here => ?_, fun _ => nodup_nil⟩
    cases here
  | cons first items => exact nodup_destutter'_iff first items

/-- What is left without repetitions are the first occurrences. -/
theorem firstOccurrences_destutter {items : List α} (nodup : (items.destutter (· ≠ ·)).Nodup) :
    FirstOccurrences items (items.destutter (· ≠ ·)) := by
  cases items with
  | nil => exact ⟨nodup, fun _ => Iff.rfl, List.Pairwise.nil⟩
  | cons first items => exact ⟨nodup, mem_destutter'_iff first items, ordered_destutter' first items nodup⟩

variable {all firsts : List α}

theorem FirstOccurrences.congr {other : List α} (occurrences : FirstOccurrences all firsts) (same : SameFirsts all other) :
    FirstOccurrences other firsts where
  nodup := occurrences.nodup
  mem_iff item := (occurrences.mem_iff item).trans (same.mem_iff item)
  ordered := occurrences.ordered.imp_of_mem fun left right before =>
    (same.ordered _ ((occurrences.mem_iff _).mp left) _ ((occurrences.mem_iff _).mp right)).mp before

theorem FirstOccurrences.before (occurrences : FirstOccurrences all firsts) {left right : α} (leftListed : left ∈ firsts)
    (rightListed : right ∈ firsts) (before : firsts.idxOf left < firsts.idxOf right) :
    all.idxOf left < all.idxOf right := by
  have leftInside := idxOf_lt_length_of_mem leftListed
  have rightInside := idxOf_lt_length_of_mem rightListed
  have listed := pairwise_iff_getElem.mp occurrences.ordered _ _ leftInside rightInside before
  rwa [getElem_idxOf, getElem_idxOf] at listed

/-- First occurrences are in the order of the list. -/
theorem FirstOccurrences.before_iff (occurrences : FirstOccurrences all firsts) {left right : α} (leftListed : left ∈ firsts)
    (rightListed : right ∈ firsts) :
    all.idxOf left < all.idxOf right ↔ firsts.idxOf left < firsts.idxOf right := by
  refine ⟨fun before => ?_, occurrences.before leftListed rightListed⟩
  rcases Nat.lt_trichotomy (firsts.idxOf left) (firsts.idxOf right) with earlier | same | later
  · exact earlier
  · rw [(idxOf_inj leftListed).mp same] at before
    exact absurd before (Nat.lt_irrefl _)
  · exact absurd (occurrences.before rightListed leftListed later) (Nat.lt_asymm before)

theorem sameFirsts_of_firstOccurrences {other : List α} (here : FirstOccurrences all firsts)
    (there : FirstOccurrences other firsts) : SameFirsts all other where
  mem_iff item := (here.mem_iff item).symm.trans (there.mem_iff item)
  ordered first firstListed second secondListed :=
    (here.before_iff ((here.mem_iff first).mpr firstListed) ((here.mem_iff second).mpr secondListed)).trans
      (there.before_iff ((here.mem_iff first).mpr firstListed) ((here.mem_iff second).mpr secondListed)).symm

/-- Dropping adjacent repetitions in one list gives the first occurrences in another. -/
theorem firstOccurrences_destutter_iff (all items : List α) :
    FirstOccurrences all (items.destutter (· ≠ ·)) ↔ Uninterrupted items ∧ SameFirsts items all := by
  constructor
  · intro occurrences
    have own := firstOccurrences_destutter occurrences.nodup
    exact ⟨(nodup_destutter_iff items).mp occurrences.nodup, sameFirsts_of_firstOccurrences own occurrences⟩
  · rintro ⟨uninterrupted, same⟩
    exact (firstOccurrences_destutter ((nodup_destutter_iff items).mpr uninterrupted)).congr same

end Opaal.Order
