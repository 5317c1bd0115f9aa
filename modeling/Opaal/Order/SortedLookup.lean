import Mathlib.Data.List.Lex
import Mathlib.Data.List.Nodup
import Mathlib.Order.Compare
import Mathlib.Order.Lattice

/-!
# Lookup in a sorted list

A list is sorted by a key, searched for neighbours with one key and, if there are none, looked
up by halving.  All of it comes to what a search from the front finds, so that the order of the
list does not matter.
-/

namespace Opaal.Order

open List

variable {α κ : Type} {items others : List α}

/-! ## Halving -/

/-- Where the half of `size` items from `base` that is kept begins. -/
def keptHalf (compareWith : α → Ordering) (items : List α) (base size : Nat) : Nat :=
  let middle := base + size / 2
  if (items[middle]?).map compareWith = some .gt then base else middle

/-- The index that is left when a half is dropped again and again. -/
def narrow (compareWith : α → Ordering) (items : List α) (base size : Nat) : Nat :=
  if 1 < size then narrow compareWith items (keptHalf compareWith items base size) (size - size / 2) else base
termination_by size

/-- The index of an item that compares equal. -/
def binarySearchBy (compareWith : α → Ordering) (items : List α) : Option Nat :=
  let base := narrow compareWith items 0 items.length
  if (items[base]?).map compareWith = some .eq then some base else none

section Halving

variable {compareWith : α → Ordering}

/-- What comes after an item that is not too small is too great. -/
def Ascends (compareWith : α → Ordering) (items : List α) : Prop :=
  items.Pairwise fun first second => compareWith first ≠ .lt → compareWith second = .gt

theorem Ascends.gt (ascends : Ascends compareWith items) {first second : Nat} {item later : α} (before : first < second)
    (here : items[first]? = some item) (there : items[second]? = some later) (reached : compareWith item ≠ .lt) :
    compareWith later = .gt := by
  obtain ⟨inside, same⟩ := List.getElem?_eq_some_iff.mp here
  obtain ⟨inside', same'⟩ := List.getElem?_eq_some_iff.mp there
  rw [← same] at reached
  rw [← same']
  exact pairwise_iff_getElem.mp ascends first second inside inside' before reached

/-- The item that compares equal is never dropped. -/
theorem narrow_eq (ascends : Ascends compareWith items) {base size index : Nat} {item : α}
    (within : base + size ≤ items.length) (found : items[index]? = some item) (equal : compareWith item = .eq)
    (lower : base ≤ index) (upper : index < base + size) : narrow compareWith items base size = index := by
  fun_induction narrow compareWith items base size with
  | case1 base size more ih =>
    have there : items[base + size / 2]? = some items[base + size / 2] := List.getElem?_eq_getElem (by omega)
    unfold keptHalf at ih ⊢
    simp only [there, Option.map_some, Option.some_inj] at ih ⊢
    split at ih
    · next great =>
      have below : index < base + size / 2 := by
        by_contra above
        rcases Nat.lt_or_eq_of_le (Nat.not_lt.mp above) with later | same
        · have impossible := ascends.gt later there found (by simp [great])
          rw [equal] at impossible
          cases impossible
        · rw [← same, there, Option.some_inj] at found
          rw [found, equal] at great
          cases great
      rw [if_pos great]
      exact ih (by omega) lower (by omega)
    · next small =>
      have above : base + size / 2 ≤ index := by
        by_contra below
        exact small (ascends.gt (Nat.not_le.mp below) found there (by simp [equal]))
      rw [if_neg small]
      exact ih (by omega) above (by omega)
  | case2 base size few => omega

/-- Halving finds what a search from the front finds. -/
theorem binarySearchBy_cases (ascends : Ascends compareWith items) :
    (binarySearchBy compareWith items = none ∧ items.find? (fun item => compareWith item = .eq) = none) ∨
      ∃ index item, binarySearchBy compareWith items = some index ∧ items[index]? = some item ∧
        items.find? (fun item => compareWith item = .eq) = some item := by
  unfold binarySearchBy
  cases found : items.find? fun item => compareWith item = .eq with
  | none =>
    have absent := List.find?_eq_none.mp found
    refine .inl ⟨if_neg ?_, rfl⟩
    intro equal
    obtain ⟨item, here, same⟩ := Option.map_eq_some_iff.mp equal
    exact absurd (by simpa using same) (absent item (mem_of_getElem? here))
  | some item =>
    have equal : compareWith item = .eq := by simpa using List.find?_some found
    obtain ⟨index, inside, here⟩ := List.getElem_of_mem (List.mem_of_find?_eq_some found)
    have there : items[index]? = some item := by rw [List.getElem?_eq_getElem inside, here]
    refine .inr ⟨index, item, ?_, there, rfl⟩
    simp [narrow_eq ascends (Nat.zero_add _).le there equal (Nat.zero_le _) (by omega), there, equal]

end Halving

/-! ## Keys -/

section Keys

variable [LinearOrder κ] {key : α → κ}

def compareKeys (left right : κ) : Ordering := compare left right

/-- The first item whose neighbour has the same key. -/
def firstRepeated (key : α → κ) : List α → Option α
  | first :: second :: rest => if key first = key second then some first else firstRepeated key (second :: rest)
  | [] | [_] => none

def sortByKey (key : α → κ) (items : List α) : List α := items.mergeSort fun first second => key first ≤ key second

theorem sortByKey_perm : (sortByKey key items).Perm items := mergeSort_perm _ _

/-- In a sorted list equal keys are neighbours. -/
theorem firstRepeated_none (sorted : items.Pairwise fun first second => key first ≤ key second) :
    firstRepeated key items = none ↔ items.Pairwise fun first second => key first < key second := by
  fun_induction firstRepeated key items with
  | case1 first second rest same =>
    simp [same]
  | case2 first second rest different ih =>
    obtain ⟨head, tail⟩ := pairwise_cons.mp sorted
    refine (ih tail).trans ⟨fun rising => pairwise_cons.mpr ⟨?_, rising⟩, fun rising => (pairwise_cons.mp rising).2⟩
    have next : key first < key second := lt_of_le_of_ne (head second mem_cons_self) different
    intro other listed
    rcases mem_cons.mp listed with rfl | later
    · exact next
    · exact next.trans ((pairwise_cons.mp rising).1 other later)
  | case3 | case4 => simp

theorem sortByKey_sorted : (sortByKey key items).Pairwise fun first second => key first ≤ key second := by
  have sorted := @pairwise_mergeSort _ (fun first second : α => decide (key first ≤ key second)) (by
    intro first second third one two
    simp only [decide_eq_true_eq] at one two ⊢
    exact one.trans two) (by
    intro first second
    simpa using le_total (key first) (key second)) items
  exact sorted.imp fun ordered => of_decide_eq_true ordered

theorem sortByKey_distinct : firstRepeated key (sortByKey key items) = none ↔ (items.map key).Nodup := by
  have permuted : (sortByKey key items).Perm items := sortByKey_perm
  rw [firstRepeated_none sortByKey_sorted, ← (permuted.map key).nodup_iff, Nodup, pairwise_map]
  constructor
  · exact Pairwise.imp fun rising => rising.ne
  · intro distinct
    exact (sortByKey_sorted.and distinct).imp fun both => lt_of_le_of_ne both.1 both.2

theorem ascends_of_keys (rising : items.Pairwise fun first second => key first < key second) (wanted : κ) :
    Ascends (fun item => compareKeys (key item) wanted) items := by
  refine rising.imp ?_
  intro first second less reached
  change compare (key first) wanted ≠ .lt at reached
  rw [ne_eq, compare_lt_iff_lt, not_lt] at reached
  exact compare_gt_iff_gt.mpr (lt_of_le_of_lt reached less)

end Keys

section Search

variable [DecidableEq κ] {key : α → κ}

/-- With distinct keys a search finds the item with the key, wherever it is. -/
theorem find?_key_iff (distinct : (items.map key).Nodup) {wanted : κ} {item : α} :
    items.find? (fun other => key other = wanted) = some item ↔ item ∈ items ∧ key item = wanted := by
  constructor
  · intro found
    exact ⟨mem_of_find?_eq_some found, by simpa using find?_some found⟩
  · rintro ⟨listed, same⟩
    cases found : items.find? (fun other => key other = wanted) with
    | none => exact absurd (by simpa using same) (find?_eq_none.mp found item listed)
    | some other =>
      have named : key other = wanted := by simpa using find?_some found
      rw [inj_on_of_nodup_map distinct (mem_of_find?_eq_some found) listed (named.trans same.symm)]

theorem find?_key_perm (distinct : (items.map key).Nodup) (perm : items.Perm others) (wanted : κ) :
    items.find? (fun item => key item = wanted) = others.find? fun item => key item = wanted := by
  apply Option.ext
  intro item
  rw [find?_key_iff distinct, find?_key_iff ((perm.map key).nodup_iff.mp distinct), perm.mem_iff]

end Search

end Opaal.Order
