import Mathlib.Data.List.Nodup

/-!
# Entries with unique keys

Lists of entries that are read as a mapping and keep the order in which keys were added.  Assigning
a key overwrites its value where it is, or appends it.
-/

namespace Opaal.Order

open List
open Prod (fst)

variable {κ ν : Type} [DecidableEq κ]

/-- An entry for a key, where the key is or at the end. -/
def assign (entry : κ × ν) : List (κ × ν) → List (κ × ν)
  | [] => [entry]
  | other :: entries => if other.1 = entry.1 then entry :: entries else other :: assign entry entries

/-- The entries for the keys, when every key has one. -/
def selected (entries : List (κ × ν)) (keys : List κ) : Option (List (κ × ν)) :=
  keys.mapM fun key => (entries.lookup key).map fun value => (key, value)

/-- An entry with the value that others have for its key. -/
def overwritten (others : List (κ × ν)) (entry : κ × ν) : κ × ν := (entry.1, (others.lookup entry.1).getD entry.2)

variable {entry : κ × ν} {entries left right : List (κ × ν)}

theorem assign_of_mem (present : entry.1 ∈ entries.map fst) (unique : (entries.map fst).Nodup) :
    assign entry entries = entries.map fun other => if other.1 = entry.1 then entry else other := by
  induction entries with
  | nil => contradiction
  | cons _ entries ih =>
    rw [map_cons, nodup_cons] at unique
    unfold assign
    rw [map_cons]
    split_ifs with same
    · have others : ∀ later ∈ entries, (if later.1 = entry.1 then entry else later) = later := by
        intro later listed
        apply if_neg
        intro repeated
        exact unique.1 (mem_map.mpr ⟨later, listed, by rw [repeated, same]⟩)
      rw [map_congr_left others, map_id']
    · rw [map_cons, mem_cons] at present
      rw [ih (present.resolve_left fun equal => same equal.symm) unique.2]

theorem assign_of_not_mem (absent : entry.1 ∉ entries.map fst) : assign entry entries = entries ++ [entry] := by
  induction entries with
  | nil => rfl
  | cons _ _ ih =>
    rw [map_cons, mem_cons, not_or] at absent
    unfold assign
    rw [if_neg fun same => absent.1 same.symm, ih absent.2]
    rfl

theorem keys_assign_of_mem (present : entry.1 ∈ entries.map fst) : (assign entry entries).map fst = entries.map fst := by
  induction entries with
  | nil => contradiction
  | cons _ _ ih =>
    unfold assign
    split_ifs with same
    · rw [map_cons, map_cons, same]
    · rw [map_cons, mem_cons] at present
      rw [map_cons, map_cons, ih (present.resolve_left fun equal => same equal.symm)]

theorem nodup_assign (unique : (entries.map fst).Nodup) : ((assign entry entries).map fst).Nodup := by
  by_cases present : entry.1 ∈ entries.map fst
  · rw [keys_assign_of_mem present]
    exact unique
  · rw [assign_of_not_mem present, map_append, nodup_append]
    refine ⟨unique, nodup_singleton _, ?_⟩
    intro key listed other isEntry same
    rw [mem_singleton.mp isEntry] at same
    exact present (same ▸ listed)

theorem nodup_foldl_assign (unique : (left.map fst).Nodup) :
    ((right.foldl (fun entries entry => assign entry entries) left).map fst).Nodup := by
  induction right generalizing left with
  | nil => exact unique
  | cons _ _ ih => exact ih (nodup_assign unique)

variable {key : κ} {value : ν} {fields : List (κ × ν)} {holds : κ × ν → Prop}

theorem lookup_absent (absent : key ∉ entries.map fst) : entries.lookup key = none := by
  rw [lookup_eq_none_iff]
  intro other listed
  rw [bne_iff_ne]
  rintro rfl
  exact absent (mem_map_of_mem listed)

theorem lookup_cons_ne (different : key ≠ entry.1) : (entry :: entries).lookup key = entries.lookup key := by
  rw [lookup_cons, beq_eq_false_iff_ne.mpr different]

theorem overwritten_of_not_mem (absent : entry.1 ∉ entries.map fst) : overwritten entries entry = entry := by
  unfold overwritten
  rw [lookup_absent absent]
  rfl

/-- Assigning entries one after the other: the values at known keys are replaced, new keys are appended. -/
theorem foldl_assign (uniqueLeft : (left.map fst).Nodup) (uniqueRight : (right.map fst).Nodup) :
    right.foldl (fun entries entry => assign entry entries) left =
      left.map (overwritten right) ++ right.filter fun entry => entry.1 ∉ left.map fst := by
  induction right generalizing left with
  | nil =>
    have kept : ∀ entry ∈ left, overwritten [] entry = entry := fun _ _ => rfl
    rw [map_congr_left kept, map_id', filter_nil, append_nil]
    rfl
  | cons entry right ih =>
    rw [map_cons, nodup_cons] at uniqueRight
    rw [foldl_cons, ih (nodup_assign uniqueLeft) uniqueRight.2, filter_cons]
    have once : overwritten right entry = entry := overwritten_of_not_mem uniqueRight.1
    by_cases present : entry.1 ∈ left.map fst
    · rw [keys_assign_of_mem present, assign_of_mem present uniqueLeft, map_map, if_neg (by simpa using present)]
      congr 1
      apply map_congr_left
      intro other _
      by_cases same : other.1 = entry.1
      · simp only [Function.comp_apply, if_pos same, once]
        rw [overwritten, same, lookup_cons, beq_self_eq_true]
        rfl
      · simp only [Function.comp_apply, if_neg same]
        rw [overwritten, overwritten, lookup_cons_ne same]
    · rw [assign_of_not_mem present, map_append, map_singleton, once,
        if_pos (by simpa using present), append_assoc, singleton_append]
      congr 1
      · apply map_congr_left
        intro other listed
        have different : other.1 ≠ entry.1 := fun same => present (same ▸ mem_map_of_mem listed)
        rw [overwritten, overwritten, lookup_cons_ne different]
      · congr 1
        apply filter_congr
        intro later listed
        have different : later.1 ≠ entry.1 := fun same => uniqueRight.1 (same ▸ mem_map_of_mem listed)
        simp [different]

theorem lookup_getElem {place : Nat} (unique : (entries.map fst).Nodup) (listed : entries[place]? = some entry) :
    entries.lookup entry.1 = some entry.2 := by
  induction entries generalizing place with
  | nil => cases listed
  | cons other entries ih =>
    rw [map_cons, nodup_cons] at unique
    cases place with
    | zero =>
      cases listed
      rw [lookup_cons, beq_self_eq_true]
    | succ =>
      have later : entry ∈ entries := mem_of_getElem? listed
      have different : entry.1 ≠ other.1 := fun same => unique.1 (same ▸ mem_map_of_mem later)
      rw [lookup_cons_ne different]
      exact ih unique.2 listed

theorem selected_cons {keys : List κ} (found : entries.lookup key = some value) (others : selected entries keys = some fields) : selected entries (key :: keys) = some ((key, value) :: fields) := by
  unfold selected at others ⊢
  rw [mapM_cons, found, others]
  rfl

/-- The selected entries have the keys that were asked for. -/
theorem keys_selected {keys : List κ} (found : selected entries keys = some fields) :
    fields.map fst = keys := by
  induction keys generalizing fields with
  | nil =>
    cases found
    rfl
  | cons _ _ ih =>
    unfold selected at found
    simp only [mapM_cons, Option.pure_def, Option.bind_eq_bind, Option.bind_eq_some_iff, Option.map_eq_some_iff] at found
    obtain ⟨_, ⟨_, _, rfl⟩, _, others, same⟩ := found
    cases same
    rw [map_cons, ih others]

/-! ## Entries one by one -/

/-- What holds of every value still holds after one more was assigned. -/
theorem forall_assign (here : holds entry) (each : ∀ other ∈ entries, holds other) :
    ∀ other ∈ assign entry entries, holds other := by
  induction entries with
  | nil => exact forall_mem_singleton.mpr here
  | cons _ _ ih =>
    rw [forall_mem_cons] at each
    unfold assign
    split_ifs
    · exact forall_mem_cons.mpr ⟨here, each.2⟩
    · exact forall_mem_cons.mpr ⟨each.1, ih each.2⟩

theorem forall_foldl_assign (before : ∀ other ∈ left, holds other) (each : ∀ other ∈ right, holds other) :
    ∀ other ∈ right.foldl (fun entries entry => assign entry entries) left, holds other := by
  induction right generalizing left with
  | nil => exact before
  | cons _ _ ih =>
    rw [forall_mem_cons] at each
    exact ih (forall_assign each.1 before) each.2

theorem mem_keys_assign :
    key ∈ (assign entry entries).map fst ↔ key = entry.1 ∨ key ∈ entries.map fst := by
  by_cases present : entry.1 ∈ entries.map fst
  · rw [keys_assign_of_mem present]
    exact ⟨.inr, fun listed => listed.elim (fun same => same ▸ present) id⟩
  · rw [assign_of_not_mem present, map_append, mem_append, map_singleton, mem_singleton, or_comm]

theorem mem_keys_foldl_assign : key ∈ (right.foldl (fun entries entry => assign entry entries) left).map fst ↔
    key ∈ left.map fst ∨ key ∈ right.map fst := by
  induction right generalizing left with
  | nil => simp
  | cons _ _ ih =>
    rw [foldl_cons, ih, mem_keys_assign, map_cons, mem_cons]
    tauto

end Opaal.Order
