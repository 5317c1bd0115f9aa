import Mathlib.Data.List.Destutter
import Mathlib.Data.List.DropRight

/-!
# The most recent entries

A log that drops an entry equal to the one before it and keeps a bounded number of the
latest ones.  Both can be done again and again while the log grows: the result is that of
doing them once at the end.
-/

namespace Opaal.Order

open List

variable {α : Type} [DecidableEq α]

/-- Adds an entry unless it repeats the last one. -/
def push (kept : List α) (entry : α) : List α := if kept.getLast? = some entry then kept else kept ++ [entry]

/-- The last `bound` entries of a log without adjacent repetitions. -/
def recent (bound : Nat) (entries : List α) : List α := (entries.destutter (· ≠ ·)).rtake bound

theorem foldl_push_append (front : List α) (last : α) (entries : List α) :
    entries.foldl push (front ++ [last]) = front ++ entries.destutter' (· ≠ ·) last := by
  induction entries generalizing front last with
  | nil => rfl
  | cons entry entries ih =>
    rw [foldl_cons, push, List.getLast?_concat, destutter'_cons]
    by_cases same : last = entry
    · rw [if_pos (congrArg some same), if_neg (not_not.mpr same), ih]
    · rw [if_neg (fun equal => same (Option.some.inj equal)), if_pos same, ih, append_assoc, singleton_append]

/-- Entries added one by one. -/
theorem foldl_push (entries : List α) : entries.foldl push [] = entries.destutter (· ≠ ·) := by
  cases entries with
  | nil => rfl
  | cons entry entries => exact foldl_push_append [] entry entries

theorem destutter_append (front back : List α) :
    (front ++ back).destutter (· ≠ ·) = back.foldl push (front.destutter (· ≠ ·)) := by
  rw [← foldl_push, ← foldl_push, foldl_append]

section Ends

omit [DecidableEq α]

theorem rtake_rtake (entries : List α) (first second : Nat) :
    (entries.rtake first).rtake second = entries.rtake (min second first) := by
  rw [rtake_eq_reverse_take_reverse, rtake_eq_reverse_take_reverse, rtake_eq_reverse_take_reverse,
    reverse_reverse, take_take]

theorem getLast?_rtake {bound : Nat} (positive : 0 < bound) (entries : List α) :
    (entries.rtake bound).getLast? = entries.getLast? := by
  rw [rtake_eq_reverse_take_reverse, List.getLast?_reverse, List.head?_take, if_neg (by omega), List.head?_reverse]

end Ends

variable {bound : Nat}

/-- What was cut off does not matter for the next entry. -/
theorem rtake_push (positive : 0 < bound) (entries : List α) (entry : α) :
    (push (entries.rtake bound) entry).rtake bound = (push entries entry).rtake bound := by
  unfold push
  rw [getLast?_rtake positive]
  split
  · rw [rtake_rtake, Nat.min_self]
  · obtain ⟨less, rfl⟩ := Nat.exists_eq_succ_of_ne_zero (Nat.ne_of_gt positive)
    rw [Nat.succ_eq_add_one, rtake_concat_succ, rtake_concat_succ, rtake_rtake, Nat.min_eq_left (by omega)]

theorem rtake_foldl_push (positive : 0 < bound) (entries back : List α) :
    (back.foldl push (entries.rtake bound)).rtake bound = (back.foldl push entries).rtake bound := by
  induction back generalizing entries with
  | nil =>
    rw [foldl_nil, foldl_nil, rtake_rtake, Nat.min_self]
  | cons entry back ih =>
    rw [foldl_cons, foldl_cons, ← ih (push entries entry), ← rtake_push positive, ih]

theorem recent_destutter (bound : Nat) (entries : List α) :
    (recent bound entries).destutter (· ≠ ·) = recent bound entries :=
  destutter_of_isChain _ _ ((isChain_destutter _ entries).drop _)

/-- A log that was already cut grows like the whole one. -/
theorem recent_append (positive : 0 < bound) (front back : List α) :
    recent bound (recent bound front ++ back) = recent bound (front ++ back) := by
  unfold recent
  rw [destutter_append, destutter_append front back]
  have cut := recent_destutter bound front
  unfold recent at cut
  rw [cut, rtake_foldl_push positive]

theorem recent_recent (positive : 0 < bound) (entries : List α) : recent bound (recent bound entries) = recent bound entries := by
  have whole := recent_append positive entries []
  rwa [append_nil, append_nil] at whole

end Opaal.Order
