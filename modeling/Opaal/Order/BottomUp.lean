import Mathlib.Data.List.Basic

/-!
# Bottom-up merge sort

Passes over a list that merge neighbouring runs of one width into runs of twice that
width, until one run is left.
-/

namespace Opaal.Order

open List

variable {α : Type} (le : α → α → Bool)

/-- One pass, in at most `bound` merges. -/
def mergeNeighbours (width : Nat) : Nat → List α → List α
  | 0, items => items
  | _ + 1, [] => []
  | bound + 1, item :: items =>
    ((item :: items).take width).merge (((item :: items).drop width).take width) le ++
      mergeNeighbours width bound ((item :: items).drop (2 * width))

/-- Passes with twice the width each. -/
def bottomUp : Nat → Nat → List α → List α
  | 0, _, items => items
  | bound + 1, width, items =>
    if width < items.length then bottomUp bound (width * 2) (mergeNeighbours le width (items.length + 1) items) else items

/-- Every run of a width is sorted; the last one may be shorter. -/
def InRuns (width : Nat) (items : List α) : Prop :=
  ∀ run, ((items.drop (run * width)).take width).Pairwise (le · ·)

variable {le} {width : Nat} {items : List α}

theorem InRuns.drop (runs : InRuns le width items) : InRuns le width (items.drop (2 * width)) := by
  intro run
  have later := runs (run + 2)
  rw [Nat.add_mul, Nat.add_comm, ← drop_drop] at later
  exact later

theorem inRuns_one (items : List α) : InRuns le 1 items := by
  intro run
  cases items.drop (run * 1) with
  | nil | cons => simp

theorem length_merged (width : Nat) (items : List α) :
    ((items.take width).merge ((items.drop width).take width) le).length = min (2 * width) items.length := by
  rw [length_merge, length_take, length_take, length_drop]
  omega

theorem mergeNeighbours_perm (bound : Nat) : (mergeNeighbours le width bound items).Perm items := by
  induction bound generalizing items with
  | zero => exact List.Perm.refl items
  | succ _ ih =>
    cases items with
    | nil => exact List.Perm.refl []
    | cons item more =>
      have parts : (item :: more).take width ++ ((item :: more).drop width).take width ++ (item :: more).drop (2 * width) =
          item :: more := by
        rw [append_assoc, Nat.two_mul, ← drop_drop, take_append_drop, take_append_drop]
      have merged := @merge_perm_append _ le ((item :: more).take width) (((item :: more).drop width).take width)
      have both := merged.append (@ih ((item :: more).drop (2 * width)))
      rw [parts] at both
      exact both

section Sorting

variable (trans : ∀ a b c, le a b → le b c → le a c) (total : ∀ a b, le a b || le b a)

include trans total

/-- A pass doubles the width of the runs. -/
theorem mergeNeighbours_inRuns (positive : 0 < width) (runs : InRuns le width items) {bound : Nat}
    (enough : items.length < bound) : InRuns le (2 * width) (mergeNeighbours le width bound items) := by
  induction bound generalizing items with
  | zero => omega
  | succ bound ih =>
    cases items with
    | nil =>
      intro run
      simp [mergeNeighbours]
    | cons item more =>
      unfold mergeNeighbours
      have first := runs 0
      have second := runs 1
      rw [Nat.zero_mul, drop_zero] at first
      rw [Nat.one_mul] at second
      have sorted := pairwise_merge trans total _ _ first second
      have length := @length_merged _ le width (item :: more)
      generalize merged : ((item :: more).take width).merge (((item :: more).drop width).take width) le = front at *
      have onward : InRuns le (2 * width) (mergeNeighbours le width bound ((item :: more).drop (2 * width))) := by
        apply ih runs.drop
        rw [length_drop]
        simp only [length_cons] at enough ⊢
        omega
      rcases Nat.lt_or_ge (item :: more).length (2 * width) with short | long
      · -- The last merge takes all that is left.
        have ends : mergeNeighbours le width bound ((item :: more).drop (2 * width)) = [] := by
          rw [drop_eq_nil_of_le (Nat.le_of_lt short)]
          cases bound <;> rfl
        rw [ends, append_nil]
        intro run
        cases run with
        | zero =>
          rw [Nat.zero_mul, drop_zero, take_of_length_le (by omega)]
          exact sorted
        | succ run =>
          have beyond : front.length ≤ (run + 1) * (2 * width) := by
            rw [length, Nat.add_one_mul run]
            omega
          rw [drop_eq_nil_of_le beyond]
          simp
      · have whole : front.length = 2 * width := by omega
        intro run
        cases run with
        | zero =>
          rw [Nat.zero_mul, drop_zero, take_left' whole]
          exact sorted
        | succ run =>
          rw [Nat.add_one_mul run, Nat.add_comm, ← drop_drop, drop_left' whole]
          exact onward run

theorem bottomUp_spec (positive : 0 < width) (runs : InRuns le width items) {bound : Nat}
    (enough : items.length < width + bound) :
    (bottomUp le bound width items).Perm items ∧ (bottomUp le bound width items).Pairwise (le · ·) := by
  have finished : ∀ {width items}, InRuns le width items → items.length ≤ width → items.Pairwise (le · ·) := by
    intro width items runs single
    have whole := runs 0
    rw [Nat.zero_mul, drop_zero, take_of_length_le single] at whole
    exact whole
  induction bound generalizing width items with
  | zero => exact ⟨List.Perm.refl items, finished runs (Nat.le_of_lt enough)⟩
  | succ bound ih =>
    unfold bottomUp
    split
    · have perm := @mergeNeighbours_perm _ le width items (items.length + 1)
      have wider := mergeNeighbours_inRuns trans total positive runs (Nat.lt_succ_self items.length)
      rw [Nat.mul_comm 2 width] at wider
      obtain ⟨same, sorted⟩ := ih (by omega) wider (by rw [perm.length_eq]; omega)
      exact ⟨same.trans perm, sorted⟩
    · exact ⟨List.Perm.refl items, finished runs (by omega)⟩

end Sorting

/-! ## Stability -/

section Stability

variable (before : α → α → Prop)

/-- The items of every run come before those of all later runs. -/
def RunsBefore (width : Nat) (items : List α) : Prop :=
  ∀ run, ∀ x ∈ (items.drop (run * width)).take width, ∀ y ∈ items.drop ((run + 1) * width), before x y

variable {before} {le' : α → α → Bool}

/-- A merge only compares items of the left run with items of the right one. -/
theorem merge_congr {left right : List α} (agree : ∀ x ∈ left, ∀ y ∈ right, le x y = le' x y) :
    left.merge right le = left.merge right le' := by
  induction left generalizing right with
  | nil => simp
  | cons first _ ihLeft =>
    induction right with
    | nil => simp
    | cons other _ ihRight =>
      rw [cons_merge_cons, cons_merge_cons, agree first mem_cons_self other mem_cons_self]
      split
      · congr 1
        exact ihLeft fun x inLeft y inRight => agree x (mem_cons_of_mem first inLeft) y inRight
      · congr 1
        exact ihRight fun x inLeft y inRight => agree x inLeft y (mem_cons_of_mem other inRight)

theorem RunsBefore.drop (runs : RunsBefore before width items) :
    RunsBefore before width (items.drop (2 * width)) := by
  intro run x inRun y later
  rw [drop_drop] at inRun later
  apply runs (run + 2) x
  · rw [Nat.add_mul, Nat.add_comm]
    exact inRun
  · rw [show (run + 2 + 1) * width = 2 * width + (run + 1) * width by rw [← Nat.add_mul]; congr 1; omega]
    exact later

/-- A pass does the same with two orders that agree on items one of which comes before the other. -/
theorem mergeNeighbours_congr (agree : ∀ x y, before x y → le x y = le' x y) (runs : RunsBefore before width items)
    (bound : Nat) : mergeNeighbours le width bound items = mergeNeighbours le' width bound items := by
  induction bound generalizing items with
  | zero => rfl
  | succ _ ih =>
    cases items with
    | nil => rfl
    | cons =>
      unfold mergeNeighbours
      rw [ih runs.drop]
      congr 1
      apply merge_congr
      intro x inLeft y inRight
      apply agree
      apply runs 0 x
      · rw [Nat.zero_mul, drop_zero]
        exact inLeft
      · rw [Nat.zero_add, Nat.one_mul]
        exact mem_of_mem_take inRight

/-- What is left of a list after the first two runs of a pass. -/
theorem mergeNeighbours_drop {front : List α} (whole : front.length = 2 * width) (rest : List α) (run : Nat) :
    (front ++ rest).drop ((run + 1) * (2 * width)) = rest.drop (run * (2 * width)) := by
  rw [Nat.add_one_mul run, Nat.add_comm, ← drop_drop, drop_left' whole]

/-- A pass keeps what is before what. -/
theorem mergeNeighbours_runsBefore (runs : RunsBefore before width items) {bound : Nat} (enough : items.length < bound)
    (positive : 0 < width) : RunsBefore before (2 * width) (mergeNeighbours le width bound items) := by
  induction bound generalizing items with
  | zero => omega
  | succ bound ih =>
    cases items with
    | nil =>
      intro run x listed
      simp [mergeNeighbours] at listed
    | cons item more =>
      unfold mergeNeighbours
      have length := @length_merged _ le width (item :: more)
      have members : ∀ x ∈ ((item :: more).take width).merge (((item :: more).drop width).take width) le,
          ∀ y ∈ (item :: more).drop (2 * width), before x y := by
        intro x merged y later
        rcases mem_merge.mp merged with first | second
        · apply runs 0 x
          · rw [Nat.zero_mul, drop_zero]
            exact first
          · rw [Nat.zero_add, Nat.one_mul]
            rw [Nat.two_mul, ← drop_drop] at later
            exact mem_of_mem_drop later
        · apply runs 1 x
          · rw [Nat.one_mul]
            exact second
          · exact later
      generalize ((item :: more).take width).merge (((item :: more).drop width).take width) le = front at *
      have onward : RunsBefore before (2 * width) (mergeNeighbours le width bound ((item :: more).drop (2 * width))) := by
        apply ih runs.drop
        rw [length_drop]
        simp only [length_cons] at enough ⊢
        omega
      have rest := @mergeNeighbours_perm _ le width ((item :: more).drop (2 * width)) bound
      rcases Nat.lt_or_ge (item :: more).length (2 * width) with short | long
      · -- The last merge takes all that is left, so no run comes after it.
        have ends : mergeNeighbours le width bound ((item :: more).drop (2 * width)) = [] := by
          rw [drop_eq_nil_of_le (Nat.le_of_lt short)] at rest ⊢
          exact rest.eq_nil
        rw [ends, append_nil]
        intro run x inRun y later
        have beyond : front.length ≤ (run + 1) * (2 * width) := by
          rw [length, Nat.add_one_mul run]
          omega
        rw [drop_eq_nil_of_le beyond] at later
        contradiction
      · have whole : front.length = 2 * width := by omega
        intro run x inRun y later
        rw [mergeNeighbours_drop whole] at later
        cases run with
        | zero =>
          rw [Nat.zero_mul, drop_zero, take_left' whole] at inRun
          rw [Nat.zero_mul, drop_zero] at later
          exact members x inRun y (rest.mem_iff.mp later)
        | succ run =>
          rw [mergeNeighbours_drop whole] at inRun
          exact onward run x inRun y later

/-- The whole sort does the same with two orders that agree on items one of which comes before the other. -/
theorem bottomUp_congr (agree : ∀ x y, before x y → le x y = le' x y) (positive : 0 < width)
    (runs : RunsBefore before width items) (bound : Nat) :
    bottomUp le bound width items = bottomUp le' bound width items := by
  induction bound generalizing width items with
  | zero => rfl
  | succ bound ih =>
    unfold bottomUp
    split
    · rw [mergeNeighbours_congr agree runs]
      apply ih (by omega)
      rw [Nat.mul_comm]
      exact mergeNeighbours_runsBefore runs (Nat.lt_succ_self _) positive
    · rfl

/-- Single items that come one before the other. -/
theorem runsBefore_one (ordered : items.Pairwise before) : RunsBefore before 1 items := by
  intro run x inRun y later
  rw [Nat.mul_one] at inRun later
  have split : items.drop run = (items.drop run).take 1 ++ items.drop (run + 1) := by
    rw [← drop_drop, take_append_drop]
  have onward : (items.drop run).Pairwise before := ordered.drop
  rw [split, pairwise_append] at onward
  exact onward.2.2 x inRun y later

end Stability

end Opaal.Order
