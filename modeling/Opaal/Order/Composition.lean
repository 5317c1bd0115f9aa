import Mathlib.Data.List.Forall2
import Mathlib.Order.Compare

/-!
# How the outcomes of comparisons compose

Comparing `a` with `b` and `b` with `c` leaves little choice for comparing `a` with
`c`: equal steps can be dropped and two steps the same way go that way.  A
lexicographic comparison composes when its heads do, and its tails do whenever the
heads are equal.
-/

namespace Opaal.Order

open List

/-- What the third comparison must be, given the first two. -/
structure Composes (first second third : Ordering) : Prop where
  skip_first : first = .eq → third = second
  skip_second : second = .eq → third = first
  same_way : first = second → third = first

theorem composes_compare {α : Type*} [Ord α] [Std.TransOrd α] (a b c : α) :
    Composes (compare a b) (compare b c) (compare a c) where
  skip_first same := Std.TransCmp.congr_left same
  skip_second same := (Std.TransCmp.congr_right same).symm
  same_way same := by
    cases step : compare a b with
    | lt => exact Std.TransCmp.lt_trans step (same ▸ step)
    | eq => exact Std.TransCmp.eq_trans step (same ▸ step)
    | gt => exact Std.TransCmp.gt_trans step (same ▸ step)

variable {first second third : Ordering}

theorem Composes.isLE (composes : Composes first second third) (below : first.isLE) (next : second.isLE) :
    third.isLE := by
  cases first with
  | gt => contradiction
  | eq =>
    rw [composes.skip_first rfl]
    exact next
  | lt =>
    cases second with
    | gt => contradiction
    | eq =>
      rw [composes.skip_second rfl]
      decide
    | lt =>
      rw [composes.same_way rfl]
      decide

/-- Heads decide unless they are equal. -/
theorem Composes.lexicographic {first' second' third' : Ordering} (heads : Composes first second third)
    (tails : first = .eq → second = .eq → Composes first' second' third') :
    Composes (first.then first') (second.then second') (third.then third') := by
  cases first with
  | eq =>
    have skip := heads.skip_first rfl
    cases second with
    | eq =>
      rw [skip]
      exact tails rfl rfl
    | lt | gt =>
      rw [skip]
      exact ⟨fun _ => rfl, by simp [Ordering.then], fun same => same.symm⟩
  | lt =>
    cases second with
    | gt => constructor <;> simp [Ordering.then]
    | eq =>
      rw [heads.skip_second rfl]
      constructor <;> simp [Ordering.then]
    | lt =>
      rw [heads.same_way rfl]
      constructor <;> simp [Ordering.then]
  | gt =>
    cases second with
    | lt => constructor <;> simp [Ordering.then]
    | eq =>
      rw [heads.skip_second rfl]
      constructor <;> simp [Ordering.then]
    | gt =>
      rw [heads.same_way rfl]
      constructor <;> simp [Ordering.then]

section Lexicographic

variable {α ε : Type*} {cmp : α → α → Except ε Ordering}

/-- Element by element while both lists last, then by length; a pair of elements that
cannot be compared ends it. -/
def lexicographic (cmp : α → α → Except ε Ordering) : List α → List α → Except ε Ordering
  | a :: left, b :: right =>
    match cmp a b with
    | .ok .eq => lexicographic cmp left right
    | other => other
  | left, right => .ok (compare left.length right.length)

variable {left right : List α} {outcome : Ordering}

/-- The heads of compared lists were compared, and the tails when the heads are equal. -/
theorem lexicographic_cons {a b : α} :
    lexicographic cmp (a :: left) (b :: right) = .ok outcome ↔
      ∃ head, cmp a b = .ok head ∧
        ((head = .eq ∧ lexicographic cmp left right = .ok outcome) ∨ (head ≠ .eq ∧ outcome = head)) := by
  rw [lexicographic]
  cases compared : cmp a b with
  | error => simp
  | ok head =>
    cases head with
    | eq => simp
    | lt | gt =>
      simp
      exact eq_comm

/-- The outcome as a head and the outcome of the tails, which counts only after equal heads. -/
theorem lexicographic_cons_then {a b : α} (compared : lexicographic cmp (a :: left) (b :: right) = .ok outcome) :
    ∃ head tail, cmp a b = .ok head ∧ outcome = head.then tail ∧
      (head = .eq → lexicographic cmp left right = .ok tail) := by
  rw [lexicographic_cons] at compared
  obtain ⟨_, heads, ⟨rfl, tails⟩ | ⟨decided, rfl⟩⟩ := compared
  · exact ⟨.eq, outcome, heads, rfl, fun _ => tails⟩
  · refine ⟨outcome, .eq, heads, ?_, fun equal => absurd equal decided⟩
    cases outcome <;> rfl

theorem lexicographic_swap (elements : ∀ a ∈ left, ∀ b head, cmp a b = .ok head → cmp b a = .ok head.swap)
    (compared : lexicographic cmp left right = .ok outcome) :
    lexicographic cmp right left = .ok outcome.swap := by
  induction left generalizing right with
  | nil =>
    cases right with
    | nil =>
      simp only [lexicographic, Except.ok.injEq] at compared ⊢
      rw [← compared]
      exact Std.OrientedOrd.eq_swap
    | cons =>
      simp only [lexicographic, length_nil, Except.ok.injEq] at compared ⊢
      rw [← compared]
      exact Std.OrientedOrd.eq_swap
  | cons a left ih =>
    cases right with
    | nil =>
      simp only [lexicographic, length_nil, Except.ok.injEq] at compared ⊢
      rw [← compared]
      exact Std.OrientedOrd.eq_swap
    | cons b right =>
      rw [lexicographic_cons] at compared ⊢
      obtain ⟨head, heads, rest⟩ := compared
      refine ⟨head.swap, elements a mem_cons_self b head heads, ?_⟩
      rcases rest with ⟨rfl, tails⟩ | ⟨decided, rfl⟩
      · left
        exact ⟨rfl, ih (fun a member => elements a (mem_cons_of_mem _ member)) tails⟩
      · right
        exact ⟨by simpa using decided, rfl⟩

theorem lexicographic_composes {middle : List α} {first second third : Ordering}
    (elements : ∀ a ∈ left, ∀ b c first second third, cmp a b = .ok first → cmp b c = .ok second → cmp a c = .ok third → Composes first second third)
    (leftMiddle : lexicographic cmp left middle = .ok first) (middleRight : lexicographic cmp middle right = .ok second)
    (leftRight : lexicographic cmp left right = .ok third) : Composes first second third := by
  induction left generalizing middle right first second third with
  | nil =>
    -- Lengths compose; only the middle and the last list can still have elements to compare.
    simp only [lexicographic, length_nil, Except.ok.injEq] at leftMiddle leftRight
    subst leftMiddle leftRight
    cases middle with
    | nil =>
      simp only [lexicographic, length_nil, Except.ok.injEq] at middleRight
      subst middleRight
      exact composes_compare 0 0 right.length
    | cons b middle =>
      cases right with
      | nil =>
        simp only [lexicographic, length_nil, Except.ok.injEq] at middleRight
        subst middleRight
        exact composes_compare 0 (b :: middle).length 0
      | cons =>
        have ahead : ∀ length, compare 0 (length + 1) = Ordering.lt := by
          intro length
          exact Nat.compare_eq_lt.mpr (Nat.succ_pos length)
        rw [length_cons, length_cons, ahead, ahead]
        exact ⟨fun same => absurd same (by decide), fun _ => rfl, fun _ => rfl⟩
  | cons a left ih =>
    cases middle with
    | nil =>
      simp only [lexicographic, length_nil, Except.ok.injEq] at leftMiddle middleRight
      subst leftMiddle middleRight
      have behind : compare (a :: left).length 0 = Ordering.gt :=
        Nat.compare_eq_gt.mpr (Nat.succ_pos left.length)
      rw [behind]
      cases right with
      | nil =>
        simp only [lexicographic, length_nil, Except.ok.injEq] at leftRight
        rw [← leftRight, behind]
        exact ⟨fun same => absurd same (by decide), fun _ => rfl, fun _ => rfl⟩
      | cons c right =>
        have ahead : compare 0 (c :: right).length = Ordering.lt :=
          Nat.compare_eq_lt.mpr (Nat.succ_pos right.length)
        rw [ahead]
        exact ⟨fun same => absurd same (by decide), fun same => absurd same (by decide),
          fun same => absurd same (by decide)⟩
    | cons b =>
      cases right with
      | nil =>
        simp only [lexicographic, length_nil, Except.ok.injEq] at middleRight leftRight
        subst middleRight leftRight
        have behind : ∀ length, compare (length + 1) 0 = Ordering.gt := by
          intro length
          exact Nat.compare_eq_gt.mpr (Nat.succ_pos length)
        rw [length_cons, length_cons, behind, behind]
        exact ⟨fun _ => rfl, fun same => absurd same (by decide), fun same => same.symm⟩
      | cons c =>
        obtain ⟨_, _, heads₁, rfl, tails₁⟩ := lexicographic_cons_then leftMiddle
        obtain ⟨_, _, heads₂, rfl, tails₂⟩ := lexicographic_cons_then middleRight
        obtain ⟨_, _, heads₃, rfl, tails₃⟩ := lexicographic_cons_then leftRight
        have composes := elements a mem_cons_self b c _ _ _ heads₁ heads₂ heads₃
        apply composes.lexicographic
        intro firstEqual secondEqual
        have thirdEqual := (composes.skip_first firstEqual).trans secondEqual
        exact ih (fun a member => elements a (mem_cons_of_mem _ member)) (tails₁ firstEqual)
          (tails₂ secondEqual) (tails₃ thirdEqual)

/-- Compared lists are equal in the order exactly when they are related element by element. -/
theorem lexicographic_eq_iff {related : α → α → Prop}
    (elements : ∀ a ∈ left, ∀ b head, cmp a b = .ok head → (head = .eq ↔ related a b))
    (compared : lexicographic cmp left right = .ok outcome) :
    outcome = .eq ↔ List.Forall₂ related left right := by
  induction left generalizing right with
  | nil =>
    simp only [lexicographic, length_nil, Except.ok.injEq] at compared
    subst compared
    cases right <;> simp
  | cons a _ ih =>
    cases right with
    | nil =>
      simp only [lexicographic, length_nil, Except.ok.injEq] at compared
      subst compared
      simp
    | cons b =>
      rw [lexicographic_cons] at compared
      obtain ⟨head, heads, rest⟩ := compared
      have here := elements a mem_cons_self b head heads
      rw [List.forall₂_cons]
      rcases rest with ⟨rfl, tails⟩ | ⟨decided, rfl⟩
      · rw [ih (fun a member => elements a (mem_cons_of_mem _ member)) tails]
        exact ⟨fun rest => ⟨here.mp rfl, rest⟩, fun both => both.2⟩
      · exact ⟨fun equal => absurd equal decided, fun both => here.mpr both.1⟩

end Lexicographic

end Opaal.Order
