import Opaal.Runtime.Stream

/-!
# The sort command

`sort` drains its stream up to a limit and hands the items, or positions compared by a key of their
records, to the sort of the standard library.  A pair without an order is kept aside and told to be
equal; how the standard library sorts is not modelled, only what its comparator answers.
-/

namespace Opaal.Runtime.Sorting

open List

variable {F C : Type}

/-- The family names of the first incomparable pair. -/
abbrev Captured := Option (String × String)

/-- A comparator that may keep a pair aside. -/
abbrev Comparator (α : Type) := α → α → StateM Captured Ordering

/-- A sort of the standard library; it gives no list when it panics. -/
abbrev StandardSort := ∀ {α : Type}, Comparator α → List α → StateM Captured (Option (List α))

inductive SortOutcome (F C : Type) where
  | sorted (items : List (Value F C))
  | limitExceeded (limit : Nat)
  | incomparable (left right : String)
  | missingKey (key : String)
  | notRecord (actual : String)
  | failed (error : F)
  | cancelled (reason : CancelReason)
  | panicked

def captureOrder : Comparator (Value F C) := fun left right error =>
  match order left right with
  | .ok ordering => (ordering, error)
  | .error _ => (.eq, some (error.getD (left.familyName, right.familyName)))

/-- The items of a stream, of which at most `room` more are taken. -/
def drain (limit : Nat) : Nat → ValueStream F C → List (Value F C) →
    Except (SortOutcome F C) (List (Value F C))
  | room, stream, items =>
    match stream.pull with
    | (.item value, stream) =>
      match room with
      | 0 => .error (.limitExceeded limit)
      | room + 1 => drain limit room stream (items ++ [value])
    | (.ended, _) => .ok items
    | (.failed error, _) => .error (.failed error)
    | (.cancelled reason, _) => .error (.cancelled reason)

/-- The value of every record at a key. -/
def keysOf (key : String) : List (Value F C) →
    Except (SortOutcome F C) (List (Value F C))
  | [] => .ok []
  | .record entries :: items =>
    match entries.lookup key with
    | some value => do return value :: (← keysOf key items)
    | none => .error (.missingKey key)
  | item :: _ => .error (.notRecord item.familyName)

/-- Positions are compared by their keys. -/
def indexComparator (keys : List (Value F C)) : Comparator (Fin keys.length) := fun left right =>
  captureOrder keys[left] keys[right]

def conclude {α : Type} (sorted : Option (List α) × Captured) (items : List α → List (Value F C)) :
    SortOutcome F C :=
  match sorted with
  | (none, _) => .panicked
  | (some _, some (left, right)) => .incomparable left right
  | (some order, none) => .sorted (items order)

def sortByKey (standardSort : StandardSort) (items : List (Value F C)) (key : String) :
    SortOutcome F C :=
  match keysOf key items with
  | .error outcome => outcome
  | .ok keys =>
    conclude ((standardSort (indexComparator keys) (List.finRange keys.length)).run none) fun indices =>
      indices.filterMap fun index => items[index.val]?

def sort (standardSort : StandardSort) (stream : ValueStream F C) (key : Option String) (limit : Nat) :
    SortOutcome F C :=
  match drain limit limit stream [] with
  | .error outcome => outcome
  | .ok items =>
    match key with
    | none => conclude ((standardSort captureOrder items).run none) id
    | some key => sortByKey standardSort items key

/-! ## What the standard library asks of a comparator -/

/-- A total preorder on some items, whatever has been kept aside between any two comparisons. -/
structure TotalPreorder {α : Type} (comparator : Comparator α) (items : List α) : Prop where
  reflexive : ∀ a ∈ items, ∀ error, (comparator a a error).1 = .eq
  swapped : ∀ a ∈ items, ∀ b ∈ items, ∀ error error', (comparator b a error').1 = (comparator a b error).1.swap
  transitive : ∀ a ∈ items, ∀ b ∈ items, ∀ c ∈ items, ∀ error error' error'', (comparator a b error).1 ≠ .gt →
    (comparator b c error').1 ≠ .gt → (comparator a c error'').1 ≠ .gt

/-- Two values without an order are strictly before the same of the values, and strictly after the same. -/
def Interchangeable (values : List (Value F C)) : Prop :=
  ∀ a ∈ values, ∀ b ∈ values, ∀ c ∈ values, (∃ failure, order a b = .error failure) →
    (order a c = .ok .lt ↔ order b c = .ok .lt) ∧ (order a c = .ok .gt ↔ order b c = .ok .gt)

variable {a b c : Value F C}

/-- The answer of the comparator. -/
def answer (left right : Value F C) : Ordering :=
  match order left right with
  | .ok ordering => ordering
  | .error _ => .eq

theorem captureOrder_answer (error : Captured) : (captureOrder a b error).1 = answer a b := by
  unfold captureOrder answer
  cases order a b <;> rfl

theorem answer_ok {ordering : Ordering} (compared : order a b = .ok ordering) : answer a b = ordering := by
  unfold answer
  rw [compared]

theorem answer_strict {ordering : Ordering} (strict : ordering ≠ .eq) : answer a b = ordering ↔ order a b = .ok ordering := by
  constructor
  · intro answered
    unfold answer at answered
    cases compared : order a b with
    | ok =>
      rw [compared] at answered
      rw [← answered]
    | error =>
      rw [compared] at answered
      exact absurd answered.symm strict
  · exact answer_ok

theorem order_error_swap {failure : OperationFailure} (refused : order a b = .error failure) :
    ∃ failure', order b a = .error failure' := by
  cases compared : order b a with
  | ok ordering =>
    rw [order_swap compared] at refused
    contradiction
  | error failure' => exact ⟨failure', rfl⟩

theorem answer_swap : answer b a = (answer a b).swap := by
  cases compared : order a b with
  | ok => rw [answer_ok compared, answer_ok (order_swap compared)]
  | error =>
    obtain ⟨_, refused⟩ := order_error_swap compared
    unfold answer
    rw [compared, refused]
    rfl

theorem answer_refl : answer a a = .eq := by
  have swapped := @answer_swap _ _ a a
  cases answered : answer a a with
  | eq => rfl
  | lt | gt =>
    rw [answered] at swapped
    contradiction

/-- The answers are transitive on three values when those without an order can be exchanged. -/
theorem answer_trans {values : List (Value F C)} (exchanged : Interchangeable values) (inA : a ∈ values)
    (inB : b ∈ values) (inC : c ∈ values) (first : answer a b ≠ .gt) (second : answer b c ≠ .gt) : answer a c ≠ .gt := by
  intro third
  have above : order a c = .ok .gt := (answer_strict (by decide)).mp third
  cases leftMiddle : order a b with
  | error failure =>
    have onward := (exchanged a inA b inB c inC ⟨failure, leftMiddle⟩).2.mp above
    exact second (answer_ok onward)
  | ok one =>
    cases middleRight : order b c with
    | error =>
      obtain ⟨failure', refused⟩ := order_error_swap middleRight
      have back := (exchanged c inC b inB a inA ⟨failure', refused⟩).1.mp (order_swap above)
      exact first (answer_ok (order_swap back))
    | ok two =>
      rw [answer_ok leftMiddle] at first
      rw [answer_ok middleRight] at second
      have composes := (order_composes leftMiddle middleRight above).isLE
      cases one <;> cases two <;> simp at first second composes

/-- A strict answer about one of two values without an order is one about the other. -/
theorem answer_exchange {strict : Ordering} (isStrict : strict ≠ .eq)
    (transitive : ∀ {x y z}, (x = a ∨ x = b ∨ x = c) → (y = a ∨ y = b ∨ y = c) → (z = a ∨ z = b ∨ z = c) →
      answer x y ≠ .gt → answer y z ≠ .gt → answer x z ≠ .gt)
    (equal : answer a b = .eq) (ordered : answer a c = strict) : answer b c = strict := by
  have back : answer b a = .eq := by rw [answer_swap, equal]; rfl
  cases strict with
  | eq => contradiction
  | lt =>
    by_contra other
    have below : answer c b ≠ .gt := by
      rw [answer_swap]
      cases answered : answer b c with
      | lt => exact absurd answered other
      | eq | gt => simp
    refine transitive (.inr (.inr rfl)) (.inr (.inl rfl)) (.inl rfl) below (by simp [back]) ?_
    rw [answer_swap, ordered]
    rfl
  | gt =>
    by_contra other
    exact transitive (.inl rfl) (.inr (.inl rfl)) (.inr (.inr rfl)) (by simp [equal]) other ordered

theorem totalPreorder_iff (values : List (Value F C)) :
    TotalPreorder captureOrder values ↔ Interchangeable values := by
  constructor
  · intro preorder a inA b inB c inC
    rintro ⟨failure, refused⟩
    have equal : answer a b = .eq := by
      unfold answer
      rw [refused]
    have equal' : answer b a = .eq := by rw [answer_swap, equal]; rfl
    have transitive : ∀ {x y z}, (x = a ∨ x = b ∨ x = c) → (y = a ∨ y = b ∨ y = c) → (z = a ∨ z = b ∨ z = c) →
        answer x y ≠ .gt → answer y z ≠ .gt → answer x z ≠ .gt := by
      intro x y z hx hy hz first second
      have inX : x ∈ values := by rcases hx with rfl | rfl | rfl <;> assumption
      have inY : y ∈ values := by rcases hy with rfl | rfl | rfl <;> assumption
      have inZ : z ∈ values := by rcases hz with rfl | rfl | rfl <;> assumption
      have held := preorder.transitive x inX y inY z inZ none none none
      rw [captureOrder_answer, captureOrder_answer, captureOrder_answer] at held
      exact held first second
    have exchange : ∀ strict : Ordering, strict ≠ .eq → (answer a c = strict ↔ answer b c = strict) := by
      intro strict isStrict
      constructor
      · exact answer_exchange isStrict transitive equal
      · refine answer_exchange isStrict ?_ equal'
        intro x y z hx hy hz
        exact transitive (by tauto) (by tauto) (by tauto)
    constructor
    · rw [← answer_strict (by decide), ← answer_strict (by decide)]
      exact exchange .lt (by decide)
    · rw [← answer_strict (by decide), ← answer_strict (by decide)]
      exact exchange .gt (by decide)
  · intro exchanged
    constructor
    · intro a _ error
      rw [captureOrder_answer, answer_refl]
    · intro a _ b _ error error'
      rw [captureOrder_answer, captureOrder_answer, answer_swap]
    · intro a inA b inB c inC error error' error''
      rw [captureOrder_answer, captureOrder_answer, captureOrder_answer]
      exact answer_trans exchanged inA inB inC

theorem indexComparator_preorder (keys : List (Value F C)) :
    TotalPreorder (indexComparator keys) (List.finRange keys.length) ↔ TotalPreorder captureOrder keys := by
  constructor
  · intro preorder
    have at' : ∀ a ∈ keys, ∃ index : Fin keys.length, keys[index] = a := by
      intro a listed
      obtain ⟨index, bound, found⟩ := mem_iff_getElem.mp listed
      exact ⟨⟨index, bound⟩, found⟩
    constructor
    · intro a inA error
      obtain ⟨i, rfl⟩ := at' a inA
      exact preorder.reflexive i (mem_finRange i) error
    · intro a inA b inB error error'
      obtain ⟨i, rfl⟩ := at' a inA
      obtain ⟨j, rfl⟩ := at' b inB
      exact preorder.swapped i (mem_finRange i) j (mem_finRange j) error error'
    · intro a inA b inB c inC error error' error''
      obtain ⟨i, rfl⟩ := at' a inA
      obtain ⟨j, rfl⟩ := at' b inB
      obtain ⟨k, rfl⟩ := at' c inC
      exact preorder.transitive i (mem_finRange i) j (mem_finRange j) k (mem_finRange k) error error' error''
  · intro preorder
    have key : ∀ index : Fin keys.length, keys[index] ∈ keys := fun index => getElem_mem index.isLt
    exact ⟨fun i _ => preorder.reflexive _ (key i), fun i _ j _ => preorder.swapped _ (key i) _ (key j),
      fun i _ j _ k _ => preorder.transitive _ (key i) _ (key j) _ (key k)⟩

/-- Both comparators of the command are total preorders on what they are handed exactly when values
without an order can be exchanged for each other in every strict comparison. -/
theorem sort_comparators_preorder_iff (values : List (Value F C)) :
    (TotalPreorder captureOrder values ↔ Interchangeable values) ∧
      (TotalPreorder (indexComparator values) (List.finRange values.length) ↔ Interchangeable values) :=
  ⟨totalPreorder_iff values, (indexComparator_preorder values).trans (totalPreorder_iff values)⟩

/-- Two integers and a text: the text is equal to both. -/
theorem mixed_list_not_preorder :
    ¬TotalPreorder captureOrder [(.int 2 : Value Empty Empty), .string "a", .int 1] := by
  intro preorder
  exact preorder.transitive (.int 2) (by simp) (.string "a") (by simp) (.int 1) (by simp) none none none
    (by decide) (by decide) rfl

end Opaal.Runtime.Sorting
