import Opaal.Runtime.JsonDecoderKeys
import Opaal.Syntax.Source

/-!
# Sorting a list by keys

The stable bottom-up merge sort behind `sort_by`: positions are merged in runs of doubling width,
and keys are compared in chunks, so that an evaluation can be cancelled or run out of its budget
between any two steps.
-/

namespace Opaal.Runtime.ListOperations

open Opaal.Machine List
open Opaal.Order
open Opaal.Syntax (Span)
open List (getElem?_eq_getElem range)

variable {F C : Type}

/-! ## The evaluator -/

/-- What the evaluator is given: the token it polls, the size of a value in memory, and whether
the allocator grants its first, second, third reservation and so on. -/
structure ListInput where
  cancel : CancellationToken
  sizeOfValue : Nat
  allocates : Nat → Bool

structure ListState where
  budget : ResourceBudget
  polls : Nat
  reservations : Nat

inductive ListAbort where
  | cancelled (reason : CancelReason) (span : Span)
  | budgetExceeded (span : Span)
  | operation (error : OperationError) (span : Span)
  | panicked (message : String)
deriving DecidableEq

abbrev ListM := Action ListInput ListAbort ListState

def checkCancel (span : Span) : ListM Unit := fun input state =>
  if input.cancel.isCancelled state.polls then
    .error (.cancelled (input.cancel.reason state.polls) span) { state with polls := state.polls + 1 }
  else .ok () { state with polls := state.polls + 1 }

/-- A charge that may be refused. -/
def spend (charge : ResourceBudget → Option ResourceBudget) (span : Span) : ListM Unit := fun _ state =>
  match charge state.budget with
  | some budget => .ok () { state with budget }
  | none => .error (.budgetExceeded span) state

def charge (span : Span) : ListM Unit := spend ResourceBudget.charge span

def leaveCall : ListM Unit := fun _ state =>
  match state.budget.leaveCall with
  | some budget => .ok () { state with budget }
  | none => .error (.panicked "every entered runtime call leaves exactly once") state

/-- `count.checked_mul(size)`, charged to the budget. -/
def retainElements (count size : Nat) (span : Span) : ListM Unit :=
  if 2 ^ 64 ≤ count * size then throw (.budgetExceeded span)
  else spend (ResourceBudget.chargeCollectionBytes (count * size)) span

def tryReserveExact (span : Span) : ListM Unit := fun input state =>
  if input.allocates state.reservations then .ok () { state with reservations := state.reservations + 1 }
  else .error (.budgetExceeded span) { state with reservations := state.reservations + 1 }

/-- An index that is expected to be in bounds. -/
def index {α : Type} (items : List α) (position : Nat) : ListM α :=
  match items[position]? with
  | some item => return item
  | none => throw (.panicked "index out of bounds")

/-! ## Comparing keys -/

def keyChunkSize : Nat := 4096

/-- Chunk by chunk while both last, then by length. -/
def compareKeyChunks (lengths : Ordering) (span : Span) : List (List UInt8 × List UInt8) → ListM Ordering
  | [] => return lengths
  | (left, right) :: chunks => do
    checkCancel span
    charge span
    if compare left right ≠ .eq then return compare left right
    else compareKeyChunks lengths span chunks

def compareKeyBytes (left right : List UInt8) (span : Span) : ListM Ordering :=
  compareKeyChunks (compare left.length right.length) span
    ((left.toChunks keyChunkSize).zip (right.toChunks keyChunkSize))

/-- A comparison of nested lists counts as a call, which is left also when it is given up. -/
def entered {α : Type} (inner : ListM α) (span : Span) : ListM α := do
  spend ResourceBudget.enterCall span
  let outcome ← observed inner
  leaveCall
  replay outcome

mutual

def compareListKeys : Value F C → Value F C → Span → ListM Ordering
  | .string left, .string right, span => do
    checkCancel span
    charge span
    compareKeyBytes (utf8 left) (utf8 right) span
  | .bytes left, .bytes right, span => do
    checkCancel span
    charge span
    compareKeyBytes left right span
  | .path left, .path right, span => do
    checkCancel span
    charge span
    compareKeyBytes left.bytes right.bytes span
  | .list left, .list right, span => do
    checkCancel span
    charge span
    entered (compareElements left right span) span
  | left, right, span => do
    checkCancel span
    charge span
    match order left right with
    | .ok ordering => return ordering
    | .error (.rejected error) => throw (.operation error span)
    | .error (.panicked message) => throw (.panicked message)

/-- Element by element while both lists last, then by length. -/
def compareElements : List (Value F C) → List (Value F C) → Span → ListM Ordering
  | left :: lefts, right :: rights, span => do
    let ordering ← compareListKeys left right span
    if ordering ≠ .eq then return ordering else compareElements lefts rights span
  | left, right, _ => return compare left.length right.length

end

/-! ## Sorting -/

section Sorting

variable (keys : List (Value F C)) (span : Span)

/-- The slots two neighbouring runs are merged into. -/
def mergeRuns : Nat → List Nat → List Nat → ListM (List Nat)
  | 0, _, _ => return []
  | slots + 1, left, right => do
    checkCancel span
    charge span
    match left, right with
    | first :: left, [] => return first :: (← mergeRuns slots left [])
    | first :: left, other :: right => do
      let ordering ← compareListKeys (← index keys first) (← index keys other) span
      if ordering ≠ .gt then return first :: (← mergeRuns slots left (other :: right))
      else return other :: (← mergeRuns slots (first :: left) right)
    | [], other :: right => return other :: (← mergeRuns slots [] right)
    | [], [] => throw (.panicked "index out of bounds")

/-- One pass over all runs of a width, in at most `bound` merges. -/
def mergePass (width : Nat) : Nat → List Nat → ListM (List Nat)
  | 0, indices => return indices
  | _ + 1, [] => return []
  | bound + 1, position :: indices => do
    let left := (position :: indices).take width
    let right := ((position :: indices).drop width).take width
    let merged ← mergeRuns keys span (left.length + right.length) left right
    return merged ++ (← mergePass width bound ((position :: indices).drop (2 * width)))

/-- Passes with twice the width each.  Lengths fit the machine, so the doubling never saturates
before a width reaches them. -/
def mergePasses : Nat → Nat → List Nat → ListM (List Nat)
  | 0, _, indices => return indices
  | bound + 1, width, indices => do
    if width < indices.length then mergePasses bound (width * 2) (← mergePass keys span width (indices.length + 1) indices)
    else return indices

/-- The two tables of positions are filled together. -/
def fillIndices : List Nat → ListM Unit
  | [] => return ()
  | _ :: positions => do
    checkCancel span
    charge span
    fillIndices positions

/-- Room for one more item in an output that has `filled`; the new capacity. -/
def reserveListItem (filled capacity limit : Nat) : ListM Nat := do
  checkCancel span
  spend (ResourceBudget.chargeCollectionItems 1) span
  if filled = capacity then
    let grown := min (max (capacity * 2) 1) limit
    retainElements (grown - capacity) (← read).sizeOfValue span
    tryReserveExact span
    return grown
  else return capacity

/-- The items at the selected positions behind those already in the output. -/
def collect (items : List (Value F C)) : List Nat → List (Value F C) → Nat →
    ListM (List (Value F C))
  | [], output, _ => return output
  | position :: selected, output, capacity => do
    checkCancel span
    charge span
    let capacity ← reserveListItem span output.length capacity items.length
    collect items selected (output ++ [← index items position]) capacity

/-- The positions of the items in the order of their keys. -/
def sortedPositions (length : Nat) : ListM (List Nat) := do
  if 1 < length then
    retainElements length 16 span
    tryReserveExact span
    tryReserveExact span
    fillIndices span (range length)
    mergePasses keys span (length + 1) 1 (range length)
  else return range length

/-- Stable bottom-up merge sort of positions. -/
def sortedList (items : List (Value F C)) : ListM (Value F C) := do
  let positions ← sortedPositions keys span items.length
  return .list (← collect span items positions [] 0)

end Sorting

/-! ## What interrupts an evaluation -/

section Interruptions

variable {α : Type} {input : ListInput} {state : ListState} {free : Prop} {refused : ListAbort → Prop} {span : Span}

/-- An abort that has a cause outside the values: the token tripped, or a budget that is not `free`
of limits, the allocator or the machine's address space refused. -/
def Interrupted (input : ListInput) (free : Prop) (length : Nat) : ListAbort → Prop
  | .cancelled _ _ => ∃ poll, input.cancel.isCancelled poll = true
  | .budgetExceeded _ => ¬free ∨ (∃ reservation, input.allocates reservation = false) ∨
      2 ^ 64 ≤ length * max 16 input.sizeOfValue
  | _ => False

/-- Evaluations that leave every call they enter, and stop for an interruption or an error that is
`refused`. -/
def discipline (input : ListInput) (free : Prop) (length : Nat) (refused : ListAbort → Prop) :
    Order ListAbort ListState where
  valid state := free → state.budget.Unlimited
  later first second := first.budget.Balanced second.budget
  allowed abort := Interrupted input free length abort ∨ refused abort
  refl _ := .refl _
  trans first second := first.trans second
  keeps later valid holds := later.unlimited (valid holds)

variable {length : Nat}

theorem checkCancel_runs : Runs (discipline input free length refused) (checkCancel span) input state fun _ _ => True := by
  intro _
  cases polled : input.cancel.isCancelled state.polls with
  | true =>
    have ran : checkCancel span input state =
        .error (.cancelled (input.cancel.reason state.polls) span) { state with polls := state.polls + 1 } := by
      unfold checkCancel
      rw [if_pos polled]
    rw [ran]
    exact ⟨.refl _, .inl ⟨_, polled⟩⟩
  | false =>
    have ran : checkCancel span input state = .ok () { state with polls := state.polls + 1 } := by
      unfold checkCancel
      rw [if_neg (by simp [polled])]
    rw [ran]
    exact ⟨.refl _, trivial⟩

theorem spend_runs {charge : ResourceBudget → Option ResourceBudget} (gentle : ResourceBudget.Gentle charge) :
    Runs (discipline input free length refused) (spend charge span) input state fun _ _ => True := by
  intro valid
  unfold spend
  cases charged : charge state.budget with
  | some => exact ⟨gentle.balanced _ _ charged, trivial⟩
  | none => exact ⟨.refl _, .inl (.inl fun holds => gentle.afforded _ (valid holds) charged)⟩

theorem charge_runs : Runs (discipline input free length refused) (charge span) input state fun _ _ => True :=
  spend_runs ResourceBudget.gentle_charge

theorem retainElements_runs {count size : Nat} (fits : count ≤ length) (sized : size ≤ max 16 input.sizeOfValue) :
    Runs (discipline input free length refused) (retainElements count size span) input state fun _ _ => True := by
  unfold retainElements
  split
  · next overflows => exact .throw (.inl (.inr (.inr (Nat.le_trans overflows (Nat.mul_le_mul fits sized)))))
  · exact spend_runs (ResourceBudget.gentle_bytes _)

theorem tryReserveExact_runs :
    Runs (discipline input free length refused) (tryReserveExact span) input state fun _ _ => True := by
  intro _
  cases granted : input.allocates state.reservations with
  | true =>
    have ran : tryReserveExact span input state = .ok () { state with reservations := state.reservations + 1 } := by
      unfold tryReserveExact
      rw [if_pos granted]
    rw [ran]
    exact ⟨.refl _, trivial⟩
  | false =>
    have ran : tryReserveExact span input state =
        .error (.budgetExceeded span) { state with reservations := state.reservations + 1 } := by
      unfold tryReserveExact
      rw [if_neg (by simp [granted])]
    rw [ran]
    exact ⟨.refl _, .inl (.inr (.inl ⟨_, granted⟩))⟩

theorem index_runs {items : List α} {position : Nat} {item : α} (found : items[position]? = some item) :
    Runs (discipline input free length refused) (index items position) input state fun value _ => value = item := by
  unfold index
  rw [found]
  exact .pure rfl

/-- The two checks before a step. -/
theorem visited {rest : Unit → Unit → ListM α} {post : α → ListState → Prop}
    (runs : ∀ after, Runs (discipline input free length refused) (rest () ()) input after post) :
    Runs (discipline input free length refused) (do
      let checked ← checkCancel span
      let charged ← charge span
      rest checked charged) input state post :=
  .bind checkCancel_runs fun _ _ _ _ => .bind charge_runs fun _ after _ _ => runs after

/-- A call is left as it was entered. -/
theorem entered_runs {inner : ListM α} {post : α → Prop}
    (runs : ∀ after, Runs (discipline input free length refused) inner input after fun value _ => post value) :
    Runs (discipline input free length refused) (entered inner span) input state fun value _ => post value := by
  intro valid
  unfold entered
  cases charged : state.budget.enterCall with
  | none =>
    have denied : spend ResourceBudget.enterCall span input state = .error (.budgetExceeded span) state := by
      unfold spend
      rw [charged]
    rw [error_bind denied]
    refine ⟨.refl _, .inl (.inl fun holds => ?_)⟩
    exact ResourceBudget.enterCall_afforded (valid holds) charged
  | some budget =>
    have granted : spend ResourceBudget.enterCall span input state = .ok () { state with budget } := by
      unfold spend
      rw [charged]
    rw [ok_bind granted]
    obtain ⟨outcome, after, ran, inside, seen⟩ := Runs.observed_eq (runs { state with budget })
      (fun holds => (valid holds).of_limits (ResourceBudget.enterCall_cases charged).1)
    rw [ok_bind ran]
    obtain ⟨closed, leaves, balanced⟩ := ResourceBudget.Balanced.around charged inside
    have left : leaveCall input after = .ok () { after with budget := closed } := by
      unfold leaveCall
      rw [leaves]
    rw [ok_bind left]
    cases outcome with
    | ok | error => exact ⟨balanced, seen⟩

end Interruptions

/-! ## The comparison is that of the operators -/

section Comparison

variable {input : ListInput} {state : ListState} {free : Prop} {length : Nat} {span : Span}

/-- The error the comparison operators report about the same two values. -/
def Reported (compared : Except OperationFailure Ordering) (span : Span) (abort : ListAbort) : Prop :=
  ∃ error, compared = .error (.rejected error) ∧ abort = .operation error span

variable {refused : ListAbort → Prop} {left right : Value F C}

theorem compareKeyChunks_runs (count : Nat) (left right : List UInt8) (bound : left.length < count) :
    Runs (discipline input free length refused) (compareKeyChunks (compare left.length right.length) span
      ((left.toChunks keyChunkSize).zip (right.toChunks keyChunkSize))) input state
      fun ordering _ => ordering = compare left right := by
  induction count generalizing left right state with
  | zero => omega
  | succ count ih =>
    cases left with
    | nil =>
      have decided : compare ([] : List UInt8).length right.length = compare [] right := by
        cases right with
        | nil => rfl
        | cons => simp [Nat.compare_eq_ite_lt]
      exact Runs.pure decided
    | cons byte left =>
      cases right with
      | nil =>
        have decided : compare (byte :: left).length ([] : List UInt8).length = compare (byte :: left) [] := by
          simp [Nat.compare_eq_ite_lt]
        have ends : ([] : List UInt8).toChunks keyChunkSize = [] := rfl
        rw [ends, zip_nil_right]
        exact Runs.pure decided
      | cons other right =>
        have size : keyChunkSize = 4095 + 1 := rfl
        have split := JsonDecoder.compare_take_drop keyChunkSize (byte :: left) (other :: right)
        rw [size, JsonDecoder.toChunks_cons, JsonDecoder.toChunks_cons, zip_cons_cons, ← size]
        apply visited
        intro after
        by_cases same : compare ((byte :: left).take keyChunkSize) ((other :: right).take keyChunkSize) = .eq
        · rw [same, Ordering.eq_then] at split
          simp only [same, ne_eq, not_true_eq_false, ↓reduceIte]
          rw [split, ← JsonDecoder.compare_length_drop (Std.LawfulEqOrd.eq_of_compare same)]
          apply ih
          rw [length_drop, size]
          simp only [length_cons] at bound ⊢
          omega
        · simp only [ne_eq, same, not_false_eq_true, ↓reduceIte]
          apply Runs.pure
          rw [split]
          cases decided : compare ((byte :: left).take keyChunkSize) ((other :: right).take keyChunkSize) with
          | lt | gt => rfl
          | eq => exact absurd decided same

theorem compareKeyBytes_runs (left right : List UInt8) :
    Runs (discipline input free length refused) (compareKeyBytes left right span) input state
      fun ordering _ => ordering = compare left right :=
  compareKeyChunks_runs _ left right (Nat.lt_succ_self _)

/-- What the comparison of two keys must do. -/
def Compares (left right : Value F C) : Prop :=
  ∀ {input state free length span}, Runs (discipline input free length (Reported (order left right) span))
    (compareListKeys left right span) input state fun ordering _ => order left right = .ok ordering

/-- A discipline that reports what another one does, and possibly more. -/
theorem reports_more {α : Type} {program : ListM α} {post : α → ListState → Prop} {more : ListAbort → Prop}
    (runs : Runs (discipline input free length refused) program input state post)
    (wider : ∀ abort, refused abort → more abort) : Runs (discipline input free length more) program input state post :=
  .widen runs id (fun _ => id) fun abort allowed => allowed.imp_right (wider abort)

theorem compareElements_runs {left : List (Value F C)}
    (each : ∀ a ∈ left, ∀ b : Value F C, Compares a b) (right : List (Value F C)) :
    Runs (discipline input free length (Reported (orderLists left right) span)) (compareElements left right span) input state
      fun ordering _ => orderLists left right = .ok ordering := by
  induction left generalizing right state with
  | nil => exact Runs.pure (by simp [orderLists])
  | cons a left ih =>
    cases right with
    | nil => exact Runs.pure (by simp [orderLists])
    | cons b right =>
      have head : Compares a b := each a mem_cons_self b
      refine Runs.bind (reports_more head ?_) ?_
      · rintro abort ⟨error, compared, rfl⟩
        exact ⟨error, by rw [orderLists, compared], rfl⟩
      · intro ordering after _ compared
        by_cases same : ordering = .eq
        · subst same
          have onward : orderLists (a :: left) (b :: right) = orderLists left right := by rw [orderLists, compared]
          rw [if_neg (by simp), onward]
          exact ih (fun a listed => each a (mem_cons_of_mem _ listed)) right
        · rw [if_pos same]
          apply Runs.pure
          rw [orderLists, compared]
          cases ordering with
          | eq => contradiction
          | lt | gt => rfl

/-- Texts, bytes and paths are compared by their bytes. -/
theorem compares_bytes {first second : List UInt8} (ordered : order left right = .ok (compare first second)) :
    Runs (discipline input free length refused) (do
      checkCancel span
      charge span
      compareKeyBytes first second span) input state fun ordering _ => order left right = .ok ordering := by
  apply visited
  intro after
  refine .mono (compareKeyBytes_runs first second) ?_
  rintro ordering _ _ rfl
  exact ordered

/-- Only the comparison of two lists compares other keys. -/
theorem compares_of_lists
    (lists : ∀ lefts rights, left = .list lefts → right = .list rights → ∀ {input state free length span}, Runs (discipline input free length (Reported (orderLists lefts rights) span)) (compareElements lefts rights span) input state fun ordering _ => orderLists lefts rights = .ok ordering) : Compares left right := by
  intro input state free length span
  unfold compareListKeys
  split
  · exact compares_bytes rfl
  · exact compares_bytes rfl
  · exact compares_bytes rfl
  · next span lefts rights =>
    have ordered : order (.list lefts) (.list rights) = orderLists lefts rights := by rw [order]
    rw [ordered]
    apply visited
    intro after
    exact entered_runs fun after => lists lefts rights rfl rfl
  · apply visited
    intro after
    cases compared : order left right with
    | ok => exact .pure rfl
    | error failure =>
      cases failure with
      | rejected error => exact .throw (.inr ⟨error, rfl, rfl⟩)
      | panicked message => exact absurd compared (order_never_panics left right message)

theorem compareListKeys_compares (left right : Value F C) : Compares left right := by
  induction left using Value.inductionLists generalizing right with
  | leaf _ outside =>
    apply compares_of_lists
    intro lefts rights same
    exact absurd same (outside lefts)
  | list _ ih =>
    apply compares_of_lists
    intro lefts rights same _ input state free length span
    cases same
    exact compareElements_runs (fun a listed b => ih a listed b) rights

end Comparison

/-! ## The sort is stable -/

section Stability

variable {input : ListInput} {state : ListState} {free : Prop} {span : Span} {keys : List (Value F C)}

/-- The order of two positions by their keys; positions without a key come last. -/
def keyOrdering (keys : List (Value F C)) (first second : Nat) : Ordering :=
  match keys[first]?, keys[second]? with
  | some a, some b =>
    match order a b with
    | .ok ordering => ordering
    | .error _ => .eq
  | some _, none => .lt
  | none, some _ => .gt
  | none, none => .eq

def keyLe (keys : List (Value F C)) (first second : Nat) : Bool := keyOrdering keys first second != .gt

/-- Equal keys keep the order of their positions. -/
def stableLe (keys : List (Value F C)) (first second : Nat) : Bool :=
  ((keyOrdering keys first second).then (compare first second)).isLE

/-- Every two keys have an order. -/
def Comparable (keys : List (Value F C)) : Prop := ∀ a ∈ keys, ∀ b ∈ keys, ∃ ordering, order a b = .ok ordering

section

variable (comparable : Comparable keys)
include comparable

theorem keyOrdering_some {first second : Nat} {a b : Value F C} (left : keys[first]? = some a)
    (right : keys[second]? = some b) :
    order a b = .ok (keyOrdering keys first second) := by
  obtain ⟨_, compared⟩ := comparable a (mem_of_getElem? left) b (mem_of_getElem? right)
  unfold keyOrdering
  rw [left, right]
  simp [compared]

theorem keyOrdering_swap (first second : Nat) :
    keyOrdering keys second first = (keyOrdering keys first second).swap := by
  cases left : keys[first]? with
  | some =>
    cases right : keys[second]? with
    | some =>
      have forward := order_swap (keyOrdering_some comparable left right)
      rw [keyOrdering_some comparable right left] at forward
      exact Except.ok.inj forward
    | none => simp [keyOrdering, left, right]
  | none => cases right : keys[second]? <;> simp [keyOrdering, left, right]

theorem keyOrdering_composes (first second third : Nat) :
    Order.Composes (keyOrdering keys first second) (keyOrdering keys second third) (keyOrdering keys first third) := by
  cases left : keys[first]? with
  | some =>
    cases middle : keys[second]? with
    | some =>
      cases right : keys[third]? with
      | some =>
        exact order_composes (keyOrdering_some comparable left middle) (keyOrdering_some comparable middle right)
          (keyOrdering_some comparable left right)
      | none =>
        have last : keyOrdering keys second third = .lt := by simp [keyOrdering, middle, right]
        have last' : keyOrdering keys first third = .lt := by simp [keyOrdering, left, right]
        rw [last, last']
        exact ⟨fun _ => rfl, fun impossible => (nomatch impossible), fun same => same.symm⟩
    | none => cases right : keys[third]? <;> constructor <;> simp [keyOrdering, left, middle, right]
  | none =>
    cases middle : keys[second]? <;> cases right : keys[third]? <;> constructor <;>
      simp [keyOrdering, left, middle, right]

theorem stableLe_trans (first second third : Nat) (one : stableLe keys first second) (two : stableLe keys second third) : stableLe keys first third :=
  ((keyOrdering_composes comparable first second third).lexicographic fun _ _ =>
    Order.composes_compare first second third).isLE one two

theorem stableLe_total (first second : Nat) :
    stableLe keys first second || stableLe keys second first := by
  unfold stableLe
  rw [keyOrdering_swap comparable first second, @Std.OrientedCmp.eq_swap _ compare _ second first, ← Ordering.swap_then]
  cases (keyOrdering keys first second).then (compare first second) <;> rfl

end

/-- Both orders agree on positions in their order. -/
theorem keyLe_eq_stableLe (first second : Nat) (before : first < second) :
    keyLe keys first second = stableLe keys first second := by
  unfold keyLe stableLe
  rw [Nat.compare_eq_lt.mpr before]
  cases keyOrdering keys first second <;> rfl

/-- The sort of all positions. -/
theorem bottomUp_stable (comparable : Comparable keys) (length : Nat) :
    let positions := bottomUp (keyLe keys) (length + 1) 1 (range length)
    positions.Perm (range length) ∧ positions.Pairwise (stableLe keys · ·) := by
  have ordered : (range length).Pairwise (· < ·) := pairwise_lt_range
  have same : bottomUp (keyLe keys) (length + 1) 1 (range length) =
      bottomUp (stableLe keys) (length + 1) 1 (range length) :=
    Order.bottomUp_congr keyLe_eq_stableLe Nat.one_pos (Order.runsBefore_one ordered) _
  intro positions
  have spec := @Order.bottomUp_spec _ (stableLe keys) 1 (range length) (stableLe_trans comparable)
    (stableLe_total comparable) Nat.one_pos (Order.inRuns_one _) (length + 1) (by rw [length_range]; omega)
  rw [← same] at spec
  exact spec

variable {length : Nat}

theorem mergeRuns_runs (comparable : Comparable keys) (slots : Nat) (left right : List Nat)
    (exactly : slots = left.length + right.length) (known : ∀ position ∈ left ++ right, position < keys.length) :
    Runs (discipline input free length fun _ => False) (mergeRuns keys span slots left right) input state
      fun merged _ => merged = left.merge right (keyLe keys) := by
  induction slots generalizing state left right with
  | zero =>
    have none : left = [] ∧ right = [] := by
      constructor <;> (apply eq_nil_of_length_eq_zero; omega)
    obtain ⟨rfl, rfl⟩ := none
    exact Runs.pure (nil_merge []).symm
  | succ slots ih =>
    apply visited
    intro after
    cases left with
    | nil =>
      cases right with
      | nil => contradiction
      | cons other right =>
        refine Runs.bind (ih [] right (by simp only [length_cons, length_nil] at exactly ⊢; omega)
          fun position listed => known position (by simp at listed ⊢; exact .inr listed)) ?_
        rintro merged _ _ rfl
        apply Runs.pure
        rw [nil_merge, nil_merge]
    | cons first left =>
      cases right with
      | nil =>
        refine Runs.bind (ih left [] (by simp only [length_cons, length_nil] at exactly ⊢; omega)
          fun position listed => known position (by simp at listed ⊢; exact .inr listed)) ?_
        rintro merged _ _ rfl
        apply Runs.pure
        rw [merge_right, merge_right]
      | cons other right =>
        have firstBound := known first (by simp)
        have otherBound := known other (by simp)
        have firstKey := getElem?_eq_getElem firstBound
        have otherKey := getElem?_eq_getElem otherBound
        have ordered := keyOrdering_some comparable firstKey otherKey
        refine Runs.bind (index_runs firstKey) ?_
        rintro _ _ _ rfl
        refine Runs.bind (index_runs otherKey) ?_
        rintro _ _ _ rfl
        have compares : Compares keys[first] keys[other] := compareListKeys_compares _ _
        refine Runs.bind (reports_more compares ?_) ?_
        · rintro abort ⟨error, refused, _⟩
          rw [ordered] at refused
          contradiction
        · intro ordering onward _ compared
          have same : ordering = keyOrdering keys first other := by
            rw [ordered] at compared
            exact (Except.ok.inj compared).symm
          rw [cons_merge_cons]
          by_cases greater : ordering = .gt
          · have goesRight : keyLe keys first other = false := by simp [keyLe, ← same, greater]
            rw [if_neg (by simp [greater]), goesRight, if_neg (by simp)]
            refine Runs.bind (ih (first :: left) right (by simp only [length_cons] at exactly ⊢; omega)
              fun position listed => known position (by simp at listed ⊢; grind)) ?_
            rintro merged _ _ rfl
            exact Runs.pure rfl
          · have goesLeft : keyLe keys first other = true := by simp [keyLe, ← same, greater]
            rw [if_pos greater, goesLeft, if_pos rfl]
            refine Runs.bind (ih left (other :: right) (by simp only [length_cons] at exactly ⊢; omega)
              fun position listed => known position (by simp at listed ⊢; grind)) ?_
            rintro merged _ _ rfl
            exact Runs.pure rfl

theorem mergePass_runs (comparable : Comparable keys) {width : Nat} (bound : Nat) (indices : List Nat)
    (known : ∀ position ∈ indices, position < keys.length) :
    Runs (discipline input free length fun _ => False) (mergePass keys span width bound indices) input state
      fun merged _ => merged = mergeNeighbours (keyLe keys) width bound indices := by
  induction bound generalizing state indices with
  | zero => exact .pure rfl
  | succ _ ih =>
    cases indices with
    | nil => exact .pure rfl
    | cons =>
      refine .bind (mergeRuns_runs comparable _ _ _ rfl ?_) ?_
      · intro other listed
        apply known
        rcases mem_append.mp listed with left | right
        · exact mem_of_mem_take left
        · exact mem_of_mem_drop (mem_of_mem_take right)
      rintro merged _ _ rfl
      refine .bind (ih _ fun other listed => known other (mem_of_mem_drop listed)) ?_
      rintro rest _ _ rfl
      exact .pure rfl

theorem mergePasses_runs (comparable : Comparable keys) (bound : Nat) {width : Nat} (indices : List Nat)
    (known : ∀ position ∈ indices, position < keys.length) :
    Runs (discipline input free length fun _ => False) (mergePasses keys span bound width indices) input state
      fun merged _ => merged = bottomUp (keyLe keys) bound width indices := by
  induction bound generalizing state width indices with
  | zero => exact .pure rfl
  | succ _ ih =>
    unfold mergePasses bottomUp
    split
    · refine .bind (mergePass_runs comparable _ indices known) ?_
      rintro merged _ _ rfl
      apply ih
      intro position listed
      exact known position ((Order.mergeNeighbours_perm _).mem_iff.mp listed)
    · exact .pure rfl

theorem fillIndices_runs (positions : List Nat) :
    Runs (discipline input free length fun _ => False) (fillIndices span positions) input state fun _ _ => True := by
  induction positions generalizing state with
  | nil => exact .pure trivial
  | cons _ _ ih =>
    apply visited
    intro after
    exact ih

theorem sortedPositions_runs (comparable : Comparable keys) (enough : length ≤ keys.length) :
    Runs (discipline input free length fun _ => False) (sortedPositions keys span length) input state
      fun positions _ => positions.Perm (range length) ∧ positions.Pairwise (stableLe keys · ·) := by
  unfold sortedPositions
  split
  · refine .bind (retainElements_runs (Nat.le_refl _) (Nat.le_max_left _ _)) ?_
    intro _ _ _ _
    refine .bind tryReserveExact_runs ?_
    intro _ _ _ _
    refine .bind tryReserveExact_runs ?_
    intro _ _ _ _
    refine .bind (fillIndices_runs _) ?_
    intro _ _ _ _
    refine .mono (mergePasses_runs comparable _ _ ?_) ?_
    · intro position listed
      exact Nat.lt_of_lt_of_le (mem_range.mp listed) enough
    · rintro positions _ _ rfl
      exact bottomUp_stable comparable length
  · next few =>
    apply Runs.pure
    refine ⟨List.Perm.refl _, ?_⟩
    have cases : length = 0 ∨ length = 1 := by omega
    rcases cases with rfl | rfl <;> simp

theorem reserveListItem_runs (filled capacity : Nat) :
    Runs (discipline input free length fun _ => False) (reserveListItem span filled capacity length) input state
      fun _ _ => True := by
  refine .bind checkCancel_runs ?_
  intro _ _ _ _
  refine .bind (spend_runs (ResourceBudget.gentle_items 1)) ?_
  intro _ after _ _
  split
  · refine .reads (rfl : _ = EStateM.Result.ok input _) ?_
    refine .bind (retainElements_runs (by omega) (Nat.le_max_right _ _)) ?_
    intro _ _ _ _
    refine .bind tryReserveExact_runs ?_
    intro _ _ _ _
    exact .pure trivial
  · exact .pure trivial

variable {items : List (Value F C)}

theorem collect_runs (selected : List Nat) (known : ∀ position ∈ selected, position < items.length)
    (output : List (Value F C)) (capacity : Nat) :
    Runs (discipline input free items.length fun _ => False) (collect span items selected output capacity) input state
      fun collected _ => collected = output ++ selected.filterMap (items[·]?) := by
  induction selected generalizing state output capacity with
  | nil => exact .pure (by simp)
  | cons position _ ih =>
    apply visited
    intro after
    have found := getElem?_eq_getElem (known position mem_cons_self)
    refine .bind (reserveListItem_runs _ _) ?_
    intro capacity _ _ _
    refine .bind (index_runs found) ?_
    rintro item _ _ rfl
    refine .mono (ih (fun other listed => known other (mem_cons_of_mem _ listed)) _ _) ?_
    rintro collected _ _ rfl
    rw [filterMap_cons_some found, append_assoc, singleton_append]

/-- Items in the order of their keys, items of equal keys in their original order. -/
def StablySorted (items keys sorted : List (Value F C)) : Prop :=
  ∃ positions : List Nat, positions.Perm (range items.length) ∧ sorted = positions.filterMap (items[·]?) ∧
    positions.Pairwise fun first second => ∃ a b ordering, keys[first]? = some a ∧ keys[second]? = some b ∧
      order a b = .ok ordering ∧ (ordering = .lt ∨ ordering = .eq ∧ first < second)

theorem stablySorted_of_positions (comparable : Comparable keys) (paired : keys.length = items.length) {positions : List Nat}
    (perm : positions.Perm (range items.length)) (sorted : positions.Pairwise (stableLe keys · ·)) :
    StablySorted items keys (positions.filterMap (items[·]?)) := by
  refine ⟨positions, perm, rfl, ?_⟩
  have distinct : positions.Nodup := perm.nodup_iff.mpr nodup_range
  refine (sorted.and distinct).imp_of_mem ?_
  rintro first second firstListed secondListed ⟨below, apart⟩
  have firstBound : first < keys.length := by
    rw [paired]
    exact mem_range.mp (perm.mem_iff.mp firstListed)
  have secondBound : second < keys.length := by
    rw [paired]
    exact mem_range.mp (perm.mem_iff.mp secondListed)
  have firstKey := getElem?_eq_getElem firstBound
  have secondKey := getElem?_eq_getElem secondBound
  refine ⟨_, _, _, firstKey, secondKey, keyOrdering_some comparable firstKey secondKey, ?_⟩
  unfold stableLe at below
  cases compared : keyOrdering keys first second with
  | lt => exact .inl rfl
  | eq =>
    rw [compared, Ordering.eq_then, Nat.isLE_compare] at below
    exact .inr ⟨rfl, by omega⟩
  | gt =>
    rw [compared] at below
    contradiction

theorem sortedList_runs (comparable : Comparable keys) (paired : keys.length = items.length) :
    Runs (discipline input free items.length fun _ => False) (sortedList keys span items) input state
      fun value _ => ∃ sorted, value = .list sorted ∧ StablySorted items keys sorted := by
  refine .bind (sortedPositions_runs comparable (Nat.le_of_eq paired.symm)) ?_
  rintro positions _ _ ⟨perm, sorted⟩
  refine .bind (collect_runs positions (fun position listed => mem_range.mp (perm.mem_iff.mp listed)) [] 0) ?_
  rintro collected _ _ rfl
  exact .pure ⟨_, rfl, stablySorted_of_positions comparable paired perm sorted⟩

/-- What is known of an evaluation when it returns, and when it stops. -/
structure Concludes {α : Type} (outcome : EStateM.Result ListAbort ListState α) (returned : α → Prop)
    (stopped : ListAbort → Prop) : Prop where
  ok : ∀ {value after}, outcome = .ok value after → returned value
  error : ∀ {abort after}, outcome = .error abort after → stopped abort

theorem Runs.concludes {α : Type} {program : ListM α} {refused : ListAbort → Prop} {post : α → Prop}
    (runs : Runs (discipline input state.budget.Unlimited length refused) program input state fun value _ => post value) :
    Concludes (program input state) post fun abort =>
      Interrupted input state.budget.Unlimited length abort ∨ refused abort := by
  have ended := runs id
  constructor
  · intro value after ran
    rw [ran] at ended
    exact ended.2
  · intro abort after ran
    rw [ran] at ended
    exact ended.2

/-- Whatever does not interrupt it, the sort of a list with pairwise comparable keys returns the items
stably sorted, and the comparison of two keys answers or reports what the order of values does. -/
theorem sorts_stably_by_order (input : ListInput) (state : ListState) (span : Span) :
    (∀ items keys : List (Value F C), keys.length = items.length → Comparable keys →
      Concludes (sortedList keys span items input state)
        (fun value => ∃ sorted, value = .list sorted ∧ StablySorted items keys sorted)
        (Interrupted input state.budget.Unlimited items.length)) ∧
    ∀ left right : Value F C,
      Concludes (compareListKeys left right span input state) (fun ordering => order left right = .ok ordering)
        fun abort => Interrupted input state.budget.Unlimited 0 abort ∨ Reported (order left right) span abort := by
  constructor
  · intro items keys paired comparable
    have runs : Runs (discipline input state.budget.Unlimited items.length fun _ => False) (sortedList keys span items)
        input state fun value _ => ∃ sorted, value = .list sorted ∧ StablySorted items keys sorted :=
      sortedList_runs comparable paired
    have concluded := Runs.concludes runs
    exact ⟨concluded.ok, fun stopped => (concluded.error stopped).resolve_right id⟩
  · intro left right
    exact Runs.concludes (compareListKeys_compares left right)

/-- An evaluator that is never interrupted, and its first state. -/
def uninterrupted : ListInput := ⟨.never, 32, fun _ => true⟩

def fresh : ListState := ⟨.unlimited, 0, 0⟩

/-- Two integers in the wrong order. -/
def twoIntegers : List (Value Empty Empty) := [.int 2, .int 1]

theorem twoIntegers_comparable : Comparable twoIntegers := by
  intro a left b right
  unfold twoIntegers at left right
  rw [mem_pair] at left right
  rcases left with rfl | rfl
  · rcases right with rfl | rfl
    · exact ⟨.eq, rfl⟩
    · exact ⟨.gt, rfl⟩
  · rcases right with rfl | rfl
    · exact ⟨.lt, rfl⟩
    · exact ⟨.eq, rfl⟩

theorem sorts_two_integers :
    Concludes (sortedList twoIntegers ⟨0, 0, 1⟩ twoIntegers uninterrupted fresh)
      (fun value => ∃ sorted, value = .list sorted ∧ StablySorted twoIntegers twoIntegers sorted)
      (Interrupted uninterrupted fresh.budget.Unlimited twoIntegers.length) :=
  (sorts_stably_by_order uninterrupted fresh ⟨0, 0, 1⟩).1 twoIntegers twoIntegers rfl twoIntegers_comparable

end Stability

end Opaal.Runtime.ListOperations
