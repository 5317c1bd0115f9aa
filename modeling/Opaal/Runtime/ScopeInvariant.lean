import Opaal.Machine.Stateful
import Opaal.Runtime.Scope

/-!
# What scopes keep

Every operation either leaves the stack alone or makes one of a few edits.  The edits keep
a stack well formed, and all but a pop or a removal keep every immutable binding.  Whole
runs follow from the single edits, also runs through capsule deltas that fail half way.
-/

namespace Opaal.Runtime

open Opaal.Machine List

variable {F C : Type}

/-- A declared type, if there is one, accepts the value. -/
def Accepted (valueType : Option ValueType) (value : Value F C) : Prop :=
  ∀ expected, valueType = some expected → expected.accepts value = true

structure ScopeFrame.WellFormed (frame : ScopeFrame F C) : Prop where
  distinct : (frame.map Prod.fst).Nodup
  typed : ∀ entry ∈ frame, Accepted entry.2.valueType entry.2.value

structure ScopeStack.WellFormed (stack : ScopeStack F C) : Prop where
  root : stack.frames ≠ []
  frames : ∀ frame ∈ stack.frames, frame.WellFormed

/-! ## Frames -/

namespace ScopeFrame

variable {frame : ScopeFrame F C} {name : String}

theorem find_nil : find name ([] : ScopeFrame F C) = none := rfl

theorem find_cons (candidate : String) (binding : Binding F C) :
    find name ((candidate, binding) :: frame) = if candidate = name then some binding else find name frame := by
  unfold find
  by_cases same : candidate = name
  · simp [same]
  · simp [beq_eq_false_iff_ne.mpr same, if_neg same]

theorem find_eq_none : find name frame = none ↔ name ∉ frame.map Prod.fst := by
  induction frame with
  | nil => simp [find_nil]
  | cons entry _ ih =>
    rw [find_cons, map_cons, mem_cons]
    by_cases same : entry.1 = name
    · simp [same]
    · rw [if_neg same, ih]
      constructor
      · rintro missing (found | found)
        · exact same found.symm
        · exact missing found
      · intro missing found
        exact missing (.inr found)

theorem find_mem {binding : Binding F C} (found : find name frame = some binding) :
    (name, binding) ∈ frame := by
  induction frame with
  | nil => contradiction
  | cons _ _ ih =>
    rw [find_cons] at found
    split at found
    · next same =>
      cases found
      rw [← same]
      exact mem_cons_self
    · exact mem_cons_of_mem _ (ih found)

theorem find_append (entry : String × Binding F C) :
    find name (frame ++ [entry]) = (find name frame).or (if entry.1 = name then some entry.2 else none) := by
  induction frame with
  | nil => rw [nil_append, find_cons, find_nil, Option.none_or]
  | cons _ _ ih =>
    rw [cons_append, find_cons, find_cons, ih]
    split
    · rfl
    · rfl

theorem find_store_of_ne {other : String} (value : Value F C) (different : other ≠ name) :
    find other (store name value frame) = find other frame := by
  induction frame with
  | nil => rfl
  | cons entry _ ih =>
    unfold store
    split
    · next same =>
      have candidate := beq_iff_eq.mp same
      have unequal : ¬entry.1 = other := fun matched => different (by rw [← matched, candidate])
      rw [find_cons, find_cons, if_neg unequal, if_neg unequal]
    · rw [find_cons, find_cons, ih]

theorem map_fst_store (value : Value F C) :
    (store name value frame).map Prod.fst = frame.map Prod.fst := by
  induction frame with
  | nil => rfl
  | cons _ _ ih =>
    unfold store
    split
    · rfl
    · rw [map_cons, map_cons, ih]

theorem find_erase_of_ne {other : String} (different : other ≠ name) :
    find other (erase name frame) = find other frame := by
  induction frame with
  | nil => rfl
  | cons entry _ ih =>
    unfold erase at ih ⊢
    rw [eraseP_cons]
    by_cases same : entry.1 = name
    · have unequal : ¬entry.1 = other := fun matched => different (by rw [← matched, same])
      rw [beq_iff_eq.mpr same, cond_true, find_cons, if_neg unequal]
    · rw [beq_eq_false_iff_ne.mpr same, cond_false, find_cons, find_cons, ih]

theorem WellFormed.nil : WellFormed ([] : ScopeFrame F C) := ⟨nodup_nil, by simp⟩

theorem WellFormed.declared (wellFormed : frame.WellFormed) {binding : Binding F C}
    (fresh : find name frame = none) (typed : Accepted binding.valueType binding.value) :
    WellFormed (frame ++ [(name, binding)]) where
  distinct := by
    rw [map_append, nodup_append]
    refine ⟨wellFormed.distinct, by simp, ?_⟩
    intro old member new listed
    have missing := find_eq_none.mp fresh
    rw [map_singleton, mem_singleton] at listed
    rintro rfl
    rw [listed] at member
    exact missing member
  typed := by
    intro entry member
    rw [mem_append, mem_singleton] at member
    rcases member with old | rfl
    · exact wellFormed.typed entry old
    · exact typed

/-- The first binding of a name is the only one that is stored into. -/
theorem WellFormed.stored (wellFormed : frame.WellFormed) {binding : Binding F C}
    (found : find name frame = some binding) {value : Value F C}
    (typed : Accepted binding.valueType value) : WellFormed (store name value frame) where
  distinct := by
    rw [map_fst_store]
    exact wellFormed.distinct
  typed := by
    have entries := wellFormed.typed
    clear wellFormed
    induction frame with
    | nil => contradiction
    | cons _ _ ih =>
      intro entry member
      unfold store at member
      rw [find_cons] at found
      split at member
      · next same =>
        rw [if_pos (beq_iff_eq.mp same)] at found
        cases found
        rcases mem_cons.mp member with rfl | old
        · exact typed
        · exact entries entry (mem_cons_of_mem _ old)
      · next different =>
        rw [if_neg (fun same => different (beq_iff_eq.mpr same))] at found
        rcases mem_cons.mp member with rfl | later
        · exact entries _ mem_cons_self
        · exact ih found (fun other listed => entries other (mem_cons_of_mem _ listed)) entry later

theorem WellFormed.erased (wellFormed : frame.WellFormed) : WellFormed (erase name frame) where
  distinct := by
    have sub : List.Sublist ((erase name frame).map Prod.fst) (frame.map Prod.fst) :=
      .map Prod.fst eraseP_sublist
    exact wellFormed.distinct.sublist sub
  typed := by
    intro entry member
    exact wellFormed.typed entry (mem_of_mem_eraseP member)

end ScopeFrame

/-! ## Cells -/

/-- The binding of a name in the frame with `depth` frames below it. -/
def cell : List (ScopeFrame F C) → Nat → String → Option (Binding F C)
  | [], _, _ => none
  | frame :: outer, depth, name => if depth = outer.length then frame.find name else cell outer depth name

/-- The depth of the innermost frame that binds a name. -/
def innermost (name : String) : List (ScopeFrame F C) → Option Nat
  | [] => none
  | frame :: outer => if (frame.find name).isSome then some outer.length else innermost name outer

section Cells

variable {frames : List (ScopeFrame F C)} {depth : Nat} {name other : String}
  {binding : Binding F C}

theorem cell_lt (found : cell frames depth name = some binding) : depth < frames.length := by
  induction frames with
  | nil => contradiction
  | cons frame outer ih =>
    unfold cell at found
    rw [length_cons]
    split at found
    · omega
    · have below := ih found
      omega

theorem innermost_lt (found : innermost name frames = some depth) : depth < frames.length := by
  induction frames with
  | nil => contradiction
  | cons frame outer ih =>
    unfold innermost at found
    rw [length_cons]
    split at found
    · cases found
      omega
    · have below := ih found
      omega

/-- What a lookup finds is the innermost cell. -/
theorem cell_innermost (found : frames.findSome? (ScopeFrame.find name) = some binding) :
    ∃ depth, innermost name frames = some depth ∧ cell frames depth name = some binding := by
  induction frames with
  | nil => contradiction
  | cons frame outer ih =>
    rw [List.findSome?_cons] at found
    unfold innermost cell
    cases here : frame.find name with
    | some =>
      exact ⟨outer.length, rfl, by simpa [here] using found⟩
    | none =>
      rw [here] at found
      obtain ⟨depth, inner, held⟩ := ih found
      have below := innermost_lt inner
      exact ⟨depth, by simpa using inner, by rw [if_neg (by omega), held]⟩

variable (value : Value F C)

theorem length_storeValue : (storeValue name value frames).length = frames.length := by
  induction frames with
  | nil => rfl
  | cons _ _ ih =>
    unfold storeValue
    split
    · rfl
    · rw [length_cons, length_cons, ih]

theorem length_eraseBinding : (eraseBinding name frames).length = frames.length := by
  induction frames with
  | nil => rfl
  | cons _ _ ih =>
    unfold eraseBinding
    split
    · rfl
    · rw [length_cons, length_cons, ih]

/-- Storing changes one cell only. -/
theorem cell_storeValue (elsewhere : ¬(other = name ∧ innermost name frames = some depth)) :
    cell (storeValue name value frames) depth other = cell frames depth other := by
  induction frames with
  | nil => rfl
  | cons _ outer ih =>
    unfold innermost at elsewhere
    unfold storeValue
    split
    · next here =>
      rw [if_pos here] at elsewhere
      unfold cell
      by_cases top : depth = outer.length
      · have different : other ≠ name := fun same => elsewhere ⟨same, by rw [top]⟩
        rw [if_pos top, if_pos top, ScopeFrame.find_store_of_ne value different]
      · rw [if_neg top, if_neg top]
    · next missing =>
      rw [if_neg missing] at elsewhere
      unfold cell
      rw [length_storeValue, ih elsewhere]

theorem cell_eraseBinding (elsewhere : ¬(other = name ∧ innermost name frames = some depth)) :
    cell (eraseBinding name frames) depth other = cell frames depth other := by
  induction frames with
  | nil => rfl
  | cons _ outer ih =>
    unfold innermost at elsewhere
    unfold eraseBinding
    split
    · next here =>
      rw [if_pos here] at elsewhere
      unfold cell
      by_cases top : depth = outer.length
      · have different : other ≠ name := fun same => elsewhere ⟨same, by rw [top]⟩
        rw [if_pos top, if_pos top, ScopeFrame.find_erase_of_ne different]
      · rw [if_neg top, if_neg top]
    · next missing =>
      rw [if_neg missing] at elsewhere
      unfold cell
      rw [length_eraseBinding, ih elsewhere]

theorem innermost_storeValue (different : other ≠ name) :
    innermost other (storeValue name value frames) = innermost other frames := by
  induction frames with
  | nil => rfl
  | cons _ _ ih =>
    unfold storeValue
    split
    · unfold innermost
      rw [ScopeFrame.find_store_of_ne value different]
    · unfold innermost
      rw [length_storeValue, ih]

theorem innermost_eraseBinding (different : other ≠ name) :
    innermost other (eraseBinding name frames) = innermost other frames := by
  induction frames with
  | nil => rfl
  | cons _ _ ih =>
    unfold eraseBinding
    split
    · unfold innermost
      rw [ScopeFrame.find_erase_of_ne different]
    · unfold innermost
      rw [length_eraseBinding, ih]

/-- The frames other than the innermost one that binds the name stay. -/
theorem wellFormed_storeValue {value : Value F C} (wellFormed : ∀ frame ∈ frames, frame.WellFormed)
    (found : frames.findSome? (ScopeFrame.find name) = some binding) (typed : Accepted binding.valueType value) :
    ∀ frame ∈ storeValue name value frames, frame.WellFormed := by
  induction frames with
  | nil => contradiction
  | cons first outer ih =>
    rw [List.findSome?_cons] at found
    have head := wellFormed first mem_cons_self
    have tail : ∀ frame ∈ outer, frame.WellFormed := fun frame member => wellFormed frame (mem_cons_of_mem _ member)
    unfold storeValue
    cases here : first.find name with
    | some =>
      rw [here] at found
      cases found
      exact forall_mem_cons.mpr ⟨head.stored here typed, tail⟩
    | none =>
      rw [here] at found
      exact forall_mem_cons.mpr ⟨head, ih tail found⟩

theorem wellFormed_eraseBinding (wellFormed : ∀ frame ∈ frames, frame.WellFormed) :
    ∀ frame ∈ eraseBinding name frames, frame.WellFormed := by
  induction frames with
  | nil => exact wellFormed
  | cons first outer ih =>
    have head := wellFormed first mem_cons_self
    have tail : ∀ frame ∈ outer, frame.WellFormed := fun frame member => wellFormed frame (mem_cons_of_mem _ member)
    unfold eraseBinding
    split
    · exact forall_mem_cons.mpr ⟨head.erased, tail⟩
    · exact forall_mem_cons.mpr ⟨head, ih tail⟩

end Cells

/-! ## What one operation can do -/

section Outcomes

variable {stack : ScopeStack F C}

/-- An operation fails without a change, and not for a missing root. -/
def FailsCleanly {α : Type} (program : Scope F C α) (stack : ScopeStack F C) : Prop :=
  ∃ failure, program stack = .error failure stack ∧ failure ≠ .panicked

theorem FailsCleanly.bind {α β : Type} {program : Scope F C α} {rest : α → Scope F C β}
    (fails : FailsCleanly program stack) : FailsCleanly (program >>= rest) stack := by
  obtain ⟨failure, failed, clean⟩ := fails
  exact ⟨failure, bind_of_error failed, clean⟩

/-- A first step that only looks. -/
theorem FailsCleanly.of_ok {α β : Type} {program : Scope F C α} {rest : α → Scope F C β}
    {value : α} (result : program stack = .ok value stack) (fails : FailsCleanly (rest value) stack) :
    FailsCleanly (program >>= rest) stack := by
  obtain ⟨failure, failed, clean⟩ := fails
  exact ⟨failure, (bind_of_ok result).trans failed, clean⟩

theorem FailsCleanly.unchanged {α : Type} {program : Scope F C α} {after : ScopeStack F C}
    {failure : ScopeFailure} (fails : FailsCleanly program stack) (failed : program stack = .error failure after) :
    after = stack := by
  obtain ⟨_, known, _⟩ := fails
  rw [failed] at known
  cases known
  rfl

theorem reject_fails {α : Type} (error : ScopeError) : FailsCleanly (reject error : Scope F C α) stack :=
  ⟨.rejected error, rfl, by simp⟩

theorem checkAccepts_cases (valueType : Option ValueType) (value : Value F C) :
    (Accepted valueType value ∧ checkAccepts valueType value stack = .ok () stack) ∨
      FailsCleanly (checkAccepts valueType value) stack := by
  unfold checkAccepts
  cases valueType with
  | none =>
    left
    exact ⟨by simp [Accepted], rfl⟩
  | some =>
    simp only
    split
    · next accepts =>
      left
      refine ⟨?_, rfl⟩
      intro other same
      cases same
      exact accepts
    · right
      exact reject_fails _

theorem popFrame_cases : (stack.frames.length ≠ 1 ∧ popFrame stack = .ok () ⟨stack.frames.tail⟩) ∨
    FailsCleanly popFrame stack := by
  unfold popFrame
  rw [FailsCleanly, get_bind]
  split
  · right
    exact reject_fails _
  · next deep =>
    left
    exact ⟨deep, rfl⟩

variable (name : String)

theorem declareTyped_cases (mutability : BindingMutability) (value : Value F C) (valueType : Option ValueType)
    (root : stack.frames ≠ []) :
    (∃ current outer, stack.frames = current :: outer ∧ current.find name = none ∧ Accepted valueType value ∧
      declareTyped name mutability value valueType stack =
        .ok () ⟨(current ++ [(name, ⟨mutability, valueType, value⟩)]) :: outer⟩) ∨
      FailsCleanly (declareTyped name mutability value valueType) stack := by
  obtain ⟨current, outer, split⟩ := exists_cons_of_ne_nil root
  unfold declareTyped FailsCleanly
  rw [get_bind]
  simp only [split]
  cases existing : current.find name with
  | some =>
    right
    exact reject_fails _
  | none =>
    simp only [Option.isSome_none, Bool.false_eq_true, ↓reduceIte]
    rcases checkAccepts_cases valueType value with ⟨accepted, checked⟩ | fails
    · left
      exact ⟨current, outer, rfl, existing, accepted, by rw [bind_of_ok checked]; rfl⟩
    · right
      exact fails.bind

theorem assignable_cases :
    (∃ binding, stack.find name = some binding ∧ binding.mutability = .mutable ∧
      assignable name stack = .ok binding stack) ∨ FailsCleanly (assignable name) stack := by
  unfold assignable FailsCleanly
  rw [get_bind]
  cases found : stack.find name with
  | none =>
    right
    exact reject_fails _
  | some binding =>
    simp only
    cases mutability : binding.mutability with
    | immutable =>
      right
      exact reject_fails _
    | mutable =>
      left
      exact ⟨binding, rfl, mutability, rfl⟩

theorem assign_cases (value : Value F C) :
    (∃ binding, stack.find name = some binding ∧ binding.mutability = .mutable ∧ Accepted binding.valueType value ∧
      assign name value stack = .ok () ⟨storeValue name value stack.frames⟩) ∨
      FailsCleanly (assign name value) stack := by
  unfold assign
  rcases assignable_cases name with ⟨binding, found, mutable, looked⟩ | fails
  · rcases checkAccepts_cases binding.valueType value with ⟨accepted, checked⟩ | fails
    · left
      exact ⟨binding, found, mutable, accepted, by rw [bind_of_ok looked, bind_of_ok checked]; rfl⟩
    · right
      exact .of_ok looked fails.bind
  · right
    exact fails.bind

theorem assignPrevalidatedList_cases (items : List (Value F C)) :
    (∃ binding, stack.find name = some binding ∧ binding.mutability = .mutable ∧
      assignPrevalidatedList name items stack = .ok () ⟨storeValue name (.list items) stack.frames⟩) ∨
      FailsCleanly (assignPrevalidatedList name items) stack := by
  unfold assignPrevalidatedList
  rcases assignable_cases name with ⟨binding, found, mutable, looked⟩ | fails
  · left
    exact ⟨binding, found, mutable, by rw [bind_of_ok looked]; rfl⟩
  · right
    exact fails.bind

theorem checkedPosition_cases (index : Int64) (length : Nat) :
    (∃ position, checkedPosition index length stack = .ok position stack) ∨
      FailsCleanly (checkedPosition index length) stack := by
  unfold checkedPosition
  split
  · right
    exact ⟨_, rfl, by simp⟩
  split
  · left
    exact ⟨_, rfl⟩
  · right
    exact ⟨_, rfl, by simp⟩

theorem indexedAssignment_cases (typeArguments : String → Option ValueType) (name : String)
    (index value : Value F C) (affordable : Bool) :
    (∃ binding items position, stack.find name = some binding ∧ binding.mutability = .mutable ∧
      binding.value = .list items ∧ Accepted (itemType typeArguments binding.valueType) value ∧
      indexedAssignment typeArguments name index value affordable stack =
        .ok () ⟨storeValue name (.list (items.set position value)) stack.frames⟩) ∨
      FailsCleanly (indexedAssignment typeArguments name index value affordable) stack := by
  unfold indexedAssignment
  split
  · right
    exact reject_fails _
  rcases assignable_cases name with ⟨binding, found, mutable, looked⟩ | fails
  · rw [FailsCleanly, bind_of_ok looked]
    cases isList : binding.value with
    | list items =>
      cases index with
      | int position =>
        rcases checkedPosition_cases position items.length with ⟨place, inRange⟩ | fails
        · rcases checkAccepts_cases (itemType typeArguments binding.valueType) value with ⟨accepted, checked⟩ | fails
          · simp only
            rw [bind_of_ok inRange, bind_of_ok checked]
            split
            · rcases assignPrevalidatedList_cases name (items.set place value) with ⟨_, _, _, stored⟩ | fails
              · left
                exact ⟨binding, items, place, found, mutable, isList, accepted, stored⟩
              · right
                exact fails
            · right
              exact ⟨_, rfl, by simp⟩
          · right
            exact FailsCleanly.of_ok inRange fails.bind
        · right
          exact fails.bind
      | _ =>
        right
        exact ⟨_, rfl, by simp⟩
    | _ =>
      right
      exact ⟨_, rfl, by simp⟩
  · right
    exact fails.bind

theorem remove_cases :
    (stack.find name = none ∧ remove name stack = .ok none stack) ∨
      (∃ binding, stack.find name = some binding ∧
        remove name stack = .ok (some binding.value) ⟨eraseBinding name stack.frames⟩) := by
  unfold remove
  rw [get_bind]
  cases found : stack.find name with
  | none => exact .inl ⟨rfl, rfl⟩
  | some binding => exact .inr ⟨binding, rfl, rfl⟩

end Outcomes

/-! ## Types of replaced items -/

/-- No type parameter that the substitution binds stands inside a nominal type. -/
def ArgumentsKept (substitutions : String → Option ValueType) : ValueType → Prop
  | .list element => ArgumentsKept substitutions element
  | .nominal _ arguments => substituteTypes substitutions arguments = arguments
  | _ => True

/-- A type accepts what its instances accept, as long as nominal types stay the same. -/
theorem accepts_of_substituted (substitutions : String → Option ValueType) (valueType : ValueType)
    (value : Value F C) (kept : ArgumentsKept substitutions valueType)
    (accepts : (substituteType substitutions valueType).accepts value = true) : valueType.accepts value = true := by
  match valueType with
  | .typeParameter name => rfl
  | .nominal id arguments =>
    rw [substituteType, kept] at accepts
    exact accepts
  | .list element =>
    rw [substituteType] at accepts
    cases value with
    | list =>
      rw [ValueType.accepts, all_eq_true] at accepts ⊢
      intro item member
      exact accepts_of_substituted substitutions element item kept (accepts item member)
    | _ => contradiction
  | .any | .null | .bool | .int | .float | .string | .bytes | .path | .duration | .byteSize | .record | .table
  | .range | .status | .error | .function | .closure => exact accepts

/-- A list stays accepted when an item is replaced by one of the item type. -/
theorem Accepted.replaced {typeArguments : String → Option ValueType} {valueType : Option ValueType}
    {items : List (Value F C)} {value : Value F C} (accepted : Accepted valueType (.list items))
    (item : Accepted (itemType typeArguments valueType) value)
    (kept : ∀ element, valueType = some (.list element) → ArgumentsKept typeArguments element) (position : Nat) :
    Accepted valueType (.list (items.set position value)) := by
  intro expected declared
  subst declared
  have before := accepted expected rfl
  cases expected with
  | list element =>
    have replacement := item _ rfl
    rw [ValueType.accepts, all_eq_true] at before ⊢
    intro member listed
    rcases mem_or_eq_of_mem_set listed with old | rfl
    · exact before member old
    · exact accepts_of_substituted typeArguments element _ (kept element rfl) replacement
  | any | typeParameter => rfl
  | _ => contradiction

/-! ## Steps -/

/-- What holds between the stacks before and after a step that gives up the cells in `released`. -/
structure Steady (released : Nat → String → Prop) (before after : ScopeStack F C) : Prop where
  wellFormed : before.WellFormed → after.WellFormed
  kept : ∀ depth name binding, ¬released depth name → cell before.frames depth name = some binding →
    binding.mutability = .immutable → cell after.frames depth name = some binding

/-- Where a program leaves the stack, whether it fails or not. -/
def leaves {α : Type} (program : Scope F C α) (stack : ScopeStack F C) :
    ScopeStack F C :=
  match program stack with
  | .ok _ after => after
  | .error _ after => after

section Steps

variable {stack : ScopeStack F C} {released : Nat → String → Prop} {α : Type}
  {program : Scope F C α}

theorem leaves_ok {value : α} {after : ScopeStack F C} (result : program stack = .ok value after) :
    leaves program stack = after := by
  unfold leaves
  rw [result]

theorem FailsCleanly.leaves (fails : FailsCleanly program stack) : leaves program stack = stack := by
  obtain ⟨_, failed, _⟩ := fails
  unfold Runtime.leaves
  rw [failed]

theorem Steady.refl (stack : ScopeStack F C) : Steady released stack stack :=
  ⟨id, fun _ _ _ _ held _ => held⟩

theorem steady_push : Steady released stack ⟨[] :: stack.frames⟩ where
  wellFormed wellFormed := ⟨by simp, forall_mem_cons.mpr ⟨.nil, wellFormed.frames⟩⟩
  kept depth name binding _ held _ := by
    have below := cell_lt held
    unfold cell
    rw [if_neg (by omega), held]

theorem steady_pop (deep : stack.frames.length ≠ 1) (popped : ∀ depth name, depth + 1 = stack.frames.length → released depth name) :
    Steady released stack ⟨stack.frames.tail⟩ where
  wellFormed wellFormed := by
    obtain ⟨frame, outer, split⟩ := exists_cons_of_ne_nil wellFormed.root
    rw [split] at deep
    refine ⟨?_, ?_⟩
    · rw [split]
      simpa using deep
    · intro other member
      exact wellFormed.frames other (mem_of_mem_tail member)
  kept depth name binding unreleased held _ := by
    cases split : stack.frames with
    | nil =>
      rw [split] at held
      contradiction
    | cons _ outer =>
      rw [split] at held
      have below : depth ≠ outer.length := by
        intro top
        apply unreleased
        apply popped
        rw [split, top, length_cons]
      unfold cell at held
      rw [if_neg below] at held
      exact held

theorem steady_declare {current : ScopeFrame F C} {outer : List (ScopeFrame F C)} {name : String}
    {binding : Binding F C} (split : stack.frames = current :: outer) (fresh : current.find name = none)
    (typed : Accepted binding.valueType binding.value) :
    Steady released stack ⟨(current ++ [(name, binding)]) :: outer⟩ where
  wellFormed wellFormed := by
    have frames := wellFormed.frames
    rw [split] at frames
    have both := forall_mem_cons.mp frames
    exact ⟨by simp, forall_mem_cons.mpr ⟨both.1.declared fresh typed, both.2⟩⟩
  kept depth other held _ found _ := by
    rw [split] at found
    unfold cell at found ⊢
    split at found
    · next top =>
      rw [if_pos top, ScopeFrame.find_append, found, Option.some_or]
    · next below =>
      rw [if_neg below, found]

/-- Only a mutable cell is stored into. -/
theorem steady_store {name : String} {binding : Binding F C} {value : Value F C}
    (found : stack.find name = some binding) (mutable : binding.mutability = .mutable)
    (typed : stack.WellFormed → Accepted binding.valueType value) :
    Steady released stack ⟨storeValue name value stack.frames⟩ where
  wellFormed wellFormed := by
    refine ⟨?_, wellFormed_storeValue wellFormed.frames found (typed wellFormed)⟩
    apply ne_nil_of_length_pos
    rw [length_storeValue]
    exact length_pos_iff.mpr wellFormed.root
  kept depth other held _ before immutable := by
    obtain ⟨top, inner, visible⟩ := cell_innermost found
    rw [cell_storeValue, before]
    rintro ⟨rfl, here⟩
    rw [inner] at here
    cases here
    rw [visible] at before
    cases before
    rw [mutable] at immutable
    contradiction

theorem steady_erase {name : String}
    (given : ∀ depth, innermost name stack.frames = some depth → released depth name) :
    Steady released stack ⟨eraseBinding name stack.frames⟩ where
  wellFormed wellFormed := by
    refine ⟨?_, wellFormed_eraseBinding wellFormed.frames⟩
    apply ne_nil_of_length_pos
    rw [length_eraseBinding]
    exact length_pos_iff.mpr wellFormed.root
  kept depth other held unreleased before _ := by
    rw [cell_eraseBinding, before]
    rintro ⟨rfl, here⟩
    exact unreleased (given depth here)

theorem find_frozen (frame : ScopeFrame F C) (name : String) :
    ScopeFrame.find name (frame.map fun (name, binding) => (name, { binding with mutability := .immutable })) =
      (frame.find name).map fun binding => { binding with mutability := .immutable } := by
  induction frame with
  | nil => rfl
  | cons _ _ ih =>
    rw [map_cons, ScopeFrame.find_cons, ScopeFrame.find_cons, ih]
    split
    · rfl
    · rfl

theorem steady_capture : Steady released stack stack.capturedSnapshot where
  wellFormed wellFormed := by
    refine ⟨?_, ?_⟩
    · unfold ScopeStack.capturedSnapshot
      simpa using wellFormed.root
    · intro frozen member
      obtain ⟨frame, listed, rfl⟩ := mem_map.mp member
      have before := wellFormed.frames frame listed
      refine ⟨?_, ?_⟩
      · rw [map_map]
        exact before.distinct
      · intro entry inFrozen
        obtain ⟨original, inFrame, rfl⟩ := mem_map.mp inFrozen
        exact before.typed original inFrame
  kept depth name binding _ held immutable := by
    unfold ScopeStack.capturedSnapshot
    generalize stack.frames = frames at held
    induction frames with
    | nil => contradiction
    | cons _ _ ih =>
      unfold cell at held
      rw [map_cons]
      unfold cell
      rw [length_map, find_frozen]
      split at held
      · next top =>
        rw [if_pos top, held, Option.map_some, ← immutable]
      · next below =>
        rw [if_neg below]
        exact ih held

end Steps

/-! ## Deltas -/

section Deltas

variable {stack : ScopeStack F C}

/-- Only bindings of one name may differ. -/
structure Apart (name : String) (before after : ScopeStack F C) : Prop where
  cells : ∀ other, other ≠ name → ∀ depth, cell after.frames depth other = cell before.frames depth other
  inner : ∀ other, other ≠ name → innermost other after.frames = innermost other before.frames

variable (name : String)

theorem Apart.refl (stack : ScopeStack F C) : Apart name stack stack :=
  ⟨fun _ _ _ => rfl, fun _ _ => rfl⟩

theorem Apart.trans {name : String} {first second third : ScopeStack F C} (one : Apart name first second)
    (two : Apart name second third) : Apart name first third where
  cells other different depth := (two.cells other different depth).trans (one.cells other different depth)
  inner other different := (two.inner other different).trans (one.inner other different)

theorem apart_store (value : Value F C) :
    Apart name stack ⟨storeValue name value stack.frames⟩ where
  cells _ different _ := cell_storeValue value (fun both => different both.1)
  inner _ different := innermost_storeValue value different

theorem apart_erase : Apart name stack ⟨eraseBinding name stack.frames⟩ where
  cells _ different _ := cell_eraseBinding (fun both => different both.1)
  inner _ different := innermost_eraseBinding different

theorem apart_declare {current : ScopeFrame F C} {outer : List (ScopeFrame F C)} (binding : Binding F C)
    (split : stack.frames = current :: outer) :
    Apart name stack ⟨(current ++ [(name, binding)]) :: outer⟩ := by
  have same : ∀ other, other ≠ name → ScopeFrame.find other (current ++ [(name, binding)]) = current.find other := by
    intro other different
    rw [ScopeFrame.find_append, if_neg (Ne.symm different), Option.or_none]
  constructor
  · intro other different depth
    rw [split]
    unfold cell
    rw [same other different]
  · intro other different
    rw [split]
    unfold innermost
    rw [same other different]

/-- A delta replaces the binding of a name. -/
def Replaces (step : Change F C) : Prop := ∃ binding, step = .replace binding

/-- One change of a delta touches one name, and drops the visible binding only to replace it. -/
theorem applyChange_steady (wellFormed : stack.WellFormed) (name : String) (step : Change F C) :
    Apart name stack (leaves (applyChange name step) stack) ∧
      Steady (fun depth other => other = name ∧ Replaces step ∧ innermost name stack.frames = some depth) stack
        (leaves (applyChange name step) stack) := by
  cases step with
  | keep => exact ⟨.refl name stack, .refl stack⟩
  | assign value =>
    show Apart name stack (leaves (assign name value) stack) ∧ Steady _ stack (leaves (assign name value) stack)
    rcases assign_cases name value with ⟨binding, found, mutable, accepted, assigned⟩ | fails
    · rw [leaves_ok assigned]
      exact ⟨apart_store name value, steady_store found mutable fun _ => accepted⟩
    · rw [fails.leaves]
      exact ⟨.refl name stack, .refl stack⟩
  | replace binding =>
    -- First the removal, then, when there is one, the new binding.
    obtain ⟨removed, middle, ran, apart, steady⟩ : ∃ removed middle, remove name stack = .ok removed middle ∧
        Apart name stack middle ∧
        Steady (fun depth other => other = name ∧ Replaces (.replace binding) ∧
          innermost name stack.frames = some depth) stack middle := by
      rcases remove_cases name with ⟨_, kept⟩ | ⟨_, _, erased⟩
      · exact ⟨_, _, kept, .refl name stack, .refl stack⟩
      · refine ⟨_, _, erased, apart_erase name, steady_erase ?_⟩
        intro depth inner
        exact ⟨rfl, ⟨binding, rfl⟩, inner⟩
    cases binding with
    | none =>
      have done : applyChange name (.replace none) stack = .ok () middle := bind_of_ok ran
      rw [leaves_ok done]
      exact ⟨apart, steady⟩
    | some binding =>
      have rest : applyChange name (.replace (some binding)) stack =
          declareTyped name binding.mutability binding.value binding.valueType middle := bind_of_ok ran
      have root := (steady.wellFormed wellFormed).root
      rcases declareTyped_cases name binding.mutability binding.value binding.valueType root with
        ⟨current, outer, split, fresh, accepted, declared⟩ | ⟨_, failed, _⟩
      · rw [leaves_ok (rest.trans declared)]
        have added : Steady (fun _ _ => False) middle ⟨(current ++ [(name, binding)]) :: outer⟩ :=
          steady_declare split fresh accepted
        refine ⟨apart.trans (apart_declare name binding split), ?_, ?_⟩
        · intro before
          exact added.wellFormed (steady.wellFormed before)
        · intro depth other held unreleased before immutable
          exact added.kept depth other held not_false (steady.kept depth other held unreleased before immutable) immutable
      · have stops : leaves (applyChange name (.replace (some binding))) stack = middle := by
          unfold leaves
          rw [rest, failed]
        rw [stops]
        exact ⟨apart, steady⟩

/-- A list of changes to distinct names, each decided beforehand. -/
theorem applyChanges_steady (wellFormed : stack.WellFormed) (names : List String) (distinct : names.Nodup)
    (step : String → Change F C) :
    (∀ other, other ∉ names → ∀ depth,
      cell (leaves (names.forM fun name => applyChange name (step name)) stack).frames depth other =
        cell stack.frames depth other) ∧
      Steady (fun depth other => Replaces (step other) ∧ innermost other stack.frames = some depth) stack
        (leaves (names.forM fun name => applyChange name (step name)) stack) := by
  induction names generalizing stack with
  | nil => exact ⟨fun _ _ _ => rfl, .refl stack⟩
  | cons name names ih =>
    obtain ⟨fresh, distinct⟩ := nodup_cons.mp distinct
    obtain ⟨apart, steady⟩ := applyChange_steady wellFormed name (step name)
    cases ran : applyChange name (step name) stack with
    | error failure middle =>
      have stops : (names.cons name).forM (fun name => applyChange name (step name)) stack = .error failure middle :=
        bind_of_error ran
      have here : leaves (applyChange name (step name)) stack = middle := by
        unfold leaves
        rw [ran]
      rw [here] at apart steady
      unfold leaves
      rw [stops]
      refine ⟨?_, steady.wellFormed, ?_⟩
      · intro other missing depth
        exact apart.cells other (fun same => missing (by rw [same]; exact mem_cons_self)) depth
      · intro depth other held unreleased
        apply steady.kept depth other held
        rintro ⟨rfl, released⟩
        exact unreleased released
    | ok _ middle =>
      have goes : (names.cons name).forM (fun name => applyChange name (step name)) stack =
          names.forM (fun name => applyChange name (step name)) middle := bind_of_ok ran
      have same : leaves ((names.cons name).forM fun name => applyChange name (step name)) stack =
          leaves (names.forM fun name => applyChange name (step name)) middle := by
        unfold leaves
        rw [goes]
      rw [leaves_ok ran] at apart steady
      obtain ⟨later, ends⟩ := ih (steady.wellFormed wellFormed) distinct
      rw [same]
      refine ⟨?_, fun before => ends.wellFormed (steady.wellFormed before), ?_⟩
      · intro other missing depth
        have different : other ≠ name := fun same => missing (by rw [same]; exact mem_cons_self)
        have absent : other ∉ names := fun member => missing (mem_cons_of_mem _ member)
        rw [later other absent depth, apart.cells other different depth]
      · intro depth other held unreleased before immutable
        by_cases here : other = name
        · subst here
          rw [later other fresh depth]
          apply steady.kept depth other held _ before immutable
          rintro ⟨_, released⟩
          exact unreleased released
        · apply ends.kept depth other held
          · rw [apart.inner other here]
            exact unreleased
          · rw [apart.cells other here depth]
            exact before
          · exact immutable

theorem changedNames_nodup (base updated : ScopeStack F C) : (changedNames base updated).Nodup := by
  apply List.Pairwise.imp _ Std.ExtTreeSet.distinct_toList
  rintro left right different rfl
  exact different Std.ReflCmp.compare_self

variable [BEq F] [BEq C]

theorem applyCapsuleDelta_steady (wellFormed : stack.WellFormed) (base updated : ScopeStack F C) :
    Steady (fun depth name => Replaces (changeOf base updated name) ∧ innermost name stack.frames = some depth) stack
      (leaves (applyCapsuleDelta base updated) stack) :=
  (applyChanges_steady wellFormed _ (changedNames_nodup base updated) _).2

theorem applyForegroundCompletion_cases (base updated : ScopeStack F C) :
    (∃ pending, applyCapsuleDelta base updated stack = .ok () pending ∧
      applyForegroundCompletion base updated stack = .ok () pending) ∨
      ∃ failure, applyForegroundCompletion base updated stack = .error failure stack := by
  unfold applyForegroundCompletion
  rw [get_bind]
  cases applyCapsuleDelta base updated stack with
  | ok _ pending => exact .inl ⟨pending, rfl, rfl⟩
  | error failure => exact .inr ⟨failure, rfl⟩

end Deltas

/-! ## Runs -/

/-- Where runs start: an empty scope, or one built from the bindings of a capsule. -/
inductive Origin : ScopeStack F C → Prop where
  | new : Origin .new
  | capsule (bindings : List (String × Binding F C)) (stack : ScopeStack F C)
      (built : fromCapsuleBindings bindings = .ok stack) : Origin stack

theorem new_wellFormed : (.new : ScopeStack F C).WellFormed where
  root := by simp [ScopeStack.new]
  frames := by
    intro frame member
    cases mem_singleton.mp member
    exact .nil

theorem declareAll_wellFormed (bindings : List (String × Binding F C))
    {stack after : ScopeStack F C} (wellFormed : stack.WellFormed)
    (built : declareAll bindings stack = .ok () after) : after.WellFormed := by
  induction bindings generalizing stack with
  | nil =>
    cases built
    exact wellFormed
  | cons entry bindings ih =>
    rcases declareTyped_cases entry.1 entry.2.mutability entry.2.value entry.2.valueType wellFormed.root with
      ⟨current, outer, split, fresh, accepted, declared⟩ | ⟨failure, failed, _⟩
    · have added : Steady (fun _ _ => False) stack ⟨(current ++ [entry]) :: outer⟩ :=
        steady_declare split fresh accepted
      exact ih (added.wellFormed wellFormed) ((bind_of_ok declared).symm.trans built)
    · cases (bind_of_error failed).symm.trans built

theorem Origin.wellFormed {stack : ScopeStack F C} (origin : Origin stack) : stack.WellFormed := by
  cases origin with
  | new => exact new_wellFormed
  | capsule bindings _ built =>
    unfold fromCapsuleBindings at built
    split at built
    · next after ran =>
      cases built
      exact declareAll_wellFormed bindings new_wellFormed ran
    · contradiction

inductive ScopeCall (F C : Type) where
  | push
  | pop
  | declare (name : String) (mutability : BindingMutability) (value : Value F C)
      (valueType : Option ValueType)
  | assign (name : String) (value : Value F C)
  | indexedAssignment (typeArguments : String → Option ValueType) (name : String) (index value : Value F C)
      (affordable : Bool)
  | remove (name : String)
  | capture
  | capsuleDelta (base updated : ScopeStack F C)
  | foregroundCompletion (base updated : ScopeStack F C)

section Runs

variable [BEq F] [BEq C]

/-- A capture is followed into the captured stack. -/
def ScopeCall.perform : ScopeCall F C → Scope F C Unit
  | .push => pushFrame
  | .pop => popFrame
  | .declare name mutability value valueType => declareTyped name mutability value valueType
  | .assign name value => Runtime.assign name value
  | .indexedAssignment typeArguments name index value affordable =>
    Runtime.indexedAssignment typeArguments name index value affordable
  | .remove name => do
    let _ ← Runtime.remove name
  | .capture => modify .capturedSnapshot
  | .capsuleDelta base updated => applyCapsuleDelta base updated
  | .foregroundCompletion base updated => applyForegroundCompletion base updated

/-- The cells a call gives up: those of a popped frame, a removed binding, and the bindings
that a delta drops or redeclares. -/
def ScopeCall.released (stack : ScopeStack F C) (depth : Nat) (name : String) :
    ScopeCall F C → Prop
  | .pop => stack.frames.length ≠ 1 ∧ depth + 1 = stack.frames.length
  | .remove removed => name = removed ∧ innermost name stack.frames = some depth
  | .capsuleDelta base updated => Replaces (changeOf base updated name) ∧ innermost name stack.frames = some depth
  | .foregroundCompletion base updated =>
    Replaces (changeOf base updated name) ∧ innermost name stack.frames = some depth
  | _ => False

/-- The evaluator's type arguments leave the nominal types in the declared element type of the
list alone, so that the check of a replaced item is the one its declaration asks for. -/
def ScopeCall.Checked (stack : ScopeStack F C) : ScopeCall F C → Prop
  | .indexedAssignment typeArguments name _ _ _ => ∀ binding element, stack.find name = some binding →
      binding.valueType = some (.list element) → ArgumentsKept typeArguments element
  | _ => True

variable {stack : ScopeStack F C}

/-- One call, from a stack that is well formed. -/
theorem perform_steady (wellFormed : stack.WellFormed) (call : ScopeCall F C) (checked : call.Checked stack) :
    Steady (fun depth name => call.released stack depth name) stack (leaves call.perform stack) := by
  cases call with
  | push => exact steady_push
  | pop =>
    rcases @popFrame_cases _ _ stack with ⟨deep, popped⟩ | fails
    · rw [ScopeCall.perform, leaves_ok popped]
      exact steady_pop deep fun depth name top => ⟨deep, top⟩
    · rw [ScopeCall.perform, fails.leaves]
      exact .refl stack
  | declare name mutability value valueType =>
    rcases declareTyped_cases name mutability value valueType wellFormed.root with
      ⟨_, _, split, fresh, accepted, declared⟩ | fails
    · rw [ScopeCall.perform, leaves_ok declared]
      exact steady_declare split fresh accepted
    · rw [ScopeCall.perform, fails.leaves]
      exact .refl stack
  | assign name value =>
    rcases assign_cases name value with ⟨binding, found, mutable, accepted, assigned⟩ | fails
    · rw [ScopeCall.perform, leaves_ok assigned]
      exact steady_store found mutable fun _ => accepted
    · rw [ScopeCall.perform, fails.leaves]
      exact .refl stack
  | indexedAssignment typeArguments name index value affordable =>
    rcases indexedAssignment_cases typeArguments name index value affordable with
      ⟨binding, _, position, found, mutable, isList, accepted, assigned⟩ | fails
    · rw [ScopeCall.perform, leaves_ok assigned]
      apply steady_store found mutable
      intro typed
      obtain ⟨frame, member, here⟩ := exists_of_findSome?_eq_some found
      have before := (typed.frames frame member).typed _ (ScopeFrame.find_mem here)
      rw [isList] at before
      exact before.replaced accepted (fun element declared => checked binding element found declared) position
    · rw [ScopeCall.perform, fails.leaves]
      exact .refl stack
  | remove name =>
    rcases @remove_cases _ _ stack name with ⟨_, kept⟩ | ⟨_, _, erased⟩
    · have done : (ScopeCall.remove name).perform stack = .ok () stack := bind_of_ok kept
      rw [leaves_ok done]
      exact .refl stack
    · have done : (ScopeCall.remove name).perform stack = .ok () ⟨eraseBinding name stack.frames⟩ := bind_of_ok erased
      rw [leaves_ok done]
      exact steady_erase fun depth inner => ⟨rfl, inner⟩
  | capture => exact steady_capture
  | capsuleDelta base updated => exact applyCapsuleDelta_steady wellFormed base updated
  | foregroundCompletion base updated =>
    rcases @applyForegroundCompletion_cases _ _ stack _ _ base updated with ⟨_, applied, committed⟩ | ⟨_, failed⟩
    · rw [ScopeCall.perform, leaves_ok committed, ← leaves_ok applied]
      exact applyCapsuleDelta_steady wellFormed base updated
    · have same : leaves (ScopeCall.foregroundCompletion base updated).perform stack = stack := by
        unfold leaves
        rw [ScopeCall.perform, failed]
      rw [same]
      exact .refl stack

/-- Every call but a delta that is applied in place leaves the stack alone when it fails. -/
theorem perform_error {after : ScopeStack F C} {failure : ScopeFailure} (wellFormed : stack.WellFormed)
    (call : ScopeCall F C) (careful : ∀ base updated, call ≠ .capsuleDelta base updated)
    (failed : call.perform stack = .error failure after) : after = stack := by
  cases call with
  | push => cases failed
  | pop =>
    rcases @popFrame_cases _ _ stack with ⟨_, popped⟩ | fails
    · rw [ScopeCall.perform, popped] at failed
      contradiction
    · exact fails.unchanged failed
  | declare name mutability value valueType =>
    rcases declareTyped_cases name mutability value valueType wellFormed.root with ⟨_, _, _, _, _, declared⟩ | fails
    · rw [ScopeCall.perform, declared] at failed
      contradiction
    · exact fails.unchanged failed
  | assign name value =>
    rcases assign_cases name value with ⟨_, _, _, _, assigned⟩ | fails
    · rw [ScopeCall.perform, assigned] at failed
      contradiction
    · exact fails.unchanged failed
  | indexedAssignment typeArguments name index value affordable =>
    rcases indexedAssignment_cases typeArguments name index value affordable with ⟨_, _, _, _, _, _, _, assigned⟩ | fails
    · rw [ScopeCall.perform, assigned] at failed
      contradiction
    · exact fails.unchanged failed
  | remove name =>
    have done : ∃ left, (ScopeCall.remove name).perform stack = .ok () left := by
      rcases @remove_cases _ _ stack name with ⟨_, kept⟩ | ⟨_, _, erased⟩
      · exact ⟨_, bind_of_ok kept⟩
      · exact ⟨_, bind_of_ok erased⟩
    obtain ⟨left, removed⟩ := done
    rw [removed] at failed
    contradiction
  | capture => cases failed
  | capsuleDelta base updated => exact absurd rfl (careful base updated)
  | foregroundCompletion base updated =>
    rcases @applyForegroundCompletion_cases _ _ stack _ _ base updated with ⟨_, _, committed⟩ | ⟨_, known⟩
    · rw [ScopeCall.perform, committed] at failed
      contradiction
    · rw [ScopeCall.perform, known] at failed
      cases failed
      rfl

/-- Calls one after another; a failed call does not end the run. -/
def runScope (stack : ScopeStack F C) (calls : List (ScopeCall F C)) :
    ScopeStack F C :=
  calls.foldl (fun stack call => leaves call.perform stack) stack

/-- Something holds of every call of a run and the stack it meets. -/
def Throughout (holds : ScopeStack F C → ScopeCall F C → Prop) :
    ScopeStack F C → List (ScopeCall F C) → Prop
  | _, [] => True
  | stack, call :: calls => holds stack call ∧ Throughout holds (leaves call.perform stack) calls

theorem throughout_append {holds : ScopeStack F C → ScopeCall F C → Prop}
    {before after : List (ScopeCall F C)} :
    Throughout holds stack (before ++ after) ↔
      Throughout holds stack before ∧ Throughout holds (runScope stack before) after := by
  induction before generalizing stack with
  | nil => simp [Throughout, runScope]
  | cons _ _ ih =>
    rw [cons_append, Throughout, Throughout, ih, and_assoc]
    rfl

section

variable (wellFormed : stack.WellFormed) (calls : List (ScopeCall F C))
  (checked : Throughout (fun stack call => call.Checked stack) stack calls)
include wellFormed calls checked

theorem runScope_wellFormed :
    (runScope stack calls).WellFormed := by
  induction calls generalizing stack with
  | nil => exact wellFormed
  | cons call _ ih =>
    exact ih ((perform_steady wellFormed call checked.1).wellFormed wellFormed) checked.2

/-- An immutable binding stays in its cell for as long as no call gives the cell up. -/
theorem runScope_kept {depth : Nat} {name : String} {binding : Binding F C}
    (held : cell stack.frames depth name = some binding) (immutable : binding.mutability = .immutable)
    (unreleased : Throughout (fun stack call => ¬call.released stack depth name) stack calls) :
    cell (runScope stack calls).frames depth name = some binding := by
  induction calls generalizing stack with
  | nil => exact held
  | cons call _ ih =>
    have step := perform_steady wellFormed call checked.1
    exact ih (step.wellFormed wellFormed) checked.2 (step.kept depth name binding unreleased.1 held immutable)
      unreleased.2

end

/-- After any calls the stack has its root frame, distinct names in each frame and values that
their declared types accept; from there on an immutable binding stays as it is until its cell
is given up, and a failing call other than a delta applied in place changes nothing. -/
theorem scope_run_invariant {start : ScopeStack F C} (origin : Origin start)
    (before after : List (ScopeCall F C))
    (checked : Throughout (fun stack call => call.Checked stack) start (before ++ after)) :
    (runScope start before).WellFormed ∧
      (∀ depth name binding, cell (runScope start before).frames depth name = some binding →
        binding.mutability = .immutable →
        Throughout (fun stack call => ¬call.released stack depth name) (runScope start before) after →
        cell (runScope start (before ++ after)).frames depth name = some binding) ∧
      (∀ (call : ScopeCall F C) failure left, (∀ base updated, call ≠ .capsuleDelta base updated) →
        call.perform (runScope start before) = .error failure left → left = runScope start before) := by
  obtain ⟨early, late⟩ := throughout_append.mp checked
  have wellFormed := runScope_wellFormed origin.wellFormed before early
  refine ⟨wellFormed, ?_, ?_⟩
  · intro depth name binding held immutable unreleased
    have onward := runScope_kept wellFormed after late held immutable unreleased
    unfold runScope at onward ⊢
    rw [foldl_append]
    exact onward
  · intro call failure left careful failed
    exact perform_error wellFormed call careful failed

end Runs

/-! ## Two runs of a small scope -/

/-- A scope with a list of integers and a frozen number. -/
def listCalls : List (ScopeCall Empty Empty) :=
  [.declare "items" .mutable (.list [.int 1]) (some (.list .int)), .declare "limit" .immutable (.int 3) none]

/-- An item of the list is replaced, and an assignment to the number is refused. -/
def listUpdates : List (ScopeCall Empty Empty) :=
  [.indexedAssignment (fun _ => none) "items" (.int 0) (.int 2) true, .assign "limit" (.int 4)]

theorem scope_run_invariant_list : (runScope .new listCalls).WellFormed ∧
      (∀ depth name binding, cell (runScope .new listCalls).frames depth name = some binding →
        binding.mutability = .immutable →
        Throughout (fun stack call => ¬call.released stack depth name) (runScope .new listCalls) listUpdates →
        cell (runScope .new (listCalls ++ listUpdates)).frames depth name = some binding) ∧
      (∀ (call : ScopeCall Empty Empty) failure left, (∀ base updated, call ≠ .capsuleDelta base updated) →
        call.perform (runScope .new listCalls) = .error failure left → left = runScope .new listCalls) := by
  apply scope_run_invariant .new listCalls listUpdates
  refine ⟨trivial, trivial, ?_, trivial, trivial⟩
  intro binding element found declared
  cases found
  cases declared
  trivial

/-- A generic variant type and one value of it, with the given argument. -/
def cellType (argument : ValueType) : ValueType := .nominal ⟨⟨⟨[]⟩, .localModule⟩, "Cell"⟩ [argument]

def cellValue (argument : ValueType) : Value Empty Empty :=
  .variant ⟨⟨⟨[]⟩, .localModule⟩, "Cell"⟩ [argument] "Full" [.int 1]

/-- A list of cells declared inside a generic callable, and an item replaced while the
parameter stands for integers: the new item is checked against the instance. -/
def genericCalls : List (ScopeCall Empty Empty) :=
  [.declare "cells" .mutable (.list [cellValue (.typeParameter "T")]) (some (.list (cellType (.typeParameter "T")))),
    .indexedAssignment (fun name => if name = "T" then some .int else none) "cells" (.int 0) (cellValue .int) true]

def scopeOf (first second : Int64) (mutability : BindingMutability) : ScopeStack Empty Empty :=
  runScope .new [.declare "a" .mutable (.int first) none, .declare "b" mutability (.int second) none]

/-- A single cell in a list, checked against a type of cells. -/
theorem checkAccepts_cells {argument : ValueType} {stack : ScopeStack Empty Empty}
    (accepts : (cellType argument).accepts (cellValue argument) = true) :
    checkAccepts (some (.list (cellType argument))) (.list [cellValue argument]) stack = .ok () stack := by
  unfold checkAccepts
  simp only [ValueType.accepts, all_cons, all_nil, accepts, Bool.and_true]
  rfl

/-- The scope after the declaration. -/
def genericScope : ScopeStack Empty Empty :=
  ⟨[[("cells", ⟨.mutable, some (.list (cellType (.typeParameter "T"))), .list [cellValue (.typeParameter "T")]⟩)]]⟩

theorem genericCalls_run : runScope .new genericCalls =
    ⟨[[("cells", ⟨.mutable, some (.list (cellType (.typeParameter "T"))), .list [cellValue .int]⟩)]]⟩ := by
  have generic : (cellType (.typeParameter "T")).accepts (cellValue (.typeParameter "T")) = true := by decide +kernel
  have accepts : (cellType .int).accepts (cellValue .int) = true := by decide +kernel
  have declared : declareTyped "cells" .mutable (.list [cellValue (.typeParameter "T")])
      (some (.list (cellType (.typeParameter "T")))) .new = .ok () genericScope :=
    bind_of_ok (checkAccepts_cells generic)
  have replaced : indexedAssignment (fun name => if name = "T" then some .int else none) "cells" (.int 0)
      (cellValue .int) true genericScope = .ok ()
        ⟨[[("cells", ⟨.mutable, some (.list (cellType (.typeParameter "T"))), .list [cellValue .int]⟩)]]⟩ := by
    have looked : assignable "cells" genericScope = .ok ⟨.mutable, some (.list (cellType (.typeParameter "T"))),
        .list [cellValue (.typeParameter "T")]⟩ genericScope := rfl
    have inRange : checkedPosition 0 1 genericScope = .ok 0 genericScope := rfl
    have checked : checkAccepts (itemType (fun name => if name = "T" then some .int else none)
        (some (.list (cellType (.typeParameter "T"))))) (cellValue .int) genericScope = .ok () genericScope := by
      have item : itemType (fun name => if name = "T" then some .int else none)
          (some (.list (cellType (.typeParameter "T")))) = some (cellType .int) := by rfl
      rw [item]
      rfl
    exact (bind_of_ok looked).trans ((bind_of_ok inRange).trans ((bind_of_ok checked).trans rfl))
  unfold runScope genericCalls
  rw [foldl_cons, foldl_cons, foldl_nil, ScopeCall.perform, leaves_ok declared, ScopeCall.perform,
    leaves_ok replaced]

/-- Both names change their value only. -/
theorem changeOf_scopeOf (name : String) (member : name = "a" ∨ name = "b") :
    changeOf (scopeOf 1 1 .mutable) (scopeOf 2 2 .mutable) name = .assign (.int 2) := by
  have different : (some ⟨.mutable, none, .int 1⟩ == (some ⟨.mutable, none, .int 2⟩ : Option (Binding Empty Empty))) = false := by
    decide +kernel
  have changed : change (some ⟨.mutable, none, .int 1⟩) (some ⟨.mutable, none, .int 2⟩) =
      (.assign (.int 2) : Change Empty Empty) := by
    unfold change
    rw [different]
    rfl
  rcases member with rfl | rfl
  · exact changed
  · exact changed

/-- A delta whose second name is immutable in the scope stops there, with its first change made. -/
theorem applyCapsuleDelta_halts : applyCapsuleDelta (scopeOf 1 1 .mutable) (scopeOf 2 2 .mutable) (scopeOf 1 1 .immutable) =
    .error (.rejected (.immutableBinding "b")) ⟨[[("a", ⟨.mutable, none, .int 2⟩), ("b", ⟨.immutable, none, .int 1⟩)]]⟩ := by
  have names : changedNames (scopeOf 1 1 .mutable) (scopeOf 2 2 .mutable) = ["a", "b"] := by decide
  have delta : applyCapsuleDelta (scopeOf 1 1 .mutable) (scopeOf 2 2 .mutable) = ["a", "b"].forM
      fun name => applyChange name (changeOf (scopeOf 1 1 .mutable) (scopeOf 2 2 .mutable) name) := by
    unfold applyCapsuleDelta
    rw [names]
  have first : applyChange "a" (changeOf (scopeOf 1 1 .mutable) (scopeOf 2 2 .mutable) "a")
      (scopeOf 1 1 .immutable) = .ok ()
        ⟨[[("a", ⟨.mutable, none, .int 2⟩), ("b", ⟨.immutable, none, .int 1⟩)]]⟩ := by
    rw [changeOf_scopeOf "a" (.inl rfl)]
    rfl
  have second : applyChange "b" (changeOf (scopeOf 1 1 .mutable) (scopeOf 2 2 .mutable) "b")
      ⟨[[("a", ⟨.mutable, none, .int 2⟩), ("b", ⟨.immutable, none, .int 1⟩)]]⟩ =
        .error (.rejected (.immutableBinding "b"))
          ⟨[[("a", ⟨.mutable, none, .int 2⟩), ("b", ⟨.immutable, none, .int 1⟩)]]⟩ := by
    rw [changeOf_scopeOf "b" (.inr rfl)]
    rfl
  rw [delta]
  exact (bind_of_ok first).trans (bind_of_error second)

/-- What the halted delta leaves is not the scope it started from. -/
theorem scopeOf_ne_halted :
    ⟨[[("a", ⟨.mutable, none, .int 2⟩), ("b", ⟨.immutable, none, .int 1⟩)]]⟩ ≠ scopeOf 1 1 .immutable := by
  intro same
  have changed : (⟨.mutable, none, .int 2⟩ : Binding Empty Empty) = ⟨.mutable, none, .int 1⟩ :=
    Option.some.inj (congrArg (fun stack => stack.find "a") same)
  simp at changed

/-- The generic list no longer has its declared type, and a delta whose second change is
refused has made its first. -/
theorem scope_run_breaks : ¬(runScope .new genericCalls).WellFormed ∧
    ∃ failure left, (ScopeCall.capsuleDelta (scopeOf 1 1 .mutable) (scopeOf 2 2 .mutable)).perform
      (scopeOf 1 1 .immutable) = .error failure left ∧ left ≠ scopeOf 1 1 .immutable := by
  constructor
  · intro wellFormed
    rw [genericCalls_run] at wellFormed
    have typed := (wellFormed.frames _ mem_cons_self).typed _ mem_cons_self
    have accepts := typed (.list (cellType (.typeParameter "T"))) rfl
    have refused : (cellType (.typeParameter "T")).accepts (cellValue .int) = false := by decide +kernel
    rw [ValueType.accepts, all_cons, refused] at accepts
    contradiction
  · exact ⟨_, _, applyCapsuleDelta_halts, scopeOf_ne_halted⟩

end Opaal.Runtime
