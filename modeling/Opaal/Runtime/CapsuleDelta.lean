import Opaal.Runtime.SupervisorCompletion
import Opaal.Runtime.TypeUnification

/-!
# What a capsule delta does to a scope

A capsule holds the bindings a scope shows, one for each name, while the delta that comes
back is applied to the frames behind them.  A name that was removed is removed from the
innermost frame only, and a name whose binding is equal to the captured one in the
language's sense is left alone.
-/

namespace Opaal.Runtime.Capsule

open Opaal.Machine List
open Option (isSome_none isSome_some none_or or_none)
open Prod (fst)
open ScopeFrame

variable {F C : Type}

/-! ## One name in all frames -/

section Names

variable {frames : List (ScopeFrame F C)} {frame : ScopeFrame F C} {name : String}
  {binding : Binding F C}

/-- What each frame has for a name. -/
def column (name : String) (frames : List (ScopeFrame F C)) : List (Option (Binding F C)) :=
  frames.map (ScopeFrame.find name)

theorem findSome_column : frames.findSome? (ScopeFrame.find name) = (column name frames).findSome? id := by
  rw [column, List.findSome?_map]
  rfl

theorem column_storeValue {other : String} (value : Value F C) (different : other ≠ name) :
    column other (storeValue name value frames) = column other frames := by
  unfold column
  induction frames with
  | nil => rfl
  | cons _ _ ih =>
    unfold storeValue
    split
    · rw [map_cons, map_cons, ScopeFrame.find_store_of_ne value different]
    · rw [map_cons, map_cons, ih]

theorem column_eraseBinding {other : String} (different : other ≠ name) :
    column other (eraseBinding name frames) = column other frames := by
  unfold column
  induction frames with
  | nil => rfl
  | cons _ _ ih =>
    unfold eraseBinding
    split
    · rw [map_cons, map_cons, ScopeFrame.find_erase_of_ne different]
    · rw [map_cons, map_cons, ih]

theorem find_store (value : Value F C) (found : frame.find name = some binding) :
    (frame.store name value).find name = some { binding with value } := by
  induction frame with
  | nil => contradiction
  | cons entry _ ih =>
    rw [find_cons] at found
    unfold store
    by_cases same : entry.1 = name
    · rw [if_pos same] at found
      cases found
      rw [if_pos (beq_iff_eq.mpr same), find_cons, if_pos same]
    · rw [if_neg same] at found
      rw [if_neg (fun equal => same (beq_iff_eq.mp equal)), find_cons, if_neg same, ih found]

/-- Storing the value that is there. -/
theorem store_same (found : frame.find name = some binding) : frame.store name binding.value = frame := by
  induction frame with
  | nil => contradiction
  | cons entry _ ih =>
    rw [find_cons] at found
    unfold store
    by_cases same : entry.1 = name
    · rw [if_pos same] at found
      cases found
      rw [if_pos (beq_iff_eq.mpr same)]
    · rw [if_neg same] at found
      rw [if_neg (fun equal => same (beq_iff_eq.mp equal)), ih found]

theorem find_erase (distinct : (frame.map fst).Nodup) : (frame.erase name).find name = none := by
  induction frame with
  | nil => rfl
  | cons entry _ ih =>
    obtain ⟨fresh, distinct⟩ := nodup_cons.mp distinct
    unfold erase at ih ⊢
    rw [eraseP_cons]
    by_cases same : entry.1 = name
    · rw [beq_iff_eq.mpr same, cond_true]
      exact find_eq_none.mpr (same ▸ fresh)
    · rw [beq_eq_false_iff_ne.mpr same, cond_false, find_cons, if_neg same, ih distinct]

theorem find_storeValue (value : Value F C)
    (found : frames.findSome? (ScopeFrame.find name) = some binding) :
    (storeValue name value frames).findSome? (ScopeFrame.find name) = some { binding with value } := by
  induction frames with
  | nil => contradiction
  | cons frame _ ih =>
    rw [List.findSome?_cons] at found
    unfold storeValue
    cases here : frame.find name with
    | some =>
      rw [here] at found
      cases found
      rw [if_pos isSome_some, List.findSome?_cons, find_store value here]
    | none =>
      rw [here] at found
      rw [isSome_none, if_neg Bool.false_ne_true, List.findSome?_cons, here]
      exact ih found

theorem storeValue_same (found : frames.findSome? (ScopeFrame.find name) = some binding) :
    storeValue name binding.value frames = frames := by
  induction frames with
  | nil => contradiction
  | cons frame _ ih =>
    rw [List.findSome?_cons] at found
    unfold storeValue
    cases here : frame.find name with
    | some =>
      rw [here] at found
      cases found
      rw [if_pos isSome_some, store_same here]
    | none =>
      rw [here] at found
      rw [isSome_none, if_neg Bool.false_ne_true, ih found]

/-- How many frames bind a name. -/
def bindingFrames (name : String) (frames : List (ScopeFrame F C)) : Nat :=
  frames.countP fun frame => (frame.find name).isSome

theorem bindingFrames_column : bindingFrames name frames = (column name frames).countP Option.isSome := by
  rw [column, countP_map]
  rfl

theorem findSome_none_iff : frames.findSome? (ScopeFrame.find name) = none ↔ bindingFrames name frames = 0 := by
  rw [List.findSome?_eq_none_iff, bindingFrames, countP_eq_zero]
  simp

theorem eraseBinding_absent (missing : frames.findSome? (ScopeFrame.find name) = none) :
    eraseBinding name frames = frames := by
  induction frames with
  | nil => rfl
  | cons frame _ ih =>
    rw [List.findSome?_eq_none_iff] at missing ih
    have here := missing frame mem_cons_self
    unfold eraseBinding
    rw [here, isSome_none, if_neg Bool.false_ne_true,
      ih fun other member => missing other (mem_cons_of_mem _ member)]

/-- Without its innermost binding a name is gone when no other frame binds it. -/
theorem find_eraseBinding_none_iff (distinct : ∀ frame ∈ frames, (frame.map fst).Nodup) :
    (eraseBinding name frames).findSome? (ScopeFrame.find name) = none ↔ bindingFrames name frames ≤ 1 := by
  induction frames with
  | nil => simp [eraseBinding, bindingFrames]
  | cons frame outer ih =>
    have head := distinct frame mem_cons_self
    unfold eraseBinding bindingFrames
    rw [countP_cons]
    cases here : frame.find name with
    | some first =>
      rw [if_pos isSome_some, List.findSome?_cons, find_erase head]
      simp only [isSome_some, ↓reduceIte]
      rw [findSome_none_iff, bindingFrames]
      omega
    | none =>
      rw [isSome_none, if_neg Bool.false_ne_true, List.findSome?_cons, here]
      exact ih fun other member => distinct other (mem_cons_of_mem _ member)

end Names

/-! ## One change -/

section Changes

variable {stack after : ScopeStack F C} {name : String}

/-- What a change that goes in has done. -/
def Applied (name : String) (stack after : ScopeStack F C) : Change F C → Prop
  | .keep => after = stack
  | .assign value => (∃ binding, stack.find name = some binding) ∧ after = ⟨storeValue name value stack.frames⟩
  | .replace none => after = ⟨eraseBinding name stack.frames⟩
  | .replace (some binding) => ∃ current outer, eraseBinding name stack.frames = current :: outer ∧
      current.find name = none ∧ after = ⟨(current ++ [(name, binding)]) :: outer⟩

theorem remove_leaves (name : String) (stack : ScopeStack F C) :
    ∃ removed, remove name stack = .ok removed ⟨eraseBinding name stack.frames⟩ := by
  rcases remove_cases name with ⟨missing, kept⟩ | ⟨_, _, erased⟩
  · refine ⟨none, ?_⟩
    rw [kept, eraseBinding_absent missing]
  · exact ⟨_, erased⟩

theorem declareTyped_ok {mutability : BindingMutability} {value : Value F C} {valueType : Option ValueType}
    (declared : declareTyped name mutability value valueType stack = .ok () after) :
    ∃ current outer, stack.frames = current :: outer ∧ current.find name = none ∧
      after = ⟨(current ++ [(name, ⟨mutability, valueType, value⟩)]) :: outer⟩ := by
  by_cases root : stack.frames = []
  · unfold declareTyped at declared
    rw [get_bind, root] at declared
    contradiction
  · rcases declareTyped_cases name mutability value valueType root with
      ⟨current, outer, split, fresh, _, went⟩ | ⟨_, failed, _⟩
    · rw [declared] at went
      cases went
      exact ⟨current, outer, split, fresh, rfl⟩
    · rw [declared] at failed
      contradiction

variable {step : Change F C}

theorem applyChange_ok (ran : applyChange name step stack = .ok () after) :
    Applied name stack after step := by
  cases step with
  | keep =>
    cases ran
    rfl
  | assign value =>
    rcases assign_cases name value with ⟨binding, found, _, _, assigned⟩ | ⟨_, failed, _⟩
    · rw [show assign name value stack = .ok () after from ran] at assigned
      cases assigned
      exact ⟨⟨binding, found⟩, rfl⟩
    · rw [show assign name value stack = .ok () after from ran] at failed
      contradiction
  | replace binding =>
    obtain ⟨_, erased⟩ := remove_leaves name stack
    have rest := (show applyChange name (.replace binding) stack = _ from bind_of_ok erased).symm.trans ran
    cases binding with
    | none =>
      cases rest
      rfl
    | some => exact declareTyped_ok rest

/-- Only the column of one name changes. -/
theorem Applied.column (applied : Applied name stack after step) {other : String} (different : other ≠ name) : column other after.frames = column other stack.frames := by
  cases step with
  | keep =>
    cases applied
    rfl
  | assign value =>
    obtain ⟨_, rfl⟩ := applied
    exact column_storeValue value different
  | replace binding =>
    cases binding with
    | none =>
      cases applied
      exact column_eraseBinding different
    | some =>
      obtain ⟨_, _, split, _, rfl⟩ := applied
      have erased : Capsule.column other (eraseBinding name stack.frames) = Capsule.column other stack.frames :=
        column_eraseBinding different
      rw [← erased, split, Capsule.column, Capsule.column, map_cons, map_cons, find_append,
        if_neg (Ne.symm different), or_none]

theorem applyChanges_column (names : List String) (step : String → Change F C) (missing : name ∉ names)
    (ran : names.forM (fun name => applyChange name (step name)) stack = .ok () after) :
    column name after.frames = column name stack.frames := by
  induction names generalizing stack with
  | nil =>
    cases ran
    rfl
  | cons head names ih =>
    have different : name ≠ head := fun same => missing (same ▸ mem_cons_self)
    obtain ⟨_, middle, first, ran⟩ := bind_returned ran
    rw [ih (fun member => missing (mem_cons_of_mem _ member)) ran, (applyChange_ok first).column different]

/-- A redeclared name has its new binding. -/
theorem Applied.find_replaced {binding : Binding F C} (applied : Applied name stack after (.replace (some binding))) :
    after.find name = some binding := by
  obtain ⟨current, outer, _, fresh, rfl⟩ := applied
  show ((current ++ [(name, binding)]) :: outer).findSome? (ScopeFrame.find name) = some binding
  rw [List.findSome?_cons, find_append, fresh, if_pos rfl, none_or]

end Changes

/-! ## Distinct names -/

/-- No frame has a name twice. -/
def Distinct (stack : ScopeStack F C) : Prop :=
  ∀ frame ∈ stack.frames, (frame.map fst).Nodup

section Distinctness

variable {stack after : ScopeStack F C} {frames outer : List (ScopeFrame F C)}
  {current : ScopeFrame F C} {name : String}

theorem distinct_storeValue (value : Value F C) (distinct : Distinct ⟨frames⟩) :
    Distinct ⟨storeValue name value frames⟩ := by
  induction frames with
  | nil => exact distinct
  | cons frame outer ih =>
    obtain ⟨head, tail⟩ := forall_mem_cons.mp distinct
    unfold storeValue
    split
    · refine forall_mem_cons.mpr ⟨?_, tail⟩
      rw [ScopeFrame.map_fst_store]
      exact head
    · exact forall_mem_cons.mpr ⟨head, ih tail⟩

theorem distinct_eraseBinding (distinct : Distinct ⟨frames⟩) : Distinct ⟨eraseBinding name frames⟩ := by
  induction frames with
  | nil => exact distinct
  | cons frame outer ih =>
    obtain ⟨head, tail⟩ := forall_mem_cons.mp distinct
    unfold eraseBinding
    split
    · have sub : List.Sublist ((frame.erase name).map fst) (frame.map fst) :=
        List.Sublist.map fst eraseP_sublist
      exact forall_mem_cons.mpr ⟨head.sublist sub, tail⟩
    · exact forall_mem_cons.mpr ⟨head, ih tail⟩

theorem distinct_declare (binding : Binding F C) (distinct : Distinct ⟨current :: outer⟩)
    (fresh : current.find name = none) : Distinct ⟨(current ++ [(name, binding)]) :: outer⟩ := by
  obtain ⟨head, tail⟩ := forall_mem_cons.mp distinct
  refine forall_mem_cons.mpr ⟨?_, tail⟩
  rw [map_append, nodup_append]
  refine ⟨head, nodup_singleton _, ?_⟩
  rintro other member last single rfl
  cases mem_singleton.mp single
  exact find_eq_none.mp fresh member

theorem Applied.distinct {step : Change F C} (applied : Applied name stack after step)
    (distinct : Distinct stack) : Distinct after := by
  cases step with
  | keep =>
    cases applied
    exact distinct
  | assign value =>
    obtain ⟨_, rfl⟩ := applied
    exact distinct_storeValue value distinct
  | replace binding =>
    have erased : Distinct ⟨eraseBinding name stack.frames⟩ := distinct_eraseBinding distinct
    cases binding with
    | none =>
      cases applied
      exact erased
    | some binding =>
      obtain ⟨_, _, split, fresh, rfl⟩ := applied
      rw [split] at erased
      exact distinct_declare binding erased fresh

theorem new_distinct : Distinct (ScopeStack.new : ScopeStack F C) :=
  forall_mem_singleton.mpr nodup_nil

theorem declareAll_distinct (bindings : List (String × Binding F C)) (distinct : Distinct stack)
    (built : declareAll bindings stack = .ok () after) : Distinct after := by
  induction bindings generalizing stack with
  | nil =>
    cases built
    exact distinct
  | cons entry bindings ih =>
    obtain ⟨_, middle, ran, built⟩ := bind_returned built
    obtain ⟨_, _, split, fresh, rfl⟩ := declareTyped_ok ran
    exact ih (distinct_declare _ (split ▸ distinct) fresh) built

variable [BEq F] [BEq C]

end Distinctness

/-! ## What a capsule shows -/

section Captures

variable {stack base : ScopeStack F C} {frame : ScopeFrame F C} {name : String}
  {binding : Binding F C}

theorem find_iff_mem (distinct : (frame.map fst).Nodup) : frame.find name = some binding ↔ (name, binding) ∈ frame := by
  refine ⟨find_mem, ?_⟩
  intro member
  induction frame with
  | nil => contradiction
  | cons _ _ ih =>
    obtain ⟨fresh, distinct⟩ := nodup_cons.mp distinct
    rw [find_cons]
    rcases mem_cons.mp member with rfl | later
    · rw [if_pos rfl]
    · rw [if_neg, ih distinct later]
      rintro same
      exact fresh (same ▸ mem_map_of_mem later)

theorem find_reverse (distinct : (frame.map fst).Nodup) :
    ScopeFrame.find name (List.reverse frame) = frame.find name := by
  have backward : ((List.reverse frame).map fst).Nodup := by
    rw [map_reverse, nodup_reverse]
    exact distinct
  apply Option.ext
  intro binding
  rw [find_iff_mem backward, find_iff_mem distinct, mem_reverse]

theorem find_flatten (frames : List (ScopeFrame F C)) :
    ScopeFrame.find name frames.flatten = frames.findSome? (ScopeFrame.find name) := by
  unfold ScopeFrame.find
  rw [List.find?_flatten, map_findSome?]
  rfl

theorem inserted_lookup (entries : ScopeFrame F C) (visible : Std.ExtTreeMap String (Binding F C)) :
    (entries.foldl (fun visible entry => visible.insert entry.1 entry.2) visible)[name]? =
      (ScopeFrame.find name (List.reverse entries)).or visible[name]? := by
  induction entries generalizing visible with
  | nil => rfl
  | cons entry _ ih =>
    rw [foldl_cons, ih, reverse_cons, find_append, Option.or_assoc]
    congr 1
    rw [Std.ExtTreeMap.getElem?_insert]
    by_cases same : entry.1 = name
    · rw [if_pos same, if_pos (by rw [same]; exact Std.ReflCmp.compare_self), Option.some_or]
    · rw [if_neg same, if_neg (fun equal => same (Std.LawfulEqOrd.eq_of_compare equal)), none_or]

theorem findSome_congr {frames : List (ScopeFrame F C)}
    {left right : ScopeFrame F C → Option (Binding F C)}
    (same : ∀ frame ∈ frames, left frame = right frame) : frames.findSome? left = frames.findSome? right := by
  induction frames with
  | nil => rfl
  | cons frame _ ih =>
    rw [List.findSome?_cons, List.findSome?_cons, same frame mem_cons_self,
      ih fun other member => same other (mem_cons_of_mem _ member)]

/-- A capsule has for each name the binding a lookup finds. -/
theorem capsuleBindings_lookup (distinct : Distinct stack) : stack.capsuleBindings[name]? = stack.find name := by
  unfold ScopeStack.capsuleBindings ScopeStack.find
  rw [inserted_lookup, Std.ExtTreeMap.getElem?_empty, or_none, reverse_flatten, map_reverse,
    reverse_reverse, find_flatten, List.findSome?_map]
  exact findSome_congr fun frame member => find_reverse (distinct frame member)

theorem declareAll_root (bindings : List (String × Binding F C)) {after : ScopeStack F C}
    (built : declareAll bindings ⟨[frame]⟩ = .ok () after) : after = ⟨[frame ++ bindings]⟩ := by
  induction bindings generalizing frame with
  | nil =>
    cases built
    rw [append_nil]
  | cons entry bindings ih =>
    obtain ⟨_, middle, ran, built⟩ := bind_returned built
    obtain ⟨_, _, split, _, rfl⟩ := declareTyped_ok ran
    cases split
    rw [ih built, append_assoc, singleton_append]

/-- A scope built from the bindings another one shows has the same bindings in its capsule. -/
theorem captured_lookup (distinct : Distinct stack) (captured : fromCapsuleBindings stack.capsuleBindings.toList = .ok base) :
    base.capsuleBindings[name]? = stack.find name := by
  unfold fromCapsuleBindings at captured
  split at captured
  · next built ran =>
    cases captured
    obtain rfl := declareAll_root _ ran
    rw [nil_append] at ran ⊢
    have apart := declareAll_distinct _ new_distinct ran
    have root := forall_mem_singleton.mp apart
    rw [capsuleBindings_lookup apart, ← capsuleBindings_lookup distinct]
    apply Option.ext
    intro binding
    show [stack.capsuleBindings.toList].findSome? (ScopeFrame.find name) = some binding ↔ _
    rw [List.findSome?_singleton, find_iff_mem root]
    exact Std.ExtTreeMap.mem_toList_iff_getElem?_eq_some
  · contradiction

end Captures

/-! ## Faithful deltas -/

section Faithfulness

variable {stack after base updated : ScopeStack F C}

/-- What a name gives a program: its value and whether it may be assigned. -/
def Binding.view (binding : Binding F C) : Value F C × BindingMutability :=
  (binding.value, binding.mutability)

/-- A run of changes to distinct names, looked at for one name. -/
theorem applyChanges_at (names : List String) (apart : names.Nodup) (step : String → Change F C)
    (others : ∀ name, name ∉ names → step name = .keep) (distinct : Distinct stack)
    (ran : names.forM (fun name => applyChange name (step name)) stack = .ok () after) (name : String) :
    ∃ before middle, column name before.frames = column name stack.frames ∧ Distinct before ∧
      Applied name before middle (step name) ∧ column name after.frames = column name middle.frames := by
  by_cases listed : name ∈ names
  · clear others
    induction names generalizing stack with
    | nil => contradiction
    | cons head names ih =>
      obtain ⟨fresh, apart⟩ := nodup_cons.mp apart
      obtain ⟨_, middle, first, others⟩ := bind_returned ran
      have applied := applyChange_ok first
      rcases mem_cons.mp listed with rfl | later
      · exact ⟨stack, middle, rfl, distinct, applied, applyChanges_column names step fresh others⟩
      · have different : name ≠ head := fun same => fresh (same ▸ later)
        obtain ⟨before, reached, same, kept, changed, rest⟩ := ih apart (applied.distinct distinct) others later
        exact ⟨before, reached, same.trans (applied.column different), kept, changed, rest⟩
  · refine ⟨stack, stack, rfl, distinct, ?_, applyChanges_column names step listed ran⟩
    rw [others name listed]
    rfl

variable {name : String} {now : Option (Binding F C)}

theorem find_of_column {left right : ScopeStack F C} (same : column name left.frames = column name right.frames) : left.find name = right.find name := by
  show left.frames.findSome? (ScopeFrame.find name) = right.frames.findSome? (ScopeFrame.find name)
  rw [findSome_column, findSome_column, same]

variable [BEq F] [BEq C]

theorem changeOf_unlisted (missing : name ∉ changedNames base updated) :
    changeOf base updated name = .keep := by
  unfold changedNames at missing
  rw [Std.ExtTreeSet.mem_toList, Std.ExtTreeSet.mem_ofList, contains_iff_mem, mem_append] at missing
  have before : base.capsuleBindings[name]? = none :=
    Std.ExtTreeMap.getElem?_eq_none fun member => missing (.inl (Std.ExtTreeMap.mem_keys.mpr member))
  have now : updated.capsuleBindings[name]? = none :=
    Std.ExtTreeMap.getElem?_eq_none fun member => missing (.inr (Std.ExtTreeMap.mem_keys.mpr member))
  unfold changeOf change
  rw [before, now, if_pos Option.none_beq_none]

/-- A delta agrees with the bindings it came from: a name is visible when it is bound there, with
that value and mutability, and a name that did not change is as it was in every frame. -/
structure Faithful (stack updated after : ScopeStack F C) : Prop where
  visible : ∀ name, (after.find name).map Binding.view = (updated.capsuleBindings[name]?).map Binding.view
  untouched : ∀ name, ((stack.find name == updated.capsuleBindings[name]?) = true ∨
    stack.find name = updated.capsuleBindings[name]?) → column name after.frames = column name stack.frames

/-- What has to hold of one name. -/
structure Sound (stack : ScopeStack F C) (now : Option (Binding F C)) (name : String) : Prop where
  /-- A name that is removed has no binding in an outer frame. -/
  single : (stack.find name).isSome = true → now = none → bindingFrames name stack.frames ≤ 1
  /-- A binding that is equal to the captured one has the same value. -/
  same : ∀ before after, stack.find name = some before → now = some after → (before == after) = true →
    before.value = after.value

theorem Sound.of_changed (present : now.isSome = true)
    (changed : ∀ before after, stack.find name = some before → now = some after → (before == after) = false) :
    Sound stack now name where
  single _ removed := by
    rw [removed] at present
    contradiction
  same before after found bound equal := by
    rw [changed before after found bound] at equal
    contradiction

theorem applied_faithful_iff {before middle : ScopeStack F C}
    (same : column name before.frames = column name stack.frames) (distinct : Distinct before)
    (applied : Applied name before middle (change (stack.find name) now))
    (rest : column name after.frames = column name middle.frames) :
    ((after.find name).map Binding.view = now.map Binding.view ∧
      ((stack.find name == now) = true ∨ stack.find name = now → column name after.frames = column name stack.frames)) ↔
      Sound stack now name := by
  have ends := find_of_column rest
  have begins := find_of_column same
  unfold change at applied
  rw [ends]
  cases found : stack.find name with
  | none =>
    rw [found] at applied begins
    cases now with
    | none =>
      cases applied
      have sound : Sound stack none name := ⟨by simp [found], by simp [found]⟩
      exact ⟨fun _ => sound, fun _ => ⟨by rw [begins], fun _ => rest.trans same⟩⟩
    | some now =>
      have sound : Sound stack (some now) name := .of_changed rfl (by simp [found])
      exact ⟨fun _ => sound, fun _ => ⟨by rw [applied.find_replaced], by simp⟩⟩
  | some old =>
    rw [found] at applied begins
    cases now with
    | none =>
      cases applied
      have gone : (ScopeStack.mk (eraseBinding name before.frames)).find name = none ↔
          bindingFrames name stack.frames ≤ 1 := by
        rw [bindingFrames_column, ← same, ← bindingFrames_column]
        exact find_eraseBinding_none_iff distinct
      constructor
      · rintro ⟨visible, _⟩
        have missing := Option.map_eq_none_iff.mp visible
        exact ⟨fun _ _ => gone.mp missing, by simp⟩
      · intro sound
        exact ⟨by rw [gone.mpr (sound.single (by simp [found]) rfl)], by simp⟩
    | some now =>
      rw [Option.some_beq_some] at applied ⊢
      by_cases equal : (old == now) = true
      · -- The change is skipped: what stays is the old value.
        rw [if_pos equal] at applied
        cases applied
        have mutability : old.mutability = now.mutability := by
          have parts : (old.mutability == now.mutability && old.valueType == now.valueType && old.value == now.value) = true :=
            equal
          simp only [Bool.and_eq_true, beq_iff_eq] at parts
          exact parts.1.1
        rw [begins]
        constructor
        · rintro ⟨visible, _⟩
          have values : old.value = now.value := congrArg fst (Option.some.inj visible)
          refine ⟨by simp, ?_⟩
          intro first second isOld isNow _
          rw [found] at isOld
          cases isOld
          cases isNow
          exact values
        · intro sound
          have values := sound.same old now found rfl equal
          refine ⟨?_, fun _ => rest.trans same⟩
          show some (old.value, old.mutability) = some (now.value, now.mutability)
          rw [values, mutability]
      · rw [if_neg equal] at applied
        simp only at applied
        have sound : Sound stack (some now) name := by
          apply Sound.of_changed rfl
          intro first second isOld isNow
          rw [found] at isOld
          cases isOld
          cases isNow
          exact Bool.eq_false_iff.mpr equal
        refine ⟨fun _ => sound, fun _ => ?_⟩
        by_cases alike : old.mutability = now.mutability ∧ (old.valueType == now.valueType) = true
        · rw [if_pos alike] at applied
          obtain ⟨_, rfl⟩ := applied
          refine ⟨?_, ?_⟩
          · have stored : (ScopeStack.mk (storeValue name now.value before.frames)).find name =
                some { old with value := now.value } := find_storeValue now.value begins
            rw [stored]
            show some (now.value, old.mutability) = some (now.value, now.mutability)
            rw [alike.1]
          · rintro (skipped | unchanged)
            · exact absurd skipped equal
            · cases unchanged
              rw [rest, storeValue_same begins, same]
        · rw [if_neg alike] at applied
          refine ⟨by rw [applied.find_replaced], ?_⟩
          rintro (skipped | unchanged)
          · exact absurd skipped equal
          · cases unchanged
            exact absurd ⟨rfl, BEq.rfl⟩ alike

/-- A delta that goes in is faithful exactly when every name it removes was bound in one frame
only and no binding it skips differs from the captured one. -/
theorem capsule_delta_faithful_iff (distinct : Distinct stack)
    (captured : fromCapsuleBindings stack.capsuleBindings.toList = .ok base)
    (applied : applyCapsuleDelta base updated stack = .ok () after) :
    Faithful stack updated after ↔ ∀ name, Sound stack updated.capsuleBindings[name]? name := by
  have parts : ∀ name, ((after.find name).map Binding.view = (updated.capsuleBindings[name]?).map Binding.view ∧
      ((stack.find name == updated.capsuleBindings[name]?) = true ∨ stack.find name = updated.capsuleBindings[name]? →
        column name after.frames = column name stack.frames)) ↔ Sound stack updated.capsuleBindings[name]? name := by
    intro name
    obtain ⟨_, _, same, apart, changed, rest⟩ := applyChanges_at _ (changedNames_nodup base updated) _
      (fun _ missing => changeOf_unlisted missing) distinct applied name
    rw [changeOf, captured_lookup distinct captured] at changed
    exact applied_faithful_iff same apart changed rest
  constructor
  · intro faithful name
    exact (parts name).mp ⟨faithful.visible name, faithful.untouched name⟩
  · intro sound
    exact ⟨fun name => ((parts name).mpr (sound name)).1, fun name => ((parts name).mpr (sound name)).2⟩

end Faithfulness

/-! ## A number that becomes a float -/

def oneFloat : FiniteFloat := ⟨⟨0x3FF0000000000000⟩, by decide, by decide⟩

def numberScope (value : Value Empty Empty) : ScopeStack Empty Empty := ⟨[[("x", ⟨.mutable, none, value⟩)]]⟩

theorem numberScope_captured :
    fromCapsuleBindings (numberScope (.int 1)).capsuleBindings.toList = .ok (numberScope (.int 1)) := rfl

theorem numberScope_distinct (value : Value Empty Empty) : Distinct (numberScope value) :=
  forall_mem_singleton.mpr (nodup_singleton "x")

/-- The integer and the float are equal, so the name is skipped. -/
theorem numberScope_applied :
    applyCapsuleDelta (numberScope (.int 1)) (numberScope (.float oneFloat)) (numberScope (.int 1)) =
      .ok () (numberScope (.int 1)) := by
  have names : changedNames (numberScope (.int 1)) (numberScope (.float oneFloat)) = ["x"] := by decide
  have equal : (some ⟨.mutable, none, .int 1⟩ == (some ⟨.mutable, none, .float oneFloat⟩ : Option (Binding Empty Empty))) =
      true := by decide +kernel
  have skipped : changeOf (numberScope (.int 1)) (numberScope (.float oneFloat)) "x" = .keep := if_pos equal
  unfold applyCapsuleDelta
  rw [names]
  show (applyChange "x" (changeOf _ _ "x") >>= fun _ => pure ()) _ = _
  rw [skipped]
  rfl

theorem capsule_delta_faithful_iff_number :
    Faithful (numberScope (.int 1)) (numberScope (.float oneFloat)) (numberScope (.int 1)) ↔
      ∀ name, Sound (numberScope (.int 1)) (numberScope (.float oneFloat)).capsuleBindings[name]? name :=
  capsule_delta_faithful_iff (numberScope_distinct _) numberScope_captured numberScope_applied

/-- A delta can go in and leave the integer where the run left a float. -/
theorem number_delta_unfaithful : ∃ stack base updated after : ScopeStack Empty Empty, Distinct stack ∧
    fromCapsuleBindings stack.capsuleBindings.toList = .ok base ∧
    applyCapsuleDelta base updated stack = .ok () after ∧ ¬Faithful stack updated after := by
  refine ⟨_, _, _, _, numberScope_distinct _, numberScope_captured, numberScope_applied, ?_⟩
  intro faithful
  have visible : some (Value.int 1, BindingMutability.mutable) = some ((Value.float oneFloat : Value Empty Empty), .mutable) :=
    faithful.visible "x"
  simp at visible

end Opaal.Runtime.Capsule
