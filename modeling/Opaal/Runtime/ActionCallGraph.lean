import Opaal.Graph.Ranks
import Opaal.Syntax.Source

/-!
# The call graph of actions

Two searches look through the calls between actions: one reports calls that lead back to
an action that is being looked at, the other reports chains of calls that are too long.
Both go only so deep, and neither looks twice at what it has seen; a limit that ends the
first one is reported by the second.  Actions are only ever compared, so any type with
decidable equality stands for their keys; the polls of a cancelled analysis, whose
outcome is discarded, are left out.
-/

namespace Opaal.Runtime

open Opaal.Graph List

/-! ## The two searches -/

/-- One call, by the action it calls. -/
structure ActionCall (Action : Type) where
  callee : Action
  span : Syntax.Span

/-- The registered actions and the calls in their bodies. -/
structure ActionCallGraph (Action : Type) where
  actions : List Action
  edges : Action → List (ActionCall Action)
  callers : ∀ action, edges action ≠ [] → action ∈ actions

inductive ModuleActionError (Action : Type) where
  | tooManyActions (action : Action) (count : Nat)
  | callCycle (action callee : Action) (span : Syntax.Span)
  | callDepth (action : Action) (span : Syntax.Span) (depth : Nat)

def maximumActions : Nat := 1024

/-- How many actions a chain of calls may have. -/
def maximumCallDepth : Nat := 64

/-- What is known of an action: it is being looked at, or everything it calls was seen. -/
inductive CycleState where
  | active
  | finished
deriving DecidableEq

structure CycleSearch (Action : Type) where
  states : Action → Option CycleState
  errors : List (ModuleActionError Action)

structure DepthSearch (Action : Type) where
  path : Action → Bool
  greatestDepth : Action → Option Nat
  reported : List (Action × Nat)
  errors : List (ModuleActionError Action)

variable {Action : Type} [DecidableEq Action]

def CycleSearch.mark (search : CycleSearch Action) (action : Action) (state : CycleState) : CycleSearch Action :=
  { search with states := fun other => if other = action then some state else search.states other }

def DepthSearch.setDepth (search : DepthSearch Action) (action : Action) (depth : Nat) : DepthSearch Action :=
  { search with greatestDepth := fun other => if other = action then some depth else search.greatestDepth other }

def DepthSearch.setPath (search : DepthSearch Action) (action : Action) (member : Bool) : DepthSearch Action :=
  { search with path := fun other => if other = action then member else search.path other }

section Searches

variable (edges : Action → List (ActionCall Action))

/-- One call; `enter` goes on with an action that is called. -/
def detectCall (enter : Action → CycleSearch Action → CycleSearch Action) (action : Action) (search : CycleSearch Action)
    (call : ActionCall Action) : CycleSearch Action :=
  if search.states call.callee = some .active then
    { search with errors := search.errors ++ [.callCycle action call.callee call.span] }
  else enter call.callee search

def detectFrom (enter : Action → CycleSearch Action → CycleSearch Action) (action : Action) (search : CycleSearch Action) :
    CycleSearch Action :=
  match search.states action with
  | some _ => search
  | none => ((edges action).foldl (detectCall enter action) (search.mark action .active)).mark action .finished

/-- `levels` is how many more actions the chain of calls may get: the maximum less the
depth.  Without levels left, calls are looked at and not followed. -/
def detectActionCycles : Nat → Action → CycleSearch Action → CycleSearch Action
  | 0 => detectFrom edges fun _ search => search
  | levels + 1 => detectFrom edges (detectActionCycles levels)

/-- A chain that is one action too long, reported once for a call. -/
def reportDepth (action : Action) (search : DepthSearch Action) (call : ActionCall Action) : DepthSearch Action :=
  if (action, call.span.start) ∈ search.reported then search
  else
    { search with
      reported := (action, call.span.start) :: search.reported
      errors := search.errors ++ [.callDepth action call.span (maximumCallDepth + 1)] }

/-- One action at a depth; `enter` goes on with a call. -/
def checkFrom (enter : DepthSearch Action → ActionCall Action → DepthSearch Action) (depth : Nat) (action : Action)
    (search : DepthSearch Action) : DepthSearch Action :=
  if (search.greatestDepth action).any (depth ≤ ·) then search
  else if search.path action then search.setDepth action depth
  else ((edges action).foldl enter ((search.setDepth action depth).setPath action true)).setPath action false

def checkActionDepth : Nat → Action → DepthSearch Action → DepthSearch Action
  | 0, action => checkFrom edges (reportDepth action) maximumCallDepth action
  | levels + 1, action =>
    checkFrom edges (fun search call => checkActionDepth levels call.callee search) (maximumCallDepth - (levels + 1)) action

end Searches

def CycleSearch.new : CycleSearch Action := ⟨fun _ => none, []⟩

def DepthSearch.new : DepthSearch Action := ⟨fun _ => false, fun _ => none, [], []⟩

/-- The path is a new one for every action to start from. -/
def DepthSearch.restart (search : DepthSearch Action) : DepthSearch Action := { search with path := fun _ => false }

def detectAllCycles (graph : ActionCallGraph Action) : CycleSearch Action :=
  graph.actions.foldl (fun search action => detectActionCycles graph.edges (maximumCallDepth - 1) action search) .new

def checkAllDepths (graph : ActionCallGraph Action) : DepthSearch Action :=
  graph.actions.foldl (fun search action => checkActionDepth graph.edges (maximumCallDepth - 1) action search.restart) .new

/-- What is reported about the shape of the graph. -/
def validateActionCallGraph (graph : ActionCallGraph Action) : List (ModuleActionError Action) :=
  match graph.actions with
  | [] => []
  | first :: _ =>
    if graph.actions.length > maximumActions then [.tooManyActions first graph.actions.length]
    else (detectAllCycles graph).errors ++ (checkAllDepths graph).errors

/-! ## Loops over calls -/

section Loops

variable {α σ τ : Type}

/-- A loop fails, or keeps its invariant and does its work for every item. -/
theorem foldl_runs (step : σ → α → σ) (Failed Invariant : σ → Prop) (Onward : σ → σ → Prop) (Done : α → σ → Prop)
    (refl : ∀ state, Onward state state) (trans : ∀ first second third, Onward first second → Onward second third → Onward first third)
    (stays : ∀ state item, Failed state → Failed (step state item))
    (kept : ∀ item before after, Onward before after → Done item before → Done item after)
    (items : List α)
    (each : ∀ item ∈ items, ∀ state, Invariant state →
      Failed (step state item) ∨ Invariant (step state item) ∧ Onward state (step state item) ∧ Done item (step state item))
    (state : σ) (start : Invariant state) :
    Failed (items.foldl step state) ∨ Invariant (items.foldl step state) ∧ Onward state (items.foldl step state) ∧
      ∀ item ∈ items, Done item (items.foldl step state) := by
  induction items generalizing state with
  | nil => exact .inr ⟨start, refl state, fun _ listed => nomatch listed⟩
  | cons item items ih =>
    rcases each item mem_cons_self state start with failed | ⟨invariant, onward, done⟩
    · exact .inl (List.foldlRecOn items step failed fun state failed item _ => stays state item failed)
    · rcases ih (fun other listed => each other (mem_cons_of_mem item listed)) _ invariant with failed | ⟨final, further, all⟩
      · exact .inl failed
      · refine .inr ⟨final, trans _ _ _ onward further, fun other listed => ?_⟩
        rcases mem_cons.mp listed with rfl | later
        · exact kept other _ _ further done
        · exact all other later

/-- Two loops over the same items are one loop. -/
theorem foldl_pair (left : σ → α → σ) (right : τ → α → τ) (items : List α) (first : σ) (second : τ) :
    items.foldl (fun pair item => (left pair.1 item, right pair.2 item)) (first, second) =
      (items.foldl left first, items.foldl right second) := by
  induction items generalizing first second with
  | nil => rfl
  | cons _ _ ih => exact ih _ _

end Loops

/-! ## Errors stay -/

/-- What is said about the shape of the graph, apart from its size. -/
def ModuleActionError.ofShape : ModuleActionError Action → Prop
  | .tooManyActions _ _ => False
  | .callCycle _ _ _ => True
  | .callDepth _ _ _ => True

/-- What stays true of a list of errors when one about the shape is added. -/
def Lasting (holds : List (ModuleActionError Action) → Prop) : Prop :=
  ∀ errors error, error.ofShape → holds errors → holds (errors ++ [error])

omit [DecidableEq Action] in
theorem lasting_ne_nil : Lasting fun errors : List (ModuleActionError Action) => errors ≠ [] :=
  fun _ _ _ failed => append_ne_nil_of_left_ne_nil failed _

omit [DecidableEq Action] in
theorem lasting_ofShape : Lasting fun errors : List (ModuleActionError Action) => ∀ error ∈ errors, error.ofShape := by
  intro errors added shape each error listed
  rcases mem_append.mp listed with before | here
  · exact each error before
  · rw [mem_singleton.mp here]
    exact shape

variable {edges : Action → List (ActionCall Action)}

section Lasting

variable {holds : List (ModuleActionError Action) → Prop} (lasting : Lasting holds)

include lasting

variable {enter : Action → CycleSearch Action → CycleSearch Action}

section

variable (stay : ∀ callee search, holds search.errors → holds (enter callee search).errors) (action : Action)
  (search : CycleSearch Action)
include stay action search

omit [DecidableEq Action] in
theorem detectCall_errors (call : ActionCall Action) (held : holds search.errors) :
    holds (detectCall enter action search call).errors := by
  unfold detectCall
  split
  · exact lasting _ _ trivial held
  · exact stay call.callee search held

theorem detectFrom_errors (held : holds search.errors) : holds (detectFrom edges enter action search).errors := by
  unfold detectFrom
  split
  · exact held
  · exact List.foldlRecOn (motive := fun search => holds search.errors) (b := search.mark action .active) _ _ held
      fun search held call _ => detectCall_errors lasting stay action search call held

end

theorem detectActionCycles_errors (levels : Nat) (action : Action) (search : CycleSearch Action) (held : holds search.errors) :
    holds (detectActionCycles edges levels action search).errors := by
  induction levels generalizing action search with
  | zero => exact detectFrom_errors lasting (fun _ _ held => held) action search held
  | succ _ ih => exact detectFrom_errors lasting ih action search held

theorem reportDepth_errors (action : Action) (search : DepthSearch Action) (call : ActionCall Action) (held : holds search.errors) :
    holds (reportDepth action search call).errors := by
  unfold reportDepth
  split
  · exact held
  · exact lasting _ _ trivial held

omit lasting in
theorem checkFrom_errors {enter : DepthSearch Action → ActionCall Action → DepthSearch Action}
    (stay : ∀ search call, holds search.errors → holds (enter search call).errors) (depth : Nat) (action : Action)
    (search : DepthSearch Action) (held : holds search.errors) : holds (checkFrom edges enter depth action search).errors := by
  unfold checkFrom
  split
  · exact held
  · split
    · exact held
    · exact List.foldlRecOn (motive := fun search => holds search.errors) (b := (search.setDepth action depth).setPath action true)
        _ _ held fun search held call _ => stay search call held

theorem checkActionDepth_errors (levels : Nat) (action : Action) (search : DepthSearch Action) (held : holds search.errors) :
    holds (checkActionDepth edges levels action search).errors := by
  induction levels generalizing action search with
  | zero => exact checkFrom_errors (reportDepth_errors lasting action) _ action search held
  | succ _ ih => exact checkFrom_errors (fun search call => ih call.callee search) _ action search held

end Lasting

/-! ## Looking again at what was seen -/

/-- The depth an action was last entered at; nothing for one that was not. -/
def DepthSearch.greatest (search : DepthSearch Action) (action : Action) : Nat := (search.greatestDepth action).getD 0

variable {depth : Nat} {action : Action} {finished : Action → Prop}
  {enter : DepthSearch Action → ActionCall Action → DepthSearch Action} {search depths : DepthSearch Action}
  {cycles : CycleSearch Action}

omit [DecidableEq Action] in
theorem DepthSearch.seen_iff (search : DepthSearch Action) (action : Action) (positive : 0 < depth) :
    (search.greatestDepth action).any (depth ≤ ·) = true ↔ depth ≤ search.greatest action := by
  unfold greatest
  cases search.greatestDepth action with
  | none => exact iff_of_false Bool.false_ne_true (Nat.not_le.mpr positive)
  | some => exact decide_eq_true_iff

theorem DepthSearch.setDepth_greatest (search : DepthSearch Action) (action other : Action) (depth : Nat) :
    (search.setDepth action depth).greatest other = if other = action then depth else search.greatest other := by
  unfold greatest setDepth
  dsimp only
  split <;> rfl

@[simp] theorem DepthSearch.setPath_greatest (search : DepthSearch Action) (action other : Action) (member : Bool) :
    (search.setPath action member).greatest other = search.greatest other := rfl

@[simp] theorem DepthSearch.setDepth_path (search : DepthSearch Action) (action : Action) (depth : Nat) :
    (search.setDepth action depth).path = search.path := rfl

@[simp] theorem DepthSearch.setPath_self (search : DepthSearch Action) (action : Action) (member : Bool) :
    (search.setPath action member).path action = member :=
  if_pos rfl

theorem DepthSearch.setPath_other (search : DepthSearch Action) {other : Action} (member : Bool) (different : other ≠ action) :
    (search.setPath action member).path other = search.path other :=
  if_neg different

open DepthSearch

/-- One action calls another. -/
def Calls (edges : Action → List (ActionCall Action)) (caller callee : Action) : Prop :=
  ∃ call ∈ edges caller, call.callee = callee

/-- Nothing is reported, and depths rise along the calls of the actions that are finished. -/
structure Ranked (edges : Action → List (ActionCall Action)) (finished : Action → Prop) (search : DepthSearch Action) : Prop where
  silent : search.errors = []
  unreported : search.reported = []
  bounded : ∀ action, search.greatest action ≤ maximumCallDepth
  rising : ∀ action, finished action → search.path action = false →
    ∀ callee, Calls edges action callee → search.greatest action < search.greatest callee

/-- What a search leaves alone: the path, and the depths on it and outside of some actions. -/
structure Onward (within : Action → Prop) (before after : DepthSearch Action) : Prop where
  path : after.path = before.path
  grows : ∀ action, before.greatest action ≤ after.greatest action
  outside : ∀ action, ¬ within action ∨ before.path action = true → after.greatest action = before.greatest action

omit [DecidableEq Action] in
theorem Onward.refl (within : Action → Prop) (search : DepthSearch Action) : Onward within search search :=
  ⟨rfl, fun _ => Nat.le_refl _, fun _ _ => rfl⟩

omit [DecidableEq Action] in
theorem Onward.trans {within : Action → Prop} {first second third : DepthSearch Action} (one : Onward within first second)
    (two : Onward within second third) : Onward within first third :=
  ⟨two.path.trans one.path, fun action => Nat.le_trans (one.grows action) (two.grows action), fun action away =>
    (two.outside action (away.imp_right fun onPath => by rw [one.path]; exact onPath)).trans (one.outside action away)⟩

/-- What an action that is looked at again comes to. -/
def Again (edges : Action → List (ActionCall Action)) (finished : Action → Prop) (depth : Nat) (action : Action)
    (before after : DepthSearch Action) : Prop :=
  after.errors ≠ [] ∨ Ranked edges finished after ∧ Onward finished before after ∧ depth ≤ after.greatest action

/-- A finished action is looked at again once its calls are. -/
theorem checkFrom_again (stay : ∀ search call, search.errors ≠ [] → (enter search call).errors ≠ []) (positive : 0 < depth)
    (bounded : depth ≤ maximumCallDepth) (isFinished : finished action) (clear : search.path action = false)
    (ranked : Ranked edges finished search)
    (entered : ∀ call ∈ edges action, ∀ inner, Ranked edges finished inner → inner.path = (search.setPath action true).path → Again edges finished (depth + 1) call.callee inner (enter inner call)) :
    Again edges finished depth action search (checkFrom edges enter depth action search) := by
  unfold checkFrom
  split
  · next seen => exact .inr ⟨ranked, .refl _ _, (search.seen_iff action positive).mp seen⟩
  · next unseen =>
    rw [search.seen_iff action positive, Nat.not_le] at unseen
    rw [if_neg (Bool.not_eq_true _ ▸ clear)]
    have risen : ∀ other, search.greatest other ≤ (search.setDepth action depth).greatest other := by
      intro other
      rw [setDepth_greatest]
      split
      · next same => exact same ▸ Nat.le_of_lt unseen
      · exact Nat.le_refl _
    have start : Ranked edges finished ((search.setDepth action depth).setPath action true) := by
      refine ⟨ranked.silent, ranked.unreported, fun other => ?_, fun other otherFinished away callee called => ?_⟩
      · rw [setPath_greatest, setDepth_greatest]
        split
        · exact bounded
        · exact ranked.bounded other
      · have different : other ≠ action := by
          rintro rfl
          rw [setPath_self] at away
          cases away
        rw [setPath_other _ _ different, setDepth_path] at away
        have rises := ranked.rising other otherFinished away callee called
        rw [setPath_greatest, setPath_greatest, setDepth_greatest, if_neg different]
        exact Nat.lt_of_lt_of_le rises (risen callee)
    rcases foldl_runs enter (fun search : DepthSearch Action => search.errors ≠ [])
        (fun inner => Ranked edges finished inner ∧ inner.path = (search.setPath action true).path) (Onward finished)
        (fun call inner => depth + 1 ≤ inner.greatest call.callee) (Onward.refl finished)
        (fun _ _ _ => Onward.trans) stay (fun call _ _ onward done => Nat.le_trans done (onward.grows call.callee)) (edges action)
        (fun call listed inner invariant => by
          rcases entered call listed inner invariant.1 invariant.2 with failed | ⟨settled, onward, deep⟩
          · exact .inl failed
          · exact .inr ⟨⟨settled, onward.path.trans invariant.2⟩, onward, deep⟩)
        _ ⟨start, rfl⟩ with failed | ⟨⟨settled, isPath⟩, onward, deep⟩
    · exact .inl failed
    · have here := onward.outside action (.inr (setPath_self _ action true))
      rw [setPath_greatest, setDepth_greatest, if_pos rfl] at here
      refine .inr ⟨⟨settled.silent, settled.unreported, settled.bounded, ?_⟩, ⟨?_, ?_, ?_⟩, Nat.le_of_eq here.symm⟩
      · intro other otherFinished away callee called
        by_cases same : other = action
        · subst same
          obtain ⟨call, listed, rfl⟩ := called
          rw [setPath_greatest, setPath_greatest, here]
          exact deep call listed
        · rw [setPath_other _ _ same] at away
          exact settled.rising other otherFinished away callee called
      · funext other
        by_cases same : other = action
        · subst same
          rw [setPath_self, clear]
        · rw [setPath_other _ _ same, isPath, setPath_other _ _ same]
      · exact fun other => Nat.le_trans (risen other) (onward.grows other)
      · intro other away
        have different : other ≠ action := by
          rintro rfl
          rcases away with unfinished | onPath
          · exact unfinished isFinished
          · rw [clear] at onPath
            cases onPath
        rw [setPath_greatest,
          onward.outside other (away.imp_right fun onPath => by rw [setPath_other _ _ different]; exact onPath),
          setPath_greatest, setDepth_greatest, if_neg different]

/-- An action that is finished, looked at again on a path that has not risen to it, leaves the
depths rising or reports a chain. -/
theorem checkActionDepth_again {rank : Action → Nat}
    (climbs : ∀ action callee, finished action → Calls edges action callee → finished callee ∧ rank action < rank callee)
    (levels : Nat) (below : levels < maximumCallDepth) (action : Action) (isFinished : finished action)
    (search : DepthSearch Action) (ranked : Ranked edges finished search)
    (clear : ∀ member, search.path member = true → finished member → rank member < rank action) :
    Again edges finished (maximumCallDepth - levels) action search (checkActionDepth edges levels action search) := by
  have off : ∀ (action : Action) (search : DepthSearch Action), finished action →
      (∀ member, search.path member = true → finished member → rank member < rank action) → search.path action = false := by
    intro action search isFinished clear
    rw [← Bool.not_eq_true]
    exact fun onPath => Nat.lt_irrefl _ (clear action onPath isFinished)
  induction levels generalizing action search with
  | zero =>
    refine checkFrom_again (reportDepth_errors lasting_ne_nil action) (by decide) (Nat.le_refl _) isFinished (off action search isFinished clear) ranked
      fun call _ inner innerRanked _ => .inl ?_
    rw [reportDepth, innerRanked.unreported, if_neg not_mem_nil]
    exact append_ne_nil_of_right_ne_nil _ (cons_ne_nil _ _)
  | succ levels ih =>
    refine checkFrom_again (fun search call => checkActionDepth_errors lasting_ne_nil levels call.callee search) (Nat.sub_pos_of_lt below)
      (Nat.sub_le _ _) isFinished (off action search isFinished clear) ranked fun call listed inner innerRanked isPath => ?_
    obtain ⟨calleeFinished, higher⟩ := climbs action call.callee isFinished ⟨call, listed, rfl⟩
    have deeper : maximumCallDepth - (levels + 1) + 1 = maximumCallDepth - levels := by omega
    rw [deeper]
    refine ih (Nat.lt_of_succ_lt below) call.callee calleeFinished inner innerRanked fun member onPath memberFinished => ?_
    rw [isPath] at onPath
    by_cases same : member = action
    · exact same ▸ higher
    · rw [setPath_other _ _ same] at onPath
      exact Nat.lt_trans (clear member onPath memberFinished) higher

/-! ## Both searches at once -/

theorem CycleSearch.mark_self (search : CycleSearch Action) (action : Action) (state : CycleState) :
    (search.mark action state).states action = some state :=
  if_pos rfl

theorem CycleSearch.mark_other (search : CycleSearch Action) {other : Action} (state : CycleState)
    (different : other ≠ action) :
    (search.mark action state).states other = search.states other :=
  if_neg different

open CycleSearch

/-- Both searches have seen the same, without anything to report. -/
structure InStep (edges : Action → List (ActionCall Action)) (cycles : CycleSearch Action) (depths : DepthSearch Action) : Prop where
  silent : cycles.errors = []
  ranked : Ranked edges (fun action => cycles.states action = some .finished) depths
  closed : ∀ action, cycles.states action = some .finished → ∀ callee, Calls edges action callee →
    cycles.states callee = some .finished
  active : ∀ action, cycles.states action = some .active ↔ depths.path action = true
  unseen : ∀ action, cycles.states action = none → depths.greatest action = 0
  seen : ∀ action, cycles.states action = some .finished → 0 < depths.greatest action

/-- What both searches leave alone. -/
structure OnwardInStep (before after : CycleSearch Action × DepthSearch Action) : Prop where
  finished : ∀ action, before.1.states action = some .finished → after.1.states action = some .finished
  path : after.2.path = before.2.path
  grows : ∀ action, before.2.greatest action ≤ after.2.greatest action
  onPath : ∀ action, before.2.path action = true → after.2.greatest action = before.2.greatest action

omit [DecidableEq Action] in
theorem OnwardInStep.refl (search : CycleSearch Action × DepthSearch Action) : OnwardInStep search search :=
  ⟨fun _ known => known, rfl, fun _ => Nat.le_refl _, fun _ _ => rfl⟩

omit [DecidableEq Action] in
theorem OnwardInStep.trans {first second third : CycleSearch Action × DepthSearch Action} (one : OnwardInStep first second)
    (two : OnwardInStep second third) : OnwardInStep first third :=
  ⟨fun action known => two.finished action (one.finished action known), two.path.trans one.path,
    fun action => Nat.le_trans (one.grows action) (two.grows action), fun action onPath =>
      (two.onPath action (by rw [one.path]; exact onPath)).trans (one.onPath action onPath)⟩

/-- One of the searches has something to report. -/
def Reported (search : CycleSearch Action × DepthSearch Action) : Prop := search.1.errors ≠ [] ∨ search.2.errors ≠ []

/-- What both searches come to when they enter an action at a depth. -/
def Entered (edges : Action → List (ActionCall Action)) (depth : Nat) (action : Action)
    (before after : CycleSearch Action × DepthSearch Action) : Prop :=
  Reported after ∨ InStep edges after.1 after.2 ∧ OnwardInStep before after ∧
    after.1.states action = some .finished ∧ depth ≤ after.2.greatest action

/-- An action that was finished is only looked at again by the search for depths. -/
theorem entered_finished {levels : Nat} (below : levels < maximumCallDepth) (inStep : InStep edges cycles depths)
    (finished : cycles.states action = some .finished) :
    Entered edges (maximumCallDepth - levels) action (cycles, depths)
      (detectActionCycles edges levels action cycles, checkActionDepth edges levels action depths) := by
  have same : detectActionCycles edges levels action cycles = cycles := by
    cases levels <;> rw [detectActionCycles, detectFrom, finished]
  rw [same]
  have off : ∀ member, cycles.states member = some .finished → depths.path member = false := by
    intro member known
    rw [← Bool.not_eq_true, ← inStep.active, known]
    exact nofun
  have climbs : ∀ action callee, cycles.states action = some .finished → Calls edges action callee →
      cycles.states callee = some .finished ∧ depths.greatest action < depths.greatest callee :=
    fun action callee known called =>
      ⟨inStep.closed action known callee called, inStep.ranked.rising action known (off action known) callee called⟩
  have again := checkActionDepth_again climbs levels below action finished depths inStep.ranked fun member onPath known => by
    rw [off member known] at onPath
    cases onPath
  rcases again with failed | ⟨ranked, onward, deep⟩
  · exact .inl (.inr failed)
  · refine .inr ⟨⟨inStep.silent, ranked, inStep.closed, fun other => ?_, fun other unknown => ?_, fun other known => ?_⟩,
      ⟨fun _ known => known, onward.path, onward.grows, fun other onPath => onward.outside other (.inr onPath)⟩, finished, deep⟩
    · rw [onward.path]
      exact inStep.active other
    · rw [onward.outside other (.inl (by rw [unknown]; exact nofun))]
      exact inStep.unseen other unknown
    · exact Nat.lt_of_lt_of_le (inStep.seen other known) (onward.grows other)

/-- Both searches are in step once they have put a new action on their paths. -/
theorem inStep_enter (bounded : depth ≤ maximumCallDepth) (inStep : InStep edges cycles depths)
    (unknown : cycles.states action = none) :
    InStep edges (cycles.mark action .active) ((depths.setDepth action depth).setPath action true) := by
  have differs : ∀ other state, cycles.states other = some state → other ≠ action := by
    rintro other state known rfl
    rw [unknown] at known
    cases known
  have before : ∀ other, (cycles.mark action .active).states other = some .finished → cycles.states other = some .finished := by
    intro other known
    by_cases same : other = action
    · rw [same, mark_self] at known
      cases known
    · rwa [mark_other _ _ same] at known
  refine ⟨inStep.silent, ⟨inStep.ranked.silent, inStep.ranked.unreported, fun other => ?_, fun other known away callee called => ?_⟩,
    fun other known callee called => ?_, fun other => ?_, fun other unseen => ?_, fun other known => ?_⟩
  · rw [setPath_greatest, setDepth_greatest]
    split
    · exact bounded
    · exact inStep.ranked.bounded other
  · have known := before other known
    have different := differs other _ known
    have calleeKnown := inStep.closed other known callee called
    rw [setPath_other _ _ different, setDepth_path] at away
    rw [setPath_greatest, setPath_greatest, setDepth_greatest, if_neg different,
      setDepth_greatest, if_neg (differs callee _ calleeKnown)]
    exact inStep.ranked.rising other known away callee called
  · have calleeKnown := inStep.closed other (before other known) callee called
    rw [mark_other _ _ (differs callee _ calleeKnown)]
    exact calleeKnown
  · by_cases same : other = action
    · rw [same, mark_self, setPath_self]
      exact iff_of_true rfl rfl
    · rw [mark_other _ _ same, setPath_other _ _ same]
      exact inStep.active other
  · by_cases same : other = action
    · rw [same, mark_self] at unseen
      cases unseen
    · rw [mark_other _ _ same] at unseen
      rw [setPath_greatest, setDepth_greatest, if_neg same]
      exact inStep.unseen other unseen
  · have known := before other known
    rw [setPath_greatest, setDepth_greatest, if_neg (differs other _ known)]
    exact inStep.seen other known

/-- Both searches are in step once they have finished an action whose calls are finished. -/
theorem inStep_leave (positive : 0 < depth) (inStep : InStep edges cycles depths) (onPath : depths.path action = true)
    (here : depths.greatest action = depth)
    (deep : ∀ call ∈ edges action, cycles.states call.callee = some .finished ∧ depth + 1 ≤ depths.greatest call.callee) :
    InStep edges (cycles.mark action .finished) (depths.setPath action false) := by
  have before : ∀ other, other ≠ action → (cycles.mark action .finished).states other = cycles.states other :=
    fun other different => mark_other _ _ different
  refine ⟨inStep.silent, ⟨inStep.ranked.silent, inStep.ranked.unreported, inStep.ranked.bounded,
    fun other known away callee called => ?_⟩, fun other known callee called => ?_, fun other => ?_, fun other unseen => ?_,
    fun other known => ?_⟩
  · rw [setPath_greatest, setPath_greatest]
    by_cases same : other = action
    · subst same
      obtain ⟨call, listed, rfl⟩ := called
      rw [here]
      exact (deep call listed).2
    · rw [before other same] at known
      rw [setPath_other _ _ same] at away
      exact inStep.ranked.rising other known away callee called
  · by_cases calleeSame : callee = action
    · rw [calleeSame, mark_self]
    · rw [before callee calleeSame]
      by_cases same : other = action
      · subst same
        obtain ⟨call, listed, rfl⟩ := called
        exact (deep call listed).1
      · rw [before other same] at known
        exact inStep.closed other known callee called
  · by_cases same : other = action
    · rw [same, mark_self, setPath_self]
      exact iff_of_false nofun nofun
    · rw [before other same, setPath_other _ _ same]
      exact inStep.active other
  · by_cases same : other = action
    · rw [same, mark_self] at unseen
      cases unseen
    · rw [before other same] at unseen
      exact inStep.unseen other unseen
  · rw [setPath_greatest]
    by_cases same : other = action
    · rw [same, here]
      exact positive
    · rw [before other same] at known
      exact inStep.seen other known

/-- An action that was not seen is finished once its calls are entered. -/
theorem entered_unseen {enterCycles : Action → CycleSearch Action → CycleSearch Action}
    {enterDepths : DepthSearch Action → ActionCall Action → DepthSearch Action}
    (stayCycles : ∀ callee search, search.errors ≠ [] → (enterCycles callee search).errors ≠ [])
    (stayDepths : ∀ search call, search.errors ≠ [] → (enterDepths search call).errors ≠ []) (positive : 0 < depth)
    (bounded : depth ≤ maximumCallDepth) (inStep : InStep edges cycles depths) (unknown : cycles.states action = none)
    (entered : ∀ call ∈ edges action, ∀ inner : CycleSearch Action × DepthSearch Action, InStep edges inner.1 inner.2 → inner.1.states call.callee ≠ some .active → Entered edges (depth + 1) call.callee inner (enterCycles call.callee inner.1, enterDepths inner.2 call)) :
    Entered edges depth action (cycles, depths)
      (detectFrom edges enterCycles action cycles, checkFrom edges enterDepths depth action depths) := by
  have fresh : depths.greatest action = 0 := inStep.unseen action unknown
  have off : depths.path action = false := by
    rw [← Bool.not_eq_true, ← inStep.active, unknown]
    exact nofun
  have unseen : ¬ (depths.greatestDepth action).any (depth ≤ ·) = true := by
    rw [depths.seen_iff action positive, fresh]
    exact Nat.not_le.mpr positive
  have start := inStep_enter bounded inStep unknown
  rw [detectFrom, unknown, checkFrom, if_neg unseen, if_neg (Bool.not_eq_true _ ▸ off)]
  have both := foldl_runs (fun inner call => (detectCall enterCycles action inner.1 call, enterDepths inner.2 call))
    Reported (fun inner => InStep edges inner.1 inner.2 ∧ inner.2.path = (depths.setPath action true).path)
    OnwardInStep (fun call inner => inner.1.states call.callee = some .finished ∧ depth + 1 ≤ inner.2.greatest call.callee)
    .refl (fun _ _ _ => .trans)
    (fun inner call failed => failed.imp (detectCall_errors lasting_ne_nil stayCycles action inner.1 call) (stayDepths inner.2 call))
    (fun call _ _ onward done => ⟨onward.finished _ done.1, Nat.le_trans done.2 (onward.grows _)⟩) (edges action) ?_
    (cycles.mark action .active, (depths.setDepth action depth).setPath action true) ⟨start, rfl⟩
  · rw [foldl_pair] at both
    rcases both with failed | ⟨⟨settled, isPath⟩, onward, deep⟩
    · exact .inl failed
    · have here := onward.onPath action (setPath_self _ action true)
      rw [setPath_greatest, setDepth_greatest, if_pos rfl] at here
      refine .inr ⟨inStep_leave positive settled ?_ here deep, ⟨fun other known => ?_, ?_, fun other => ?_, fun other member => ?_⟩,
        mark_self _ _ _, Nat.le_of_eq here.symm⟩
      · rw [isPath, setPath_self]
      · have different : other ≠ action := by
          rintro rfl
          rw [unknown] at known
          cases known
        rw [mark_other _ _ different]
        exact onward.finished other (by rw [mark_other _ _ different]; exact known)
      · funext other
        by_cases same : other = action
        · rw [same, setPath_self, off]
        · rw [setPath_other _ _ same, isPath, setPath_other _ _ same]
      · refine Nat.le_trans ?_ (onward.grows other)
        rw [setPath_greatest, setDepth_greatest]
        split
        · next same =>
          rw [same, fresh]
          exact Nat.zero_le _
        · exact Nat.le_refl _
      · have different : other ≠ action := by
          rintro rfl
          rw [off] at member
          cases member
        rw [setPath_greatest, onward.onPath other (by rw [setPath_other _ _ different]; exact member),
          setPath_greatest, setDepth_greatest, if_neg different]
  · rintro call listed inner ⟨settled, isPath⟩
    by_cases active : inner.1.states call.callee = some .active
    · refine .inl (.inl ?_)
      rw [detectCall, if_pos active]
      exact append_ne_nil_of_right_ne_nil _ (cons_ne_nil _ _)
    · rw [detectCall, if_neg active]
      rcases entered call listed inner settled active with failed | ⟨after, onward, finished, deep⟩
      · exact .inl failed
      · exact .inr ⟨⟨after, onward.path.trans isPath⟩, onward, finished, deep⟩

/-- Both searches, entering an action that is not on their path. -/
theorem entered_both (levels : Nat) (below : levels < maximumCallDepth) (action : Action) (cycles : CycleSearch Action)
    (depths : DepthSearch Action) (inStep : InStep edges cycles depths) (inactive : cycles.states action ≠ some .active) :
    Entered edges (maximumCallDepth - levels) action (cycles, depths)
      (detectActionCycles edges levels action cycles, checkActionDepth edges levels action depths) := by
  induction levels generalizing action cycles depths with
  | zero =>
    cases known : cycles.states action with
    | some state =>
      cases state with
      | active => exact absurd known inactive
      | finished => exact entered_finished below inStep known
    | none =>
      refine entered_unseen (fun _ _ failed => failed) (reportDepth_errors lasting_ne_nil action) (by decide) (Nat.le_refl _) inStep known
        fun call _ inner settled _ => .inl (.inr ?_)
      rw [reportDepth, settled.ranked.unreported, if_neg not_mem_nil]
      exact append_ne_nil_of_right_ne_nil _ (cons_ne_nil _ _)
  | succ levels ih =>
    cases known : cycles.states action with
    | some state =>
      cases state with
      | active => exact absurd known inactive
      | finished => exact entered_finished below inStep known
    | none =>
      refine entered_unseen (detectActionCycles_errors lasting_ne_nil levels) (fun search call => checkActionDepth_errors lasting_ne_nil levels call.callee search)
        (Nat.sub_pos_of_lt below) (Nat.sub_le _ _) inStep known fun call _ inner settled inactive => ?_
      have deeper : maximumCallDepth - (levels + 1) + 1 = maximumCallDepth - levels := by omega
      rw [deeper]
      exact ih (Nat.lt_of_succ_lt below) call.callee inner.1 inner.2 settled inactive

variable (graph : ActionCallGraph Action)

/-- Without reports, both searches end in step and with every action finished. -/
theorem searches_end :
    Reported (detectAllCycles graph, checkAllDepths graph) ∨
      InStep graph.edges (detectAllCycles graph) (checkAllDepths graph) ∧
        ∀ action ∈ graph.actions, (detectAllCycles graph).states action = some .finished := by
  have start : InStep graph.edges (CycleSearch.new : CycleSearch Action) DepthSearch.new :=
    ⟨rfl, ⟨rfl, rfl, fun _ => Nat.zero_le _, nofun⟩, nofun, fun _ => iff_of_false nofun nofun, fun _ _ => rfl, nofun⟩
  have both := foldl_runs
    (fun inner action => (detectActionCycles graph.edges (maximumCallDepth - 1) action inner.1,
      checkActionDepth graph.edges (maximumCallDepth - 1) action inner.2.restart))
    Reported (fun inner => InStep graph.edges inner.1 inner.2 ∧ inner.2.path = fun _ => false) OnwardInStep
    (fun action inner => inner.1.states action = some .finished) .refl (fun _ _ _ => .trans)
    (fun inner action failed => failed.imp (detectActionCycles_errors lasting_ne_nil _ action inner.1)
      (checkActionDepth_errors lasting_ne_nil _ action inner.2.restart))
    (fun action _ _ onward known => onward.finished action known) graph.actions ?_ (CycleSearch.new, DepthSearch.new) ⟨start, rfl⟩
  · rw [foldl_pair (fun search action => detectActionCycles graph.edges (maximumCallDepth - 1) action search)
      fun search action => checkActionDepth graph.edges (maximumCallDepth - 1) action search.restart] at both
    exact both.imp_right fun ended => ⟨ended.1.1, ended.2.2⟩
  · rintro action _ ⟨cycles, depths⟩ ⟨inStep, isPath⟩
    have restarted : depths.restart = depths := by
      rw [restart, ← isPath]
    rw [restarted]
    have inactive : cycles.states action ≠ some .active := by
      rw [Ne, inStep.active, isPath]
      exact nofun
    rcases entered_both (maximumCallDepth - 1) (by decide) action cycles depths inStep inactive with failed | ⟨after, onward, finished, _⟩
    · exact .inl failed
    · exact .inr ⟨⟨after, onward.path.trans isPath⟩, onward, finished⟩

/-! ## What is reported is there -/

/-- On a trail of calls, the search for cycles has nothing to report in an acyclic graph. -/
def Trailing (trail : List Action) (search : CycleSearch Action) : Prop :=
  search.errors = [] ∧ ∀ other, search.states other = some .active → other ∈ trail

/-- On a trail of calls, the search for cycles has nothing to report in an acyclic graph. -/
theorem detectFrom_silent (acyclic : ∀ action, ¬ Relation.TransGen (Calls edges) action action)
    {enter : Action → CycleSearch Action → CycleSearch Action} {trail : List Action}
    (chain : List.IsChain (fun later earlier => Calls edges earlier later) (action :: trail))
    (entered : ∀ callee search, Calls edges action callee → Trailing (action :: trail) search → Trailing (action :: trail) (enter callee search))
    {search : CycleSearch Action} (trailing : Trailing trail search) : Trailing trail (detectFrom edges enter action search) := by
  unfold detectFrom
  split
  · exact trailing
  · have start : Trailing (action :: trail) (search.mark action .active) := by
      refine ⟨trailing.1, fun other active => ?_⟩
      by_cases same : other = action
      · exact same ▸ mem_cons_self
      · rw [mark_other _ _ same] at active
        exact mem_cons_of_mem action (trailing.2 other active)
    have looped := List.foldlRecOn (motive := Trailing (action :: trail)) (edges action) (detectCall enter action) start
      fun search trailing call listed => by
        rw [detectCall, if_neg]
        · exact entered call.callee search ⟨call, listed, rfl⟩ trailing
        · intro active
          exact acyclic action (.head' ⟨call, listed, rfl⟩ (trail_leads chain (trailing.2 call.callee active)))
    refine ⟨looped.1, fun other active => ?_⟩
    by_cases same : other = action
    · rw [same, mark_self] at active
      cases active
    · rw [mark_other _ _ same] at active
      exact (mem_cons.mp (looped.2 other active)).resolve_left same

theorem detectActionCycles_silent (acyclic : ∀ action, ¬ Relation.TransGen (Calls edges) action action) (levels : Nat)
    (action : Action) (trail : List Action) (chain : List.IsChain (fun later earlier => Calls edges earlier later) (action :: trail))
    (search : CycleSearch Action) (trailing : Trailing trail search) : Trailing trail (detectActionCycles edges levels action search) := by
  induction levels generalizing action trail search with
  | zero => exact detectFrom_silent acyclic chain (fun _ _ _ trailing => trailing) trailing
  | succ _ ih =>
    exact detectFrom_silent acyclic chain
      (fun callee search called trailing => ih callee (action :: trail) (isChain_cons_cons.mpr ⟨called, chain⟩) search trailing)
      trailing

theorem checkFrom_silent (entered : ∀ call ∈ edges action, ∀ search, search.errors = [] → (enter search call).errors = [])
    (silent : search.errors = []) : (checkFrom edges enter depth action search).errors = [] := by
  unfold checkFrom
  split
  · exact silent
  · split
    · exact silent
    · exact List.foldlRecOn (motive := fun search : DepthSearch Action => search.errors = []) (edges action) enter silent
        fun search silent call listed => entered call listed search silent

/-- At the end of a trail of calls, the search for depths has nothing to report where no chain
is too long. -/
theorem checkActionDepth_silent (short : ∀ chain, List.IsChain (Calls edges) chain → chain.length ≤ maximumCallDepth) (levels : Nat)
    (action : Action) (trail : List Action) (chain : List.IsChain (fun later earlier => Calls edges earlier later) (action :: trail))
    (long : trail.length + 1 + levels = maximumCallDepth) (search : DepthSearch Action) (silent : search.errors = []) :
    (checkActionDepth edges levels action search).errors = [] := by
  have further : ∀ (action : Action) (trail : List Action), List.IsChain (fun later earlier => Calls edges earlier later) (action :: trail) →
      ∀ call ∈ edges action, List.IsChain (fun later earlier => Calls edges earlier later) (call.callee :: action :: trail) :=
    fun action trail chain call listed => isChain_cons_cons.mpr ⟨⟨call, listed, rfl⟩, chain⟩
  induction levels generalizing action trail search with
  | zero =>
    refine checkFrom_silent (fun call listed search silent => ?_) silent
    have bounded := short _ (isChain_reverse.mpr (further action trail chain call listed))
    rw [length_reverse, length_cons, length_cons] at bounded
    omega
  | succ levels ih =>
    refine checkFrom_silent (fun call listed search silent => ?_) silent
    exact ih call.callee (action :: trail) (further action trail chain call listed) (by rw [length_cons]; omega) search silent

theorem detectAllCycles_ofShape : ∀ error ∈ (detectAllCycles graph).errors, error.ofShape :=
  List.foldlRecOn (motive := fun search => ∀ error ∈ search.errors, error.ofShape) (b := CycleSearch.new) graph.actions _ nofun
    fun search shapes action _ => detectActionCycles_errors lasting_ofShape _ action search shapes

theorem checkAllDepths_ofShape : ∀ error ∈ (checkAllDepths graph).errors, error.ofShape :=
  List.foldlRecOn (motive := fun search => ∀ error ∈ search.errors, error.ofShape) (b := DepthSearch.new) graph.actions _ nofun
    fun search shapes action _ => checkActionDepth_errors lasting_ofShape _ action search.restart shapes

/-- Nothing about the shape is reported when neither search has reported anything. -/
theorem validate_silent (few : graph.actions.length ≤ maximumActions) :
    (∀ error ∈ validateActionCallGraph graph, ¬ error.ofShape) ↔
      (detectAllCycles graph).errors = [] ∧ (checkAllDepths graph).errors = [] := by
  have reports : validateActionCallGraph graph = (detectAllCycles graph).errors ++ (checkAllDepths graph).errors := by
    unfold validateActionCallGraph
    split
    · next none =>
      rw [detectAllCycles, checkAllDepths, none]
      rfl
    · rw [if_neg (Nat.not_lt.mpr few)]
  rw [reports, ← append_eq_nil_iff]
  constructor
  · intro clean
    rw [eq_nil_iff_forall_not_mem]
    intro error listed
    refine clean error listed ?_
    rcases mem_append.mp listed with cycle | depth
    · exact detectAllCycles_ofShape graph error cycle
    · exact checkAllDepths_ofShape graph error depth
  · intro none error listed
    rw [none] at listed
    cases listed

/-- What ends without a report has depths that rise along all calls. -/
theorem depths_rise (cycles : (detectAllCycles graph).errors = []) (depths : (checkAllDepths graph).errors = []) :
    (∀ caller callee, Calls graph.edges caller callee →
      0 < (checkAllDepths graph).greatest caller ∧ (checkAllDepths graph).greatest caller < (checkAllDepths graph).greatest callee) ∧
      ∀ action, (checkAllDepths graph).greatest action ≤ maximumCallDepth := by
  rcases searches_end graph with reported | ⟨inStep, finished⟩
  · rcases reported with failed | failed
    · exact absurd cycles failed
    · exact absurd depths failed
  · refine ⟨fun caller callee called => ?_, inStep.ranked.bounded⟩
    obtain ⟨call, listed, isCallee⟩ := called
    have known := finished caller (graph.callers caller (ne_nil_of_mem listed))
    have off : (checkAllDepths graph).path caller = false := by
      rw [← Bool.not_eq_true, ← inStep.active, known]
      exact nofun
    exact ⟨inStep.seen caller known, inStep.ranked.rising caller known off callee ⟨call, listed, isCallee⟩⟩

/-- Up to the number of actions that are allowed, neither a cycle nor a depth is reported
exactly when there is no cycle and no chain of calls is too long. -/
theorem validateActionCallGraph_exact (graph : ActionCallGraph Action) (few : graph.actions.length ≤ maximumActions) :
    (∀ error ∈ validateActionCallGraph graph, ¬ error.ofShape) ↔
      (∀ action, ¬ Relation.TransGen (Calls graph.edges) action action) ∧
        ∀ chain, List.IsChain (Calls graph.edges) chain → chain.length ≤ maximumCallDepth := by
  rw [validate_silent graph few]
  constructor
  · rintro ⟨cycles, depths⟩
    obtain ⟨rises, bounded⟩ := depths_rise graph cycles depths
    have rising := fun caller callee called => (rises caller callee called).2
    refine ⟨acyclic_of_rank rising, fun chain isChain => ?_⟩
    match chain with
    | [] => exact Nat.zero_le _
    | [action] => exact Nat.le_add_left 1 63
    | first :: second :: rest =>
      have positive := (rises first second (isChain_cons_cons.mp isChain).1).1
      have climbed := chain_rank rising first (second :: rest) isChain fun action _ => bounded action
      rw [length_cons]
      omega
  · rintro ⟨acyclic, short⟩
    constructor
    · have trailing : Trailing [] (detectAllCycles graph) :=
        List.foldlRecOn (motive := Trailing []) (b := CycleSearch.new) graph.actions _ ⟨rfl, nofun⟩
          fun search trailing action _ => detectActionCycles_silent acyclic _ action [] (isChain_singleton action) search trailing
      exact trailing.1
    · exact List.foldlRecOn (motive := fun search : DepthSearch Action => search.errors = []) (b := DepthSearch.new) graph.actions _ rfl
        fun search silent action _ =>
          checkActionDepth_silent short _ action [] (isChain_singleton action) rfl search.restart silent

/-- Two actions, one of which calls the other. -/
def twoActions : ActionCallGraph Bool where
  actions := [true, false]
  edges action := if action then [⟨false, ⟨0, 0, 1⟩⟩] else []
  callers action called := by cases action <;> decide

theorem twoActions_exact :
    (∀ error ∈ validateActionCallGraph twoActions, ¬ error.ofShape) ↔
      (∀ action, ¬ Relation.TransGen (Calls twoActions.edges) action action) ∧
        ∀ chain, List.IsChain (Calls twoActions.edges) chain → chain.length ≤ maximumCallDepth :=
  validateActionCallGraph_exact twoActions (by decide)

end Opaal.Runtime
