import Opaal.Machine.Action

/-!
# One program in the shadow of another

Two programs over one kind of state, each on its own input.  The first leads and
keeps to an order: as long as it is not lost, the second does exactly the same.
Where the first goes astray, the second is doomed.  A clock that runs while programs
do decides what is lost.

A rule for `Follows` stands beside each rule for `Runs`.
-/

namespace Opaal.Machine

/-- The order the leading program keeps to, the two inputs, the clock, when it is lost,
and which errors lead astray and doom. -/
structure Comparison (ι ε σ : Type) extends Order ε σ where
  lead : ι
  follow : ι
  clock : σ → Nat
  ticks : ∀ {first second : σ}, later first second → clock first ≤ clock second
  lost : Nat → Prop
  stays : ∀ {first last : Nat}, first ≤ last → lost first → lost last
  astray : ε → Prop
  doomed : ε → Prop

variable {ι ε σ α β : Type} {comparison : Comparison ι ε σ}

/-- The following program ends with an error that dooms it. -/
def DoomedAt (comparison : Comparison ι ε σ) (following : Action ι ε σ α) (state : σ) : Prop :=
  ∃ error after, following comparison.follow state = .error error after ∧ comparison.doomed error

/-- From a state the first program's outcome is the second's, unless it is lost. -/
def ShadowsFrom (comparison : Comparison ι ε σ) (leading following : Action ι ε σ α) (state : σ) : Prop :=
  match leading comparison.lead state with
  | .ok value after =>
    comparison.clock state ≤ comparison.clock after ∧
      (¬ comparison.lost (comparison.clock after) → following comparison.follow state = .ok value after)
  | .error error after =>
    comparison.clock state ≤ comparison.clock after ∧
      (¬ comparison.lost (comparison.clock after) →
        (comparison.astray error → DoomedAt comparison following state) ∧
          (¬ comparison.astray error → following comparison.follow state = .error error after))

variable {state after : σ} {leading following : Action ι ε σ α} {rest rest' : α → Action ι ε σ β}

/-- What is lost by the end of a step is lost by the end of the next. -/
theorem Comparison.still (ordered : comparison.clock state ≤ comparison.clock after)
    (going : ¬ comparison.lost (comparison.clock after)) : ¬ comparison.lost (comparison.clock state) :=
  fun lost => going (comparison.stays ordered lost)

/-- Behind a step that returned the rest decides. -/
theorem ShadowsFrom.steps {value : α} (result : leading comparison.lead state = .ok value after)
    (ordered : comparison.clock state ≤ comparison.clock after)
    (follows : ¬ comparison.lost (comparison.clock after) → following comparison.follow state = .ok value after)
    (second : ShadowsFrom comparison (rest value) (rest' value) after) :
    ShadowsFrom comparison (leading >>= rest) (following >>= rest') state := by
  unfold ShadowsFrom at second ⊢
  rw [ok_bind result]
  cases ended : rest value comparison.lead after with
  | ok =>
    rw [ended] at second
    obtain ⟨onward, same⟩ := second
    refine ⟨Nat.le_trans ordered onward, fun going => ?_⟩
    exact (ok_bind (follows (comparison.still onward going))).trans (same going)
  | error =>
    rw [ended] at second
    obtain ⟨onward, same⟩ := second
    refine ⟨Nat.le_trans ordered onward, fun going => ⟨fun astray => ?_, fun kept => ?_⟩⟩
    · obtain ⟨error', after', failed, doomed⟩ := (same going).1 astray
      exact ⟨error', after', (ok_bind (follows (comparison.still onward going))).trans failed, doomed⟩
    · exact (ok_bind (follows (comparison.still onward going))).trans ((same going).2 kept)

theorem ShadowsFrom.bind (first : ShadowsFrom comparison leading following state)
    (second : ∀ value after, leading comparison.lead state = .ok value after → ShadowsFrom comparison (rest value) (rest' value) after) :
    ShadowsFrom comparison (leading >>= rest) (following >>= rest') state := by
  have step := first
  unfold ShadowsFrom at step
  cases result : leading comparison.lead state with
  | ok value after =>
    rw [result] at step
    exact .steps result step.1 step.2 (second value after result)
  | error =>
    rw [result] at step
    obtain ⟨onward, same⟩ := step
    unfold ShadowsFrom
    rw [error_bind result]
    refine ⟨onward, fun going => ⟨fun astray => ?_, fun kept => ?_⟩⟩
    · obtain ⟨error', after', failed, doomed⟩ := (same going).1 astray
      exact ⟨error', after', error_bind failed, doomed⟩
    · exact error_bind ((same going).2 kept)

theorem ShadowsFrom.of_eq {value : α} (led : leading comparison.lead state = .ok value after)
    (ordered : comparison.clock state ≤ comparison.clock after)
    (followed : following comparison.follow state = .ok value after) : ShadowsFrom comparison leading following state := by
  unfold ShadowsFrom
  rw [led]
  exact ⟨ordered, fun _ => followed⟩

/-- An error that dooms wherever it leads astray. -/
theorem ShadowsFrom.throw {error : ε} (dooms : comparison.astray error → comparison.doomed error) :
    ShadowsFrom comparison (throw error : Action ι ε σ α) (throw error) state :=
  ⟨Nat.le_refl _, fun _ => ⟨fun astray => ⟨error, state, rfl, dooms astray⟩, fun _ => rfl⟩⟩

/-- The state a program ended in. -/
def endState : EStateM.Result ε σ α → σ
  | .ok _ after | .error _ after => after

/-- A program ended astray. -/
def EndsAstray (astray : ε → Prop) : EStateM.Result ε σ α → Prop
  | .ok _ _ => False
  | .error error _ => astray error

section Ends

variable {state : σ} {leading following : Action ι ε σ α} (shadows : ShadowsFrom comparison leading following state)
  (going : ¬ comparison.lost (comparison.clock (endState (leading comparison.lead state))))
include shadows going

/-- A program that did not end astray is followed to its end. -/
theorem ShadowsFrom.follows (kept : ¬ EndsAstray comparison.astray (leading comparison.lead state)) :
    following comparison.follow state = leading comparison.lead state := by
  unfold ShadowsFrom at shadows
  cases result : leading comparison.lead state with
  | ok =>
    rw [result] at shadows going
    exact shadows.2 going
  | error =>
    rw [result] at shadows going kept
    exact (shadows.2 going).2 kept

theorem ShadowsFrom.dooms (astray : EndsAstray comparison.astray (leading comparison.lead state)) :
    DoomedAt comparison following state := by
  unfold ShadowsFrom at shadows
  cases result : leading comparison.lead state with
  | ok =>
    rw [result] at astray
    exact astray.elim
  | error =>
    rw [result] at shadows going astray
    exact (shadows.2 going).1 astray

end Ends

/-! ## Programs that keep to the order and are followed -/

/-- The leading program keeps to the order from an origin and returns with `post`, and
from a valid state it is followed. -/
structure FollowsFrom (comparison : Comparison ι ε σ) (origin : σ) (leading following : Action ι ε σ α) (state : σ)
    (post : α → σ → Prop) : Prop where
  ends : Ends comparison.toOrder origin leading comparison.lead state post
  shadows : comparison.valid state → ShadowsFrom comparison leading following state

/-- The same for programs that do not go back. -/
abbrev Follows (comparison : Comparison ι ε σ) (leading following : Action ι ε σ α) (state : σ) (post : α → σ → Prop) : Prop :=
  FollowsFrom comparison state leading following state post

section Rules

variable {origin state after : σ} {leading following : Action ι ε σ α} {rest rest' : α → Action ι ε σ β}
  {middle : α → σ → Prop} {post : β → σ → Prop} {final weaker : α → σ → Prop} {value : α}

/-- Sequencing with an origin: the rest may step back, but not behind it. -/
theorem FollowsFrom.bind (reached : comparison.later origin state) (first : Follows comparison leading following state middle)
    (second : ∀ value after, comparison.later state after → middle value after →
      FollowsFrom comparison origin (rest value) (rest' value) after post) :
    FollowsFrom comparison origin (leading >>= rest) (following >>= rest') state post where
  ends := .bind reached first.ends fun value after later holds => (second value after later holds).ends
  shadows := by
    intro valid
    refine (first.shadows valid).bind fun value after result => ?_
    have outcome := first.ends valid
    rw [result] at outcome
    exact (second value after outcome.1 outcome.2).shadows (comparison.keeps outcome.1 valid)

theorem FollowsFrom.of_follows (reached : comparison.later origin state)
    (follows : Follows comparison leading following state final) :
    FollowsFrom comparison origin leading following state final :=
  ⟨.of_runs reached follows.ends, follows.shadows⟩

/-- A step to a known state, which may be before this one but not before the origin. -/
theorem FollowsFrom.of_eq (led : leading comparison.lead state = .ok value after)
    (followed : following comparison.follow state = .ok value after) (ordered : comparison.clock state ≤ comparison.clock after)
    (later : comparison.later origin after) (holds : final value after) :
    FollowsFrom comparison origin leading following state final :=
  ⟨.of_eq led later holds, fun _ => .of_eq led ordered followed⟩

/-- The same as the first of several steps. -/
theorem FollowsFrom.steps (after : σ) (led : leading comparison.lead state = .ok value after)
    (followed : following comparison.follow state = .ok value after) (ordered : comparison.clock state ≤ comparison.clock after)
    (keeps : comparison.valid state → comparison.valid after)
    (second : FollowsFrom comparison origin (rest value) (rest' value) after post) :
    FollowsFrom comparison origin (leading >>= rest) (following >>= rest') state post :=
  ⟨.steps after led keeps second.ends,
    fun valid => .steps led ordered (fun _ => followed) (second.shadows (keeps valid))⟩

/-- What is valid may be used. -/
theorem Follows.assume (follows : comparison.valid state → Follows comparison leading following state final) :
    Follows comparison leading following state final :=
  ⟨fun valid => (follows valid).ends valid, fun valid => (follows valid).shadows valid⟩

theorem Follows.mono (follows : Follows comparison leading following state final)
    (weaken : ∀ value after, comparison.later state after → final value after → weaker value after) :
    Follows comparison leading following state weaker :=
  ⟨Runs.mono follows.ends weaken, follows.shadows⟩

theorem Follows.pure (holds : final value state) :
    Follows comparison (pure value : Action ι ε σ α) (pure value) state final :=
  ⟨Runs.pure holds, fun _ => .of_eq rfl (Nat.le_refl _) rfl⟩

theorem Follows.throw {error : ε} (allowed : comparison.allowed error)
    (dooms : comparison.astray error → comparison.doomed error) :
    Follows comparison (throw error : Action ι ε σ α) (throw error) state final :=
  ⟨Runs.throw allowed, fun _ => .throw dooms⟩

/-- One error leads astray, the other dooms. -/
theorem Follows.stray {error doom : ε} (allowed : comparison.allowed error) (astray : comparison.astray error)
    (doomed : comparison.doomed doom) :
    Follows comparison (MonadExcept.throw error : Action ι ε σ α) (MonadExcept.throw doom) state final :=
  ⟨Runs.throw allowed, fun _ => ⟨Nat.le_refl _, fun _ => ⟨fun _ => ⟨doom, state, rfl, doomed⟩, fun kept => absurd astray kept⟩⟩⟩

/-- Sequencing: the rest starts in a later state. -/
theorem Follows.bind (first : Follows comparison leading following state middle)
    (second : ∀ value after, comparison.later state after → middle value after →
      Follows comparison (rest value) (rest' value) after post) :
    Follows comparison (leading >>= rest) (following >>= rest') state post :=
  FollowsFrom.bind (comparison.refl state) first fun value after later holds =>
    .of_follows later (second value after later holds)

/-- A step whose result is known. -/
theorem Follows.of_eq (led : leading comparison.lead state = .ok value after)
    (followed : following comparison.follow state = .ok value after) (later : comparison.later state after)
    (holds : final value after) : Follows comparison leading following state final :=
  FollowsFrom.of_eq led followed (comparison.ticks later) later holds

/-- A step that only reads the state. -/
theorem Follows.reads (led : leading comparison.lead state = .ok value state)
    (followed : following comparison.follow state = .ok value state)
    (second : FollowsFrom comparison origin (rest value) (rest' value) state post) :
    FollowsFrom comparison origin (leading >>= rest) (following >>= rest') state post :=
  .steps state led followed (Nat.le_refl _) id second

/-- A step that reads the input. -/
theorem Follows.input {rest rest' : ι → Action ι ε σ β}
    (second : FollowsFrom comparison origin (rest comparison.lead) (rest' comparison.follow) state post) :
    FollowsFrom comparison origin (read >>= rest) (read >>= rest') state post :=
  ⟨second.ends, second.shadows⟩

/-- A step that never returns. -/
theorem Follows.stops (first : Follows comparison leading following state fun _ _ => False) :
    Follows comparison (leading >>= rest) (following >>= rest') state post :=
  .bind first fun _ _ _ impossible => impossible.elim

end Rules

/-! ## Outcomes that are looked at -/

section Observed

variable {origin state : σ} {leading following : Action ι ε σ α} {rest rest' : Except ε α → Action ι ε σ β}
  {middle : α → σ → Prop} {post : β → σ → Prop}

theorem observed_ok {input : ι} {after : σ} {value : α} (result : leading input state = .ok value after) :
    observed leading input state = .ok (.ok value) after := by
  unfold observed
  rw [result]

theorem observed_error {input : ι} {after : σ} {error : ε} (result : leading input state = .error error after) :
    observed leading input state = .ok (.error error) after := by
  unfold observed
  rw [result]

/-- An outcome that is looked at.  An error that is astray is thrown again in the end,
and what is made of a doomed one is doomed. -/
theorem FollowsFrom.observed_bind
    (first : Follows comparison leading following state middle)
    (second : ∀ outcome after, comparison.later state after → Seen comparison.toOrder middle after outcome →
      (∀ error, outcome = .error error → ¬ comparison.astray error) →
      FollowsFrom comparison origin (rest outcome) (rest' outcome) after post)
    (strays : ∀ error after, comparison.later state after → comparison.astray error →
      ∃ last, rest (.error error) comparison.lead after = .error error last ∧ comparison.clock after ≤ comparison.clock last ∧
        comparison.later origin last)
    (dooms : ∀ error after, comparison.doomed error → DoomedAt comparison (rest' (.error error)) after) :
    FollowsFrom comparison origin (observed leading >>= rest) (observed following >>= rest') state post where
  ends := by
    intro valid
    have outcome := first.ends valid
    cases result : leading comparison.lead state with
    | ok value after =>
      rw [result] at outcome
      rw [ok_bind (observed_ok result)]
      exact (second (.ok value) after outcome.1 outcome.2 nofun).ends (comparison.keeps outcome.1 valid)
    | error error after =>
      rw [result] at outcome
      rw [ok_bind (observed_error result)]
      by_cases astray : comparison.astray error
      · obtain ⟨last, ended, _, behind⟩ := strays error after outcome.1 astray
        rw [ended]
        exact ⟨behind, outcome.2⟩
      · refine (second (.error error) after outcome.1 outcome.2 ?_).ends (comparison.keeps outcome.1 valid)
        rintro _ ⟨⟩
        exact astray
  shadows := by
    intro valid
    have outcome := first.ends valid
    have step := first.shadows valid
    unfold ShadowsFrom at step
    cases result : leading comparison.lead state with
    | ok value after =>
      rw [result] at step outcome
      refine .steps (observed_ok result) step.1 (fun going => observed_ok (step.2 going)) ?_
      exact (second (.ok value) after outcome.1 outcome.2 nofun).shadows (comparison.keeps outcome.1 valid)
    | error error after =>
      rw [result] at step outcome
      obtain ⟨onward, same⟩ := step
      by_cases astray : comparison.astray error
      · obtain ⟨_, ended, onward', _⟩ := strays error after outcome.1 astray
        unfold ShadowsFrom
        rw [ok_bind (observed_error result), ended]
        refine ⟨Nat.le_trans onward onward', fun going => ⟨fun _ => ?_, fun kept => absurd astray kept⟩⟩
        obtain ⟨error', after', failed, doomed⟩ := (same (comparison.still onward' going)).1 astray
        obtain ⟨error'', last', failed', doomed'⟩ := dooms error' after' doomed
        exact ⟨error'', last', (ok_bind (observed_error failed)).trans failed', doomed'⟩
      · refine .steps (observed_error result) onward (fun going => observed_error ((same going).2 astray)) ?_
        refine (second (.error error) after outcome.1 outcome.2 ?_).shadows (comparison.keeps outcome.1 valid)
        rintro _ ⟨⟩
        exact astray

/-- An outcome that is not astray, thrown again when it was an error. -/
theorem Follows.replay {outcome : Except ε α} {final : α → σ → Prop} (holds : Seen comparison.toOrder final state outcome)
    (kept : ∀ error, outcome = .error error → ¬ comparison.astray error) :
    Follows comparison (replay outcome : Action ι ε σ α) (replay outcome) state final := by
  cases outcome with
  | ok => exact .pure holds
  | error error => exact .throw holds fun astray => absurd astray (kept error rfl)

end Observed

/-! ## Loops -/

section Loops

variable {state : σ} {limit : ε} {body body' : α → Action ι ε σ (Turn α β)} {stuck : σ → Prop}

/-- States from which a loop goes on and never leaves them run it out of its bound. -/
theorem repeatFrom_exhausts {input : ι}
    (goes : ∀ current state, stuck state → ∃ next after, body current input state = .ok (.again next) after ∧ stuck after)
    (bound : Nat) (current : α) (here : stuck state) :
    ∃ after, repeatFrom limit body bound current input state = .error limit after := by
  induction bound generalizing current state with
  | zero => exact ⟨state, rfl⟩
  | succ _ ih =>
    obtain ⟨next, _, pass, still⟩ := goes current state here
    obtain ⟨last, exhausted⟩ := ih next still
    exact ⟨last, (repeatFrom_again pass).trans exhausted⟩

/-- A pass that goes astray, where the other program goes on and is stuck. -/
def StuckFrom (comparison : Comparison ι ε σ) (stuck : σ → Prop) (leading following : Action ι ε σ (Turn α β))
    (state : σ) : Prop :=
  ∃ error after, leading comparison.lead state = .error error after ∧ comparison.clock state ≤ comparison.clock after ∧
    comparison.astray error ∧ (¬ comparison.lost (comparison.clock after) →
      ∃ next after', following comparison.follow state = .ok (.again next) after' ∧ stuck after')

variable
  (goes : ∀ current state, stuck state →
    ∃ next after, body' current comparison.follow state = .ok (.again next) after ∧ stuck after)
  (dooms : comparison.doomed limit)
include goes dooms

/-- A loop that goes astray only where the other one gets stuck. -/
theorem ShadowsFrom.repeatFrom (along : α → σ → Prop)
    (pass : ∀ current state, along current state →
      (ShadowsFrom comparison (body current) (body' current) state ∨
        StuckFrom comparison stuck (body current) (body' current) state) ∧
      ∀ next after, body current comparison.lead state = .ok (.again next) after → along next after)
    (bound : Nat) (current : α) (here : along current state) :
    ShadowsFrom comparison (repeatFrom limit body bound current) (repeatFrom limit body' bound current) state := by
  induction bound generalizing current state with
  | zero => exact .throw fun _ => dooms
  | succ bound ih =>
    obtain ⟨shadows | ⟨_, after, result, onward, astray, sticks⟩, keeps⟩ := pass current state here
    · refine .bind shadows ?_
      rintro (next | result) after turned
      · exact ih next (keeps next after turned)
      · exact .of_eq rfl (Nat.le_refl _) rfl
    · unfold ShadowsFrom
      rw [Machine.repeatFrom, error_bind result]
      refine ⟨onward, fun going => ⟨fun _ => ?_, fun kept => absurd astray kept⟩⟩
      obtain ⟨next, _, goesOn, stays⟩ := sticks going
      obtain ⟨last, exhausted⟩ := repeatFrom_exhausts goes bound next stays
      exact ⟨limit, last, (repeatFrom_again goesOn).trans exhausted, dooms⟩

/-- A loop whose every further pass lowers a measure, from an invariant. -/
theorem Follows.repeatFrom {invariant : α → σ → Prop} {post : β → σ → Prop} (measure : σ → Nat)
    (pass : ∀ current middle, comparison.later state middle → invariant current middle →
      Runs comparison.toOrder (body current) comparison.lead middle (fun turn after =>
        match turn with
        | .again next => invariant next after ∧ measure after < measure middle
        | .done result => post result after) ∧
      (comparison.valid middle → ShadowsFrom comparison (body current) (body' current) middle ∨
        StuckFrom comparison stuck (body current) (body' current) middle))
    {bound : Nat} {current : α} (enough : measure state < bound) (holds : invariant current state) :
    Follows comparison (repeatFrom limit body bound current) (repeatFrom limit body' bound current) state post where
  ends := Runs.repeatFrom measure (fun current middle later here => (pass current middle later here).1) enough holds
  shadows := by
    intro valid
    refine .repeatFrom goes dooms
      (fun current middle => comparison.valid middle ∧ comparison.later state middle ∧ invariant current middle) ?_ bound current
      ⟨valid, comparison.refl state, holds⟩
    rintro current middle ⟨valid, later, here⟩
    obtain ⟨runs, shadows⟩ := pass current middle later here
    refine ⟨shadows valid, fun next after turned => ?_⟩
    have outcome := runs valid
    rw [turned] at outcome
    exact ⟨comparison.keeps outcome.1 valid, comparison.trans later outcome.1, outcome.2.1⟩

end Loops

end Opaal.Machine
