/-!
# Actions on a state, and what every step of one may do

Programs that read an input, change a state and may fail, keeping the state they
failed in.  An `Order` says which states may follow a state and which errors may
be thrown; `Runs` says that a program keeps to it and what holds when it returns.
The rules below are the only way the judgement is used: one for each way a
program is put together.
-/

namespace Opaal.Machine

/-- A program over an input `ι`, a state `σ` and errors `ε`. -/
abbrev Action (ι ε σ α : Type) := ReaderT ι (EStateM ε σ) α

/-- What one pass through a loop body decides. -/
inductive Turn (α β : Type) where
  | again (next : α)
  | done (result : β)

section Programs

variable {ι ε ε' σ α β : Type}

/-- Passes through `body` until it is done; `limit` is thrown when `bound` passes
were not enough. -/
def repeatFrom (limit : ε) (body : α → Action ι ε σ (Turn α β)) : Nat → α → Action ι ε σ β
  | 0, _ => throw limit
  | bound + 1, current => do
    match ← body current with
    | .again next => repeatFrom limit body bound next
    | .done result => return result

/-- The outcome of a program as a value. -/
def observed (program : Action ι ε σ α) : Action ι ε σ (Except ε α) := fun input state =>
  match program input state with
  | .ok value after => .ok (.ok value) after
  | .error error after => .ok (.error error) after

/-- An observed outcome, thrown again when it was an error. -/
def replay : Except ε α → Action ι ε σ α
  | .ok value => return value
  | .error error => throw error

/-- A program whose errors are errors of a larger one. -/
def raising (raise : ε → ε') (program : Action ι ε σ α) : Action ι ε' σ α := fun input state =>
  match program input state with
  | .ok value after => .ok value after
  | .error error after => .error (raise error) after

end Programs

/-- Which states a program is run in, which may follow which, and which errors may
be thrown. -/
structure Order (ε σ : Type) where
  valid : σ → Prop
  later : σ → σ → Prop
  allowed : ε → Prop
  refl : ∀ state, later state state
  trans : ∀ {first second third}, later first second → later second third → later first third
  keeps : ∀ {first second}, later first second → valid first → valid second

section Judgement

variable {ι ε σ α β : Type} {order : Order ε σ} {input : ι} {state : σ}

/-- From a valid state, every state the program leaves is later than `origin`, every
error it throws is allowed, and a value it returns satisfies `post`. -/
def Ends (order : Order ε σ) (origin : σ) (program : Action ι ε σ α) (input : ι) (state : σ)
    (post : α → σ → Prop) : Prop :=
  order.valid state →
    match program input state with
    | .ok value after => order.later origin after ∧ post value after
    | .error error after => order.later origin after ∧ order.allowed error

/-- The judgement for a program that never goes back. -/
def Runs (order : Order ε σ) (program : Action ι ε σ α) (input : ι) (state : σ) (post : α → σ → Prop) : Prop :=
  Ends order state program input state post

variable {program : Action ι ε σ α} {rest : α → Action ι ε σ β} {value current : α} {after origin : σ} {limit : ε}
  {body : α → Action ι ε σ (Turn α β)} {bound : Nat} {post middle invariant : α → σ → Prop}

/-- A step whose result is known can be taken out of a sequence. -/
theorem ok_bind (result : program input state = .ok value after) :
    (program >>= rest) input state = rest value input after := by
  show EStateM.bind (program input) (fun value => rest value input) state = _
  simp [EStateM.bind, result]

/-- A failing first step is all of a sequence. -/
theorem error_bind {error : ε} (result : program input state = .error error after) :
    (program >>= rest) input state = .error error after := by
  show EStateM.bind (program input) (fun value => rest value input) state = _
  simp [EStateM.bind, result]

/-- A pass of a loop that asks for another one. -/
theorem repeatFrom_again {next : α} (pass : body current input state = .ok (.again next) after) :
    repeatFrom limit body (bound + 1) current input state = repeatFrom limit body bound next input after := by
  rw [repeatFrom, ok_bind pass]

/-- The last pass of a loop. -/
theorem repeatFrom_done {result : β} (pass : body current input state = .ok (.done result) after) :
    repeatFrom limit body (bound + 1) current input state = .ok result after := by
  rw [repeatFrom, ok_bind pass]
  rfl

/-- What is valid may be used. -/
theorem Runs.assume (runs : order.valid state → Runs order program input state post) : Runs order program input state post :=
  fun valid => runs valid valid

/-- Sequencing with an origin: the rest may step back, but not behind it. -/
theorem Ends.bind {post : β → σ → Prop} (reached : order.later origin state) (first : Runs order program input state middle)
    (second : ∀ value after, order.later state after → middle value after → Ends order origin (rest value) input after post) :
    Ends order origin (program >>= rest) input state post := by
  intro valid
  have outcome := first valid
  cases result : program input state with
  | error =>
    rw [result] at outcome
    rw [error_bind result]
    exact ⟨order.trans reached outcome.1, outcome.2⟩
  | ok value after =>
    rw [result] at outcome
    rw [ok_bind result]
    exact second value after outcome.1 outcome.2 (order.keeps outcome.1 valid)

theorem Ends.of_runs (reached : order.later origin state) (runs : Runs order program input state post) :
    Ends order origin program input state post := by
  intro valid
  have outcome := runs valid
  cases result : program input state with
  | ok | error =>
    rw [result] at outcome
    exact ⟨order.trans reached outcome.1, outcome.2⟩

/-- A step to a known state, which may be before this one but not before the origin. -/
theorem Ends.of_eq (result : program input state = .ok value after) (later : order.later origin after)
    (holds : post value after) : Ends order origin program input state post := by
  intro _
  rw [result]
  exact ⟨later, holds⟩

/-- The same as the first of several steps. -/
theorem Ends.steps {post : β → σ → Prop} (after : σ) (result : program input state = .ok value after)
    (keeps : order.valid state → order.valid after) (second : Ends order origin (rest value) input after post) :
    Ends order origin (program >>= rest) input state post := by
  intro valid
  rw [ok_bind result]
  exact second (keeps valid)

theorem Runs.mono {weaker : α → σ → Prop} (runs : Runs order program input state post)
    (weaken : ∀ value after, order.later state after → post value after → weaker value after) :
    Runs order program input state weaker := by
  intro valid
  have outcome := runs valid
  cases result : program input state with
  | ok value after =>
    rw [result] at outcome
    exact ⟨outcome.1, weaken value after outcome.1 outcome.2⟩
  | error =>
    rw [result] at outcome
    exact outcome

/-- A discipline that asks less. -/
theorem Runs.widen {wider : Order ε σ} (runs : Runs order program input state post)
    (valid : wider.valid state → order.valid state) (later : ∀ after, order.later state after → wider.later state after)
    (allowed : ∀ error, order.allowed error → wider.allowed error) :
    Runs wider program input state post := by
  intro validState
  have outcome := runs (valid validState)
  cases result : program input state with
  | ok _ after =>
    rw [result] at outcome
    exact ⟨later after outcome.1, outcome.2⟩
  | error error after =>
    rw [result] at outcome
    exact ⟨later after outcome.1, allowed error outcome.2⟩

theorem Runs.pure (holds : post value state) :
    Runs order (pure value : Action ι ε σ α) input state post :=
  fun _ => ⟨order.refl state, holds⟩

theorem Runs.throw {error : ε} (allowed : order.allowed error) :
    Runs order (throw error : Action ι ε σ α) input state post :=
  fun _ => ⟨order.refl state, allowed⟩

/-- Sequencing: the rest starts in a later state. -/
theorem Runs.bind {post : β → σ → Prop} (first : Runs order program input state middle)
    (second : ∀ value after, order.later state after → middle value after → Runs order (rest value) input after post) :
    Runs order (program >>= rest) input state post :=
  Ends.bind (order.refl state) first fun value after later holds =>
    Ends.of_runs later (second value after later holds)

/-- A step whose result is known. -/
theorem Runs.of_eq (result : program input state = .ok value after) (later : order.later state after)
    (holds : post value after) : Runs order program input state post :=
  Ends.of_eq result later holds

/-- A step that only reads the state. -/
theorem Runs.reads {post : β → σ → Prop} (reads : program input state = .ok value state)
    (second : Runs order (rest value) input state post) :
    Runs order (program >>= rest) input state post := by
  have first : Runs order program input state (fun value' after => value' = value ∧ after = state) :=
    Runs.of_eq reads (order.refl state) ⟨rfl, rfl⟩
  refine Runs.bind first ?_
  rintro _ _ _ ⟨rfl, rfl⟩
  exact second

/-- A step that never returns. -/
theorem Runs.stops {post : β → σ → Prop} (first : Runs order program input state fun _ _ => False) :
    Runs order (program >>= rest) input state post :=
  Runs.bind first fun _ _ _ impossible => impossible.elim

/-- What may be seen of an outcome. -/
def Seen (order : Order ε σ) (post : α → σ → Prop) (after : σ) : Except ε α → Prop
  | .ok value => post value after
  | .error error => order.allowed error

/-- An observed program returns. -/
theorem Runs.observed_eq (runs : Runs order program input state post) (valid : order.valid state) :
    ∃ outcome after, observed program input state = .ok outcome after ∧ order.later state after ∧
      Seen order post after outcome := by
  have ended := runs valid
  unfold Machine.observed
  cases result : program input state with
  | ok value after =>
    rw [result] at ended
    exact ⟨.ok value, after, rfl, ended⟩
  | error error after =>
    rw [result] at ended
    exact ⟨.error error, after, rfl, ended⟩

theorem Runs.observed (runs : Runs order program input state post) :
    Runs order (observed program) input state fun outcome after => Seen order post after outcome := by
  refine Runs.assume fun valid => ?_
  obtain ⟨_, _, result, later, seen⟩ := Runs.observed_eq runs valid
  exact Runs.of_eq result later seen

/-- A loop whose every further pass lowers a measure, from an invariant. -/
theorem Runs.repeatFrom {post : β → σ → Prop} (measure : σ → Nat)
    (pass : ∀ current middle, order.later state middle → invariant current middle → Runs order (body current) input middle fun turn after => match turn with | .again next => invariant next after ∧ measure after < measure middle | .done result => post result after)
    (enough : measure state < bound) (holds : invariant current state) :
    Runs order (repeatFrom limit body bound current) input state post := by
  suffices general : ∀ bound current middle, order.later state middle → measure middle < bound →
      invariant current middle → Runs order (Machine.repeatFrom limit body bound current) input middle post by
    exact general bound current state (order.refl state) enough holds
  intro bound
  induction bound with
  | zero =>
    intro current middle _ impossible
    omega
  | succ bound ih =>
    intro current middle reached small invariantHolds
    refine Runs.bind (pass current middle reached invariantHolds) ?_
    intro turn after stepped outcome
    cases turn with
    | again next =>
      exact ih next after (order.trans reached stepped) (by have := outcome.2; omega) outcome.1
    | done => exact Runs.pure outcome

/-- What a pass may decide: to go on from something smaller, or to be done. -/
def Turn.Lowers (invariant : α → Prop) (measure : α → Nat) (post : β → Prop) (current : α) : Turn α β → Prop
  | .again next => invariant next ∧ measure next < measure current
  | .done result => post result

/-- A loop whose every further pass goes on from something smaller. -/
theorem Runs.repeatFrom_smaller {invariant : α → Prop} {post : β → Prop} {measure : α → Nat}
    (pass : ∀ current middle, invariant current → Runs order (body current) input middle fun turn _ => turn.Lowers invariant measure post current)
    (enough : measure current < bound) (holds : invariant current) :
    Runs order (Machine.repeatFrom limit body bound current) input state fun result _ => post result := by
  induction bound generalizing current state with
  | zero => omega
  | succ bound ih =>
    refine Runs.bind (pass current state holds) ?_
    intro turn after _ outcome
    cases turn with
    | again next =>
      obtain ⟨held, smaller⟩ := outcome
      exact ih (by omega) held
    | done => exact Runs.pure outcome

/-- A loop that may also run out of passes, from an invariant. -/
theorem Runs.repeatFrom_allowed {post : β → σ → Prop} (unfinished : order.allowed limit)
    (pass : ∀ current middle, order.later state middle → invariant current middle → Runs order (body current) input middle fun turn after => match turn with | .again next => invariant next after | .done result => post result after)
    (holds : invariant current state) :
    Runs order (Machine.repeatFrom limit body bound current) input state post := by
  suffices general : ∀ bound current middle, order.later state middle →
      invariant current middle → Runs order (Machine.repeatFrom limit body bound current) input middle post by
    exact general bound current state (order.refl state) holds
  intro bound
  induction bound with
  | zero =>
    intro current middle _ _
    exact Runs.throw unfinished
  | succ _ ih =>
    intro current middle reached invariantHolds
    refine Runs.bind (pass current middle reached invariantHolds) ?_
    intro turn after stepped outcome
    cases turn with
    | again next => exact ih next after (order.trans reached stepped) outcome
    | done => exact Runs.pure outcome

/-- A program with its errors inside those of a larger one. -/
theorem Runs.raising {ε' : Type} {wider : Order ε' σ} {raise : ε → ε'} (runs : Runs order program input state post)
    (valid : wider.valid state → order.valid state) (later : ∀ after, order.later state after → wider.later state after)
    (allowed : ∀ error, order.allowed error → wider.allowed (raise error)) :
    Runs wider (raising raise program) input state post := by
  intro validState
  have outcome := runs (valid validState)
  unfold Machine.raising
  cases result : program input state with
  | ok _ after =>
    rw [result] at outcome
    exact ⟨later after outcome.1, outcome.2⟩
  | error error after =>
    rw [result] at outcome
    exact ⟨later after outcome.1, allowed error outcome.2⟩

end Judgement

end Opaal.Machine
