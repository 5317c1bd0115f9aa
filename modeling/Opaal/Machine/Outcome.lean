import Opaal.Machine.Action

/-!
# What a program makes of a part of its state

`Yields` looks at the state through a view: whatever the rest of the state is, the program ends in a
view that satisfies one condition when it returns and another when it throws.  The rules are one for
each way a program is put together.
-/

namespace Opaal.Machine

variable {ι ε σ ω α β : Type} {view : σ → ω} {input : ι} {world : ω}

def Yields (view : σ → ω) (program : Action ι ε σ α) (input : ι) (world : ω) (failed : ε → ω → Prop)
    (post : α → ω → Prop) : Prop :=
  ∀ state, view state = world →
    match program input state with
    | .ok value after => post value (view after)
    | .error error after => failed error (view after)

variable {failed : ε → ω → Prop}

variable {post : α → ω → Prop} {program : Action ι ε σ α} {rest : α → Action ι ε σ β} {fails : ε → ω → Prop}

theorem Yields.pure {value : α} (holds : post value world) :
    Yields view (pure value : Action ι ε σ α) input world failed post := by
  intro state same
  show post value (view state)
  rw [same]
  exact holds

theorem Yields.throw {error : ε} (holds : failed error world) :
    Yields view (throw error : Action ι ε σ α) input world failed post := by
  intro state same
  show failed error (view state)
  rw [same]
  exact holds

theorem Yields.bind {middle : α → ω → Prop} {post : β → ω → Prop} (first : Yields view program input world failed middle)
    (second : ∀ value after, middle value after → Yields view (rest value) input after failed post) :
    Yields view (program >>= rest) input world failed post := by
  intro state same
  have outcome := first state same
  cases result : program input state with
  | ok value after =>
    rw [result] at outcome
    rw [ok_bind result]
    exact second value (view after) outcome after rfl
  | error =>
    rw [result] at outcome
    rw [error_bind result]
    exact outcome

theorem Yields.mono {weaker : α → ω → Prop} (yields : Yields view program input world failed post)
    (returns : ∀ value after, post value after → weaker value after)
    (throws : ∀ error after, failed error after → fails error after) :
    Yields view program input world fails weaker := by
  intro state same
  have outcome := yields state same
  cases result : program input state with
  | ok value after =>
    rw [result] at outcome
    exact returns value (view after) outcome
  | error error after =>
    rw [result] at outcome
    exact throws error (view after) outcome

/-- A step that returns in a known view. -/
theorem Yields.step {post : β → ω → Prop} {after : ω}
    (first : Yields view program input world failed fun _ reached => reached = after)
    (second : ∀ value, Yields view (rest value) input after failed post) :
    Yields view (program >>= rest) input world failed post := by
  refine first.bind ?_
  rintro value _ rfl
  exact second value

/-- What an observed program leaves. -/
def OutcomeLeaves (failed : ε → ω → Prop) (post : α → ω → Prop) : Except ε α → ω → Prop
  | .ok value, after => post value after
  | .error error, after => failed error after

/-- An observed program returns, whatever else could fail. -/
theorem Yields.observed (yields : Yields view program input world failed post) :
    Yields view (observed program) input world fails (OutcomeLeaves failed post) := by
  intro state same
  have outcome := yields state same
  unfold Machine.observed
  cases result : program input state with
  | ok | error =>
    rw [result] at outcome
    exact outcome

/-- What one pass of a loop leaves. -/
def PassLeaves (invariant : α → ω → Prop) (post : β → ω → Prop) : Turn α β → ω → Prop
  | .again next, after => invariant next after
  | .done result, after => post result after

/-- A loop, from an invariant; it may also run out of passes. -/
theorem Yields.repeatFrom {limit : ε} {body : α → Action ι ε σ (Turn α β)} {invariant : α → ω → Prop}
    {post : β → ω → Prop} (unfinished : ∀ current after, invariant current after → failed limit after)
    (pass : ∀ current middle, invariant current middle →
      Yields view (body current) input middle failed (PassLeaves invariant post))
    (bound : Nat) {current : α} (holds : invariant current world) :
    Yields view (repeatFrom limit body bound current) input world failed post := by
  induction bound generalizing current world with
  | zero => exact Yields.throw (unfinished current world holds)
  | succ _ ih =>
    refine (pass current world holds).bind ?_
    intro turn after outcome
    cases turn with
    | again => exact ih outcome
    | done => exact Yields.pure outcome

end Opaal.Machine
