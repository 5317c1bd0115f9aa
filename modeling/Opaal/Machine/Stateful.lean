/-!
# Steps of programs that keep their state

How a program with errors, or with a state and errors, goes on after a step whose result is known.
-/

namespace Opaal.Machine

variable {ε σ α β : Type} {program : EStateM ε σ α} {rest : α → EStateM ε σ β} {state after : σ}

/-- A sequence that returns has a first step that returned. -/
theorem bind_ok {step : Except ε α} {next : α → Except ε β} {value : β} (passed : (step >>= next) = .ok value) :
    ∃ result, step = .ok result ∧ next result = .ok value := by
  cases step with
  | error => cases passed
  | ok result => exact ⟨result, rfl, passed⟩

theorem bind_of_ok {value : α} (result : program state = .ok value after) :
    (program >>= rest) state = rest value after := by
  show EStateM.bind program rest state = _
  simp [EStateM.bind, result]

theorem bind_of_error {failure : ε} (result : program state = .error failure after) :
    (program >>= rest) state = .error failure after := by
  show EStateM.bind program rest state = _
  simp [EStateM.bind, result]

theorem bind_returned {value : β} {last : σ} (passed : (program >>= rest) state = .ok value last) :
    ∃ result middle, program state = .ok result middle ∧ rest result middle = .ok value last := by
  cases ran : program state with
  | error =>
    rw [bind_of_error ran] at passed
    contradiction
  | ok result middle => exact ⟨result, middle, rfl, (bind_of_ok ran).symm.trans passed⟩

theorem get_bind (rest : σ → EStateM ε σ β) : (get >>= rest) state = rest state state := rfl

theorem set_bind (rest : PUnit → EStateM ε σ β) : (set after >>= rest) state = rest ⟨⟩ after := rfl

theorem adaptExcept_of_ok {ε' : Type} {translate : ε → ε'} {value : α} (result : program state = .ok value after) :
    EStateM.adaptExcept translate program state = .ok value after := by
  unfold EStateM.adaptExcept
  rw [result]

end Opaal.Machine
