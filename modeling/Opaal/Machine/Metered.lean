import Opaal.Machine.Action

/-!
# Programs that write and pay

A meter tells what a state has written and what it can still pay for.  The judgement below says
what a program writes whenever it returns, under which condition it may return at all, and that it
does return when enough can be paid.
-/

namespace Opaal.Machine

variable {ι ε σ β : Type}

/-- A sequence that returns is two steps that return. -/
theorem bind_returns {α γ : Type} {program : Action ι ε σ α} {rest : α → Action ι ε σ γ} {input : ι} {state after : σ}
    {value : γ} (ran : (program >>= rest) input state = .ok value after) :
    ∃ result middle, program input state = .ok result middle ∧ rest result input middle = .ok value after := by
  cases started : program input state with
  | error error middle =>
    rw [error_bind started] at ran
    contradiction
  | ok result middle =>
    rw [ok_bind started] at ran
    exact ⟨result, middle, rfl, ran⟩

structure Meter (ι σ β : Type) where
  output : σ → List β
  /-- Whether a state can pay so much, given what is read. -/
  affords : ι → σ → Nat → Prop

/-- The program writes `text`.  It returns only when `able` holds, and then always when enough can
be paid. -/
structure Prints (meter : Meter ι σ β) (program : Action ι ε σ Unit) (able : Prop) (text : List β) : Prop where
  writes : ∀ {input state after}, program input state = .ok () after →
    able ∧ meter.output after = meter.output state ++ text
  pays : able → ∃ cost, ∀ {input state left}, meter.affords input state (cost + left) →
    ∃ after, program input state = .ok () after ∧ meter.affords input after left

namespace Prints

variable {meter : Meter ι σ β} {program first second : Action ι ε σ Unit} {able able' : Prop} {text text' : List β}

theorem nothing : Prints meter (pure () : Action ι ε σ Unit) True [] := by
  constructor
  · intro input state after ran
    cases ran
    exact ⟨trivial, (List.append_nil _).symm⟩
  · intro _
    refine ⟨0, ?_⟩
    intro input state left affords
    rw [Nat.zero_add] at affords
    exact ⟨state, rfl, affords⟩

/-- A program that never returns. -/
theorem never (fails : ∀ input state after, program input state ≠ .ok () after) : Prints meter program False text :=
  ⟨fun ran => absurd ran (fails _ _ _), False.elim⟩

theorem seq (left : Prints meter first able text) (right : Prints meter second able' text') :
    Prints meter (first >>= fun _ => second) (able ∧ able') (text ++ text') := by
  constructor
  · intro input state after ran
    obtain ⟨_, middle, started, ran⟩ := bind_returns ran
    obtain ⟨may, wrote⟩ := left.writes started
    obtain ⟨may', wrote'⟩ := right.writes ran
    exact ⟨⟨may, may'⟩, by rw [wrote', wrote, List.append_assoc]⟩
  · rintro ⟨may, may'⟩
    obtain ⟨cost, paid⟩ := left.pays may
    obtain ⟨cost', paid'⟩ := right.pays may'
    refine ⟨cost + cost', ?_⟩
    intro input state left affords
    rw [Nat.add_assoc] at affords
    obtain ⟨middle, started, affords'⟩ := paid affords
    obtain ⟨after, ran, affords''⟩ := paid' affords'
    exact ⟨after, (ok_bind started).trans ran, affords''⟩

theorem congr (prints : Prints meter program able text) (may : able ↔ able') (same : text = text') :
    Prints meter program able' text' := by
  subst same
  exact ⟨fun ran => ⟨may.mp (prints.writes ran).1, (prints.writes ran).2⟩, fun holds => prints.pays (may.mpr holds)⟩

end Prints

end Opaal.Machine
