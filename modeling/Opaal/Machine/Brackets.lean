import Mathlib.Data.List.Basic

/-!
# Nested openings and closings

A word of openings and closings is balanced when every opening is closed by the closing that
follows a balanced word, and the two match.  A word is nested when it is the beginning of a
balanced one: its closings match the openings they close and some openings are still unclosed.
-/

namespace Opaal.Machine

open List

variable {α β : Type*}

def pushOrPop (stack : List α) : α ⊕ β → List α
  | .inl opening => opening :: stack
  | .inr _ => stack.tail

/-- The openings a word leaves without a closing, the last one first. -/
def unclosed (word : List (α ⊕ β)) : List α := word.foldl pushOrPop []

@[simp]
theorem unclosed_opening (word : List (α ⊕ β)) (opening : α) :
    unclosed (word ++ [.inl opening]) = opening :: unclosed word := by
  simp [unclosed, pushOrPop]

@[simp]
theorem unclosed_closing (word : List (α ⊕ β)) (closing : β) :
    unclosed (word ++ [.inr closing]) = (unclosed word).tail := by
  simp [unclosed, pushOrPop]

inductive Balanced (closes : α → β → Prop) : List (α ⊕ β) → Prop
  | nil : Balanced closes []
  | pair {opening : α} {closing : β} {inner rest : List (α ⊕ β)} (closed : closes opening closing)
      (within : Balanced closes inner) (after : Balanced closes rest) :
      Balanced closes (.inl opening :: inner ++ .inr closing :: rest)

/-- A word whose closings match, with the openings that are still to be closed. -/
inductive Nested (closes : α → β → Prop) : List (α ⊕ β) → List α → Prop
  | balanced {word : List (α ⊕ β)} (balanced : Balanced closes word) : Nested closes word []
  | opening {before after : List (α ⊕ β)} {stack : List α} (opening : α) (outer : Nested closes before stack)
      (within : Balanced closes after) : Nested closes (before ++ .inl opening :: after) (opening :: stack)

variable {closes : α → β → Prop} {word : List (α ⊕ β)} {stack : List α}

theorem Balanced.append {second : List (α ⊕ β)} (balanced : Balanced closes word)
    (follows : Balanced closes second) : Balanced closes (word ++ second) := by
  induction balanced with
  | nil => exact follows
  | pair closed within _ _ ih =>
    rw [append_assoc, cons_append]
    exact .pair closed within ih

theorem Nested.nil : Nested closes ([] : List (α ⊕ β)) [] := .balanced .nil

theorem Nested.open (nested : Nested closes word stack) (opening : α) :
    Nested closes (word ++ [.inl opening]) (opening :: stack) := .opening opening nested .nil

/-- A balanced word may follow any nested one. -/
theorem Nested.append_balanced {second : List (α ⊕ β)} (nested : Nested closes word stack)
    (follows : Balanced closes second) : Nested closes (word ++ second) stack := by
  cases nested with
  | balanced balanced => exact .balanced (balanced.append follows)
  | opening opening outer within =>
    rw [append_assoc, cons_append]
    exact .opening opening outer (within.append follows)

theorem Nested.close {opening : α} {closing : β} (nested : Nested closes word (opening :: stack))
    (closed : closes opening closing) : Nested closes (word ++ [.inr closing]) stack := by
  cases nested with
  | opening _ outer within =>
    rw [append_assoc, cons_append]
    exact outer.append_balanced (.pair closed within .nil)

/-- With nothing left unclosed a nested word is balanced. -/
theorem Nested.complete (nested : Nested closes word []) : Balanced closes word := by
  cases nested with
  | balanced balanced => exact balanced

theorem Balanced.foldl_eq (balanced : Balanced closes word) (held : List α) : word.foldl pushOrPop held = held := by
  induction balanced generalizing held with
  | nil => rfl
  | pair _ _ _ within after =>
    rw [cons_append, foldl_cons, foldl_append, foldl_cons, within]
    exact after held

/-- The openings a nested word has to be closed are those it leaves unclosed. -/
theorem Nested.unclosed_eq (nested : Nested closes word stack) : unclosed word = stack := by
  induction nested with
  | balanced balanced => exact balanced.foldl_eq []
  | opening opening _ within ih =>
    unfold unclosed at ih ⊢
    rw [foldl_append, foldl_cons, ih]
    exact within.foldl_eq _

end Opaal.Machine
