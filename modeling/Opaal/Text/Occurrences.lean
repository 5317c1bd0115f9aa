import Mathlib.Data.List.Infix
import Opaal.Text.Decode

/-!
# Occurrences of a pattern

The leftmost occurrences of a pattern that do not overlap, and the parts of a text between them.
Occurrences in a text are the same as those in its encoding.
-/

namespace Opaal.Text

open List

section First

variable {α : Type} {pattern text front back : List α}

/-- The pattern occurs behind `front`, and nowhere earlier. -/
structure First (pattern text front back : List α) : Prop where
  split : text = front ++ (pattern ++ back)
  earliest : ∀ front' back', text = front' ++ (pattern ++ back') → front.length ≤ front'.length

theorem First.unique {front' back' : List α} (first : First pattern text front back) (first' : First pattern text front' back') :
    front = front' ∧ back = back' := by
  have same := first.split
  rw [first'.split] at same
  have sizes := Nat.le_antisymm (first.earliest _ _ first'.split) (first'.earliest _ _ first.split)
  obtain ⟨fronts, rest⟩ := append_inj same sizes.symm
  exact ⟨fronts.symm, (append_cancel_left rest).symm⟩

/-- The occurrences of a pattern from an offset on, each as far to the left as it can be behind the one before it. -/
inductive Leftmost (pattern : List α) : Nat → List α → List Nat → Prop where
  | none {offset : Nat} {text : List α} (absent : ¬pattern <:+: text) : Leftmost pattern offset text []
  | some {offset : Nat} {text front back : List α} {more : List Nat} (first : First pattern text front back)
      (others : Leftmost pattern (offset + front.length + pattern.length) back more) :
      Leftmost pattern offset text ((offset + front.length) :: more)

variable [DecidableEq α]

/-- What is before and behind the first occurrence. -/
def breakOn (pattern : List α) : List α → Option (List α × List α)
  | [] => if pattern = [] then some ([], []) else none
  | letter :: text =>
    if pattern.isPrefixOf (letter :: text) then some ([], (letter :: text).drop pattern.length)
    else (breakOn pattern text).map fun (front, back) => (letter :: front, back)

theorem breakOn_some (found : breakOn pattern text = some (front, back)) : First pattern text front back := by
  induction text generalizing front with
  | nil =>
    unfold breakOn at found
    split_ifs at found with empty
    cases found
    exact ⟨by rw [empty]; rfl, fun _ _ _ => Nat.zero_le _⟩
  | cons _ _ ih =>
    unfold breakOn at found
    split_ifs at found with starts
    · cases found
      obtain ⟨rest, split⟩ := isPrefixOf_iff_prefix.mp starts
      refine ⟨?_, fun _ _ _ => Nat.zero_le _⟩
      rw [← split, drop_left]
      rfl
    · obtain ⟨⟨_, _⟩, later, same⟩ := Option.map_eq_some_iff.mp found
      cases same
      have first := ih later
      refine ⟨by rw [first.split]; rfl, ?_⟩
      intro other rest split
      cases other with
      | nil =>
        exact absurd (List.isPrefixOf_iff_prefix.mpr ⟨rest, split.symm⟩) starts
      | cons _ other =>
        rw [cons_append, List.cons.injEq] at split
        exact Nat.succ_le_succ (first.earliest other rest split.2)

theorem breakOn_none : breakOn pattern text = none ↔ ¬pattern <:+: text := by
  induction text with
  | nil =>
    unfold breakOn
    split_ifs with empty <;> simp [empty]
  | cons letter text ih =>
    unfold breakOn
    rw [infix_cons_iff, not_or, ← ih]
    split_ifs with starts
    · have here := isPrefixOf_iff_prefix.mp starts
      simp [here]
    · have here : ¬pattern <+: letter :: text := fun prefixed => starts (List.isPrefixOf_iff_prefix.mpr prefixed)
      simp [here]

/-- The parts of a text between the occurrences. -/
def splitBy (pattern text : List α) : List (List α) :=
  if pattern = [] then [text]
  else
    match _found : breakOn pattern text with
    | none => [text]
    | some (front, back) => front :: splitBy pattern back
termination_by text.length
decreasing_by
  rename_i nonempty
  have positive := length_pos_iff.mpr nonempty
  have sizes := congrArg List.length (breakOn_some _found).split
  rw [length_append, length_append] at sizes
  omega

theorem splitBy_absent (absent : ¬pattern <:+: text) : splitBy pattern text = [text] := by
  rw [splitBy]
  split_ifs
  · rfl
  · split
    · rfl
    · next found =>
      rw [breakOn_none.mpr absent] at found
      cases found

theorem splitBy_first (nonempty : pattern ≠ []) (first : First pattern text front back) :
    splitBy pattern text = front :: splitBy pattern back := by
  rw [splitBy, if_neg nonempty]
  split
  · next missing => exact absurd ⟨front, back, by rw [append_assoc]; exact first.split.symm⟩ (breakOn_none.mp missing)
  · next front' back' found =>
    obtain ⟨rfl, rfl⟩ := (breakOn_some found).unique first
    rfl

theorem exists_first (present : pattern <:+: text) : ∃ front back, First pattern text front back := by
  cases found : breakOn pattern text with
  | none => exact absurd present (breakOn_none.mp found)
  | some parts => exact ⟨parts.1, parts.2, breakOn_some found⟩

theorem splitBy_ne_nil (pattern text : List α) : splitBy pattern text ≠ [] := by
  rw [splitBy]
  split_ifs
  · exact cons_ne_nil _ _
  · split <;> exact cons_ne_nil _ _

/-- Joining the parts with the pattern gives the text back. -/
theorem intercalate_splitBy (pattern text : List α) : pattern.intercalate (splitBy pattern text) = text := by
  by_cases empty : pattern = []
  · rw [splitBy, if_pos empty]
    simp [List.intercalate]
  · generalize size : text.length = bound
    induction bound using Nat.strong_induction_on generalizing text with
    | _ bound ih =>
      by_cases present : pattern <:+: text
      · obtain ⟨front, back, first⟩ := exists_first present
        have positive := length_pos_iff.mpr empty
        have sizes := congrArg List.length first.split
        rw [length_append, length_append] at sizes
        have rest := ih back.length (by omega) back rfl
        rw [splitBy_first empty first, first.split]
        obtain ⟨_, _, shape⟩ := exists_cons_of_ne_nil (splitBy_ne_nil pattern back)
        rw [shape] at rest ⊢
        rw [← rest]
        simp [List.intercalate, List.intersperse]
      · rw [splitBy_absent present]
        simp [List.intercalate]

end First

/-! ## Encoded text -/

section Encoded

variable {pattern text : List Char}

/-- A pattern occurs in encoded text between scalars only. -/
theorem bytes_split (nonempty : pattern ≠ []) {front back : List UInt8} (split : bytes text = front ++ (bytes pattern ++ back)) :
    ∃ before behind, text = before ++ (pattern ++ behind) ∧ front = bytes before ∧ back = bytes behind := by
  induction text generalizing front with
  | nil =>
    have none := (append_eq_nil_iff.mp split.symm).2
    exact absurd (append_eq_nil_iff.mp none).1 (bytes_ne_nil nonempty)
  | cons c _ ih =>
    cases front with
    | nil =>
      obtain ⟨behind, whole⟩ := bytes_prefix_iff.mp ⟨back, split.symm⟩
      rw [← whole, bytes_append] at split
      exact ⟨[], behind, whole.symm, rfl, (append_cancel_left split).symm⟩
    | cons byte =>
      rcases append_eq_append_iff.mp split with ⟨inside, frontEq, rest⟩ | ⟨inside, scalarEq, rest⟩
      · obtain ⟨before, behind, whole, sameFront, sameBack⟩ := ih rest
        refine ⟨c :: before, behind, by rw [whole]; rfl, ?_, sameBack⟩
        rw [frontEq, sameFront, bytes_cons]
      · cases inside with
        | nil =>
          rw [append_nil] at scalarEq
          obtain ⟨before, behind, whole, sameFront, sameBack⟩ := @ih [] rest.symm
          refine ⟨c :: before, behind, by rw [whole]; rfl, ?_, sameBack⟩
          rw [← scalarEq, bytes_cons, ← sameFront, append_nil]
        | cons inner =>
          -- The scalar goes on past the start of the pattern, so that starts with a continuation byte.
          obtain ⟨_, continuations, shape, _, each⟩ := utf8EncodeChar_shape c
          have member : inner ∈ continuations := by
            rw [shape, cons_append, List.cons.injEq] at scalarEq
            rw [scalarEq.2]
            simp
          exact absurd ⟨back, rest⟩ (not_prefix_of_continuation nonempty (each inner member))

theorem bytes_infix_iff (nonempty : pattern ≠ []) : bytes pattern <:+: bytes text ↔ pattern <:+: text := by
  constructor
  · rintro ⟨_, _, split⟩
    rw [append_assoc] at split
    obtain ⟨before, behind, whole, _, _⟩ := bytes_split nonempty split.symm
    exact ⟨before, behind, by rw [append_assoc, whole]⟩
  · rintro ⟨before, behind, rfl⟩
    exact ⟨bytes before, bytes behind, by rw [bytes_append, bytes_append]⟩

theorem First.decoded (nonempty : pattern ≠ []) {front back : List UInt8} (first : First (bytes pattern) (bytes text) front back) :
    ∃ before behind, First pattern text before behind ∧ front = bytes before ∧ back = bytes behind := by
  obtain ⟨before, behind, whole, sameFront, sameBack⟩ := bytes_split nonempty first.split
  refine ⟨before, behind, ⟨whole, ?_⟩, sameFront, sameBack⟩
  intro before' behind' whole'
  have earliest := first.earliest (bytes before') (bytes behind') (by rw [whole', bytes_append, bytes_append])
  rw [sameFront, bytes_length, bytes_length] at earliest
  by_contra shorter
  have starts : before' <+: before := by
    apply prefix_of_prefix_length_le ⟨pattern ++ behind', whole'.symm⟩ ⟨pattern ++ behind, whole.symm⟩
    omega
  obtain ⟨extra, rfl⟩ := starts
  have none : width extra = 0 := by
    rw [width_append] at earliest
    omega
  rw [width_eq_zero.mp none, append_nil] at shorter
  exact shorter (Nat.le_refl _)

end Encoded

end Opaal.Text
