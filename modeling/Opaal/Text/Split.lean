import Mathlib.Data.List.Basic

/-!
# Splitting text

The first and the last occurrence of a separator, and the parts between all of them.
-/

namespace Opaal.Text

open List

variable {pattern text front back : List Char} {separator : Char}

/-- `str::split_once` with a pattern of some length -/
def splitOnce (pattern : List Char) : List Char → Option (List Char × List Char)
  | [] => none
  | character :: text =>
    match pattern.isPrefixOf? (character :: text) with
    | some back => some ([], back)
    | none => (splitOnce pattern text).map fun (front, back) => (character :: front, back)

/-- `str::rsplit_once` -/
def rsplitOnce (separator : Char) : List Char → Option (List Char × List Char)
  | [] => none
  | character :: text =>
    match rsplitOnce separator text with
    | some (front, back) => some (character :: front, back)
    | none => if character = separator then some ([], text) else none

theorem isPrefixOf?_eq_some : pattern.isPrefixOf? text = some back ↔ text = pattern ++ back := by
  induction pattern generalizing text with
  | nil =>
    simp only [List.isPrefixOf?, nil_append, Option.some.injEq]
  | cons _ _ ih =>
    cases text with
    | nil => simp [List.isPrefixOf?]
    | cons =>
      unfold List.isPrefixOf?
      rw [cons_append, List.cons.injEq]
      split
      · next same =>
        rw [ih]
        constructor
        · exact fun rest => ⟨(eq_of_beq same).symm, rest⟩
        · exact fun both => both.2
      · next different =>
        constructor
        · intro none
          cases none
        · rintro ⟨same, _⟩
          exact absurd (beq_iff_eq.mpr same.symm) different

theorem splitOnce_eq (split : splitOnce pattern text = some (front, back)) : text = front ++ (pattern ++ back) := by
  induction text generalizing front with
  | nil => cases split
  | cons character text ih =>
    unfold splitOnce at split
    cases start : pattern.isPrefixOf? (character :: text) with
    | some =>
      rw [start] at split
      cases split
      rw [nil_append]
      exact isPrefixOf?_eq_some.mp start
    | none =>
      rw [start] at split
      obtain ⟨_, later, same⟩ := Option.map_eq_some_iff.mp split
      cases same
      rw [cons_append, ← ih later]

/-- A single separator is found at its first occurrence. -/
theorem splitOnce_first (split : splitOnce [separator] text = some (front, back)) : separator ∉ front := by
  induction text generalizing front with
  | nil => cases split
  | cons character text ih =>
    unfold splitOnce at split
    cases start : [separator].isPrefixOf? (character :: text) with
    | some =>
      rw [start] at split
      cases split
      exact not_mem_nil
    | none =>
      rw [start] at split
      obtain ⟨_, later, split⟩ := Option.map_eq_some_iff.mp split
      cases split
      have different : separator ≠ character := by
        rintro rfl
        simp [List.isPrefixOf?] at start
      intro member
      rcases mem_cons.mp member with same | inside
      · exact different same
      · exact ih later inside

theorem rsplitOnce_eq_none : rsplitOnce separator text = none ↔ separator ∉ text := by
  induction text with
  | nil => simp [rsplitOnce]
  | cons _ text ih =>
    unfold rsplitOnce
    rw [mem_cons, not_or, ← ih]
    cases later : rsplitOnce separator text with
    | some => simp
    | none =>
      dsimp only
      split
      · next same => simp [same]
      · next different => simp [Ne.symm different]

theorem rsplitOnce_append (front : List Char) (last : separator ∉ back) :
    rsplitOnce separator (front ++ separator :: back) = some (front, back) := by
  induction front with
  | nil =>
    rw [nil_append]
    unfold rsplitOnce
    rw [rsplitOnce_eq_none.mpr last]
    exact if_pos rfl
  | cons _ _ ih =>
    rw [cons_append]
    unfold rsplitOnce
    rw [ih]

/-- A part has no separator in it and nothing that was not in the text. -/
theorem mem_splitOn {part : List Char} (member : part ∈ text.splitOn separator) :
    ∀ character ∈ part, character ∈ text ∧ character ≠ separator := by
  induction text generalizing part with
  | nil =>
    rw [splitOn_nil, mem_singleton] at member
    subst member
    intro character none
    cases none
  | cons first text ih =>
    rw [splitOn_cons_eq_if_modifyHead] at member
    split at member
    · rcases mem_cons.mp member with rfl | later
      · intro character none
        cases none
      · intro character held
        have inside := ih later character held
        exact ⟨mem_cons_of_mem _ inside.1, inside.2⟩
    · next different =>
      have other : first ≠ separator := fun same => different (beq_iff_eq.mpr same)
      cases parts : text.splitOn separator with
      | nil => exact absurd parts (splitOn_ne_nil separator text)
      | cons =>
        rw [parts, modifyHead_cons] at member
        rcases mem_cons.mp member with rfl | later
        · intro character held
          rcases mem_cons.mp held with rfl | inside
          · exact ⟨mem_cons_self, other⟩
          · have found := ih (parts ▸ mem_cons_self) character inside
            exact ⟨mem_cons_of_mem _ found.1, found.2⟩
        · intro character held
          have found := ih (parts ▸ mem_cons_of_mem _ later) character held
          exact ⟨mem_cons_of_mem _ found.1, found.2⟩

/-- Everything but the separators is in some part. -/
theorem exists_splitOn {character : Char} (member : character ∈ text) (different : character ≠ separator) :
    ∃ part ∈ text.splitOn separator, character ∈ part := by
  induction text with
  | nil => cases member
  | cons _ text ih =>
    rw [splitOn_cons_eq_if_modifyHead]
    split
    · next same =>
      rcases mem_cons.mp member with rfl | later
      · exact absurd (eq_of_beq same) different
      · obtain ⟨part, held, inside⟩ := ih later
        exact ⟨part, mem_cons_of_mem _ held, inside⟩
    · cases parts : text.splitOn separator with
      | nil => exact absurd parts (splitOn_ne_nil separator text)
      | cons =>
        rw [modifyHead_cons]
        rcases mem_cons.mp member with rfl | later
        · exact ⟨_, mem_cons_self, mem_cons_self⟩
        · obtain ⟨part, held, inside⟩ := ih later
          rw [parts] at held
          rcases mem_cons.mp held with rfl | other
          · exact ⟨_, mem_cons_self, mem_cons_of_mem _ inside⟩
          · exact ⟨part, mem_cons_of_mem _ other, inside⟩

end Opaal.Text
