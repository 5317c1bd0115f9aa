import Mathlib.Computability.Language
import Mathlib.Data.List.Forall2

/-!
# Words in pieces

A word is in a product of languages exactly when it can be divided into pieces, one in each
language.  A row tells of every prefix of a word whether it is in a language; the row of a product
is computed from the row of its first factor.
-/

namespace Opaal.Text

open List

variable {α : Type}

/-! ## Pieces -/

/-- The word consists of pieces, each in its language. -/
def InPieces (languages : List (Language α)) (word : List α) : Prop :=
  ∃ pieces : List (List α), List.Forall₂ (fun language piece => piece ∈ language) languages pieces ∧ pieces.flatten = word

theorem inPieces_nil (word : List α) : InPieces [] word ↔ word = [] := by
  constructor
  · rintro ⟨_, each, rfl⟩
    cases each
    rfl
  · rintro rfl
    exact ⟨[], .nil, rfl⟩

theorem inPieces_cons (language : Language α) (languages : List (Language α)) (word : List α) :
    InPieces (language :: languages) word ↔ ∃ piece ∈ language, ∃ rest, InPieces languages rest ∧ piece ++ rest = word := by
  constructor
  · rintro ⟨pieces, each, rfl⟩
    cases each with
    | cons first others => exact ⟨_, first, _, ⟨_, others, rfl⟩, rfl⟩
  · rintro ⟨piece, first, _, ⟨pieces, others, rfl⟩, rfl⟩
    exact ⟨piece :: pieces, .cons first others, rfl⟩

theorem mem_prod_iff (languages : List (Language α)) (word : List α) : word ∈ languages.prod ↔ InPieces languages word := by
  induction languages generalizing word with
  | nil => rw [prod_nil, Language.mem_one, inPieces_nil]
  | cons _ _ ih =>
    rw [prod_cons, Language.mem_mul, inPieces_cons]
    simp only [ih]

/-! ## Rows -/

/-- The words of one letter that passes a test. -/
def letters (test : α → Bool) : Language α := {word | ∃ letter, test letter = true ∧ word = [letter]}

theorem mem_letters (test : α → Bool) (word : List α) : word ∈ letters test ↔ ∃ letter, test letter = true ∧ word = [letter] :=
  Iff.rfl

/-- Place `i` of the row tells whether the first `i` letters of the word are in the language. -/
structure Row (word : List α) (language : Language α) (row : List Bool) : Prop where
  size : row.length = word.length + 1
  holds : ∀ place, place ≤ word.length → (row[place]? = some true ↔ word.take place ∈ language)

section Rows

variable {word : List α} {language : Language α} {row : List Bool}

theorem Row.start (word : List α) : Row word 1 (true :: List.replicate word.length false) := by
  refine ⟨by simp, ?_⟩
  intro place inside
  rw [Language.mem_one]
  cases place with
  | zero => simp
  | succ place =>
    have letter : word ≠ [] := ne_nil_of_length_pos (by omega)
    simp [List.getElem?_replicate, letter]

/-- One letter more. -/
theorem Row.letter (known : Row word language row) (test : α → Bool) :
    Row word (language * letters test) (false :: word.zipWith (fun letter reached => reached && test letter) row) := by
  have size := known.size
  refine ⟨by simp [size], ?_⟩
  intro place inside
  rw [Language.mem_mul]
  cases place with
  | zero =>
    constructor
    · intro impossible
      simp at impossible
    · rintro ⟨before, _, last, ⟨letter, _, rfl⟩, split⟩
      simp at split
  | succ place =>
    have prior := known.holds place (by omega)
    have here : word[place]? = some word[place] := List.getElem?_eq_getElem (by omega)
    have reached : row[place]? = some row[place] := List.getElem?_eq_getElem (by omega)
    have taken : word.take (place + 1) = word.take place ++ [word[place]] := take_succ_eq_append_getElem (by omega)
    rw [List.getElem?_cons_succ, List.getElem?_zipWith, here, reached]
    rw [reached, Option.some.injEq] at prior
    simp only [Option.some.injEq, Bool.and_eq_true, taken]
    constructor
    · rintro ⟨holds, passes⟩
      exact ⟨_, prior.mp holds, _, ⟨_, passes, rfl⟩, rfl⟩
    · rintro ⟨_, member, _, ⟨_, passes, rfl⟩, split⟩
      obtain ⟨rfl, same⟩ := append_inj' split rfl
      cases same
      exact ⟨prior.mpr member, passes⟩

/-- Any run of letters more. -/
theorem Row.run {next : List Bool} (known : Row word language row) (size : next.length = row.length)
    (earlier : ∀ place, place < row.length → (next[place]? = some true ↔ ∃ before ≤ place, row[before]? = some true)) :
    Row word (language * ⊤) next := by
  have full := known.size
  refine ⟨by rw [size, full], ?_⟩
  intro place inside
  rw [earlier place (by omega), Language.mem_mul]
  constructor
  · rintro ⟨before, smaller, holds⟩
    refine ⟨word.take before, (known.holds before (by omega)).mp holds, (word.take place).drop before, trivial, ?_⟩
    have front : (word.take place).take before = word.take before := by rw [take_take, Nat.min_eq_left smaller]
    rw [← front, take_append_drop]
  · rintro ⟨front, member, back, _, split⟩
    have bound := congrArg List.length split
    rw [length_append, length_take] at bound
    have same : word.take front.length = front := by
      have taken := congrArg (List.take front.length) split
      rw [take_left, take_take, Nat.min_eq_left (by omega)] at taken
      exact taken.symm
    refine ⟨front.length, by omega, (known.holds front.length (by omega)).mpr ?_⟩
    rw [same]
    exact member

/-- The last place is about the whole word. -/
theorem Row.last (known : Row word language row) : row.getLast?.getD false = true ↔ word ∈ language := by
  have size := known.size
  have whole := known.holds word.length (Nat.le_refl _)
  rw [take_length] at whole
  rw [← whole, List.getLast?_eq_getElem?, size, Nat.add_sub_cancel]
  cases row[word.length]? with
  | none | some => simp

end Rows

end Opaal.Text
