import Mathlib.Data.List.Infix

/-!
# Borders of a pattern

How far a word ends like a pattern begins.  The longest such overlap of a longer word is found from
that of the word by falling back along a table of the overlaps of the pattern with itself.
-/

namespace Opaal.Text

open List

variable {α : Type} {pattern word : List α} {bound size : Nat} {letter : α}

/-- The longest beginning of the pattern, shorter than a bound, that ends the word. -/
structure Overlap (pattern word : List α) (bound size : Nat) : Prop where
  below : size < bound
  ends : pattern.take size <:+ word
  longest : ∀ other, size < other → other < bound → ¬pattern.take other <:+ word

/-- A beginning of the pattern that ends the word; no longer one is followed by the letter. -/
structure Candidate (pattern word : List α) (bound : Nat) (letter : α) (size : Nat) : Prop where
  below : size < bound
  ends : pattern.take size <:+ word
  tried : ∀ other, size < other → other < bound → pattern.take other <:+ word → pattern[other]? ≠ some letter

theorem Overlap.candidate (overlap : Overlap pattern word bound size) (letter : α) : Candidate pattern word bound letter size := by
  refine ⟨overlap.below, overlap.ends, ?_⟩
  intro other larger smaller ends
  exact absurd ends (overlap.longest other larger smaller)

theorem overlap_nil (positive : 0 < bound) (fits : bound ≤ pattern.length + 1) : Overlap pattern [] bound 0 := by
  refine ⟨positive, by simp, ?_⟩
  intro other larger smaller ends
  have size := ends.length_le
  rw [length_take, length_nil] at size
  omega

/-- The next shorter overlap is one of the pattern with itself. -/
theorem Candidate.shorter (candidate : Candidate pattern word bound letter size) (fits : bound ≤ pattern.length + 1)
    (different : pattern[size]? ≠ some letter) {less : Nat} (border : Overlap pattern (pattern.take size) size less) :
    Candidate pattern word bound letter less := by
  have below := border.below
  have inside := candidate.below
  refine ⟨by omega, border.ends.trans candidate.ends, ?_⟩
  intro other larger smaller ends
  rcases Nat.lt_trichotomy other size with shorter | rfl | longer
  · -- Both end the word, so the shorter one ends the longer one.
    have within : pattern.take other <:+ pattern.take size := by
      apply suffix_of_suffix_length_le ends candidate.ends
      rw [length_take, length_take]
      omega
    exact absurd within (border.longest other larger shorter)
  · exact different
  · exact candidate.tried other longer smaller ends

theorem suffix_concat_iff {front : List α} {last : α} : front ++ [last] <:+ word ++ [letter] ↔ front <:+ word ∧ last = letter := by
  constructor
  · rintro ⟨before, split⟩
    rw [← append_assoc] at split
    obtain ⟨same, ends⟩ := append_inj' split rfl
    exact ⟨⟨before, same⟩, by simpa using ends⟩
  · rintro ⟨⟨before, rfl⟩, rfl⟩
    exact ⟨before, by rw [append_assoc]⟩

/-- A longer beginning ends a longer word when it was an overlap and the letter follows. -/
theorem take_succ_suffix_iff {other : Nat} (inside : other < pattern.length) :
    pattern.take (other + 1) <:+ word ++ [letter] ↔ pattern.take other <:+ word ∧ pattern[other]? = some letter := by
  rw [take_succ_eq_append_getElem inside, suffix_concat_iff, List.getElem?_eq_getElem inside, Option.some.injEq]

theorem Candidate.extends (candidate : Candidate pattern word bound letter size) (fits : bound ≤ pattern.length)
    (follows : pattern[size]? = some letter) : Overlap pattern (word ++ [letter]) (bound + 1) (size + 1) := by
  have below := candidate.below
  refine ⟨by omega, (take_succ_suffix_iff (by omega)).mpr ⟨candidate.ends, follows⟩, ?_⟩
  intro other larger smaller ends
  obtain ⟨shorter, rfl⟩ : ∃ shorter, other = shorter + 1 := ⟨other - 1, by omega⟩
  obtain ⟨overlaps, next⟩ := (take_succ_suffix_iff (by omega)).mp ends
  exact candidate.tried shorter (by omega) (by omega) overlaps next

theorem Candidate.fails (candidate : Candidate pattern word bound letter 0) (fits : bound ≤ pattern.length)
    (different : pattern[0]? ≠ some letter) : Overlap pattern (word ++ [letter]) (bound + 1) 0 := by
  refine ⟨Nat.succ_pos _, by simp, ?_⟩
  intro other larger smaller ends
  obtain ⟨shorter, rfl⟩ : ∃ shorter, other = shorter + 1 := ⟨other - 1, by omega⟩
  obtain ⟨overlaps, next⟩ := (take_succ_suffix_iff (by omega)).mp ends
  rcases Nat.eq_zero_or_pos shorter with rfl | positive
  · exact different next
  · exact candidate.tried shorter positive (by omega) overlaps next

/-- The overlaps of the beginnings of a pattern with the pattern. -/
structure BorderTable (pattern : List α) (table : List Nat) (count : Nat) : Prop where
  size : table.length = count
  borders : ∀ place, place < count → ∃ border, table[place]? = some border ∧
    Overlap pattern (pattern.take (place + 1)) (place + 1) border

theorem BorderTable.one : BorderTable pattern [0] 1 := by
  refine ⟨rfl, ?_⟩
  intro place inside
  obtain rfl : place = 0 := by omega
  refine ⟨0, rfl, Nat.one_pos, by simp, ?_⟩
  intro other larger smaller
  omega

theorem BorderTable.push {table : List Nat} {count border : Nat} (known : BorderTable pattern table count)
    (overlap : Overlap pattern (pattern.take (count + 1)) (count + 1) border) : BorderTable pattern (table ++ [border]) (count + 1) := by
  have size := known.size
  refine ⟨by simp [size], ?_⟩
  intro place inside
  rcases Nat.lt_or_eq_of_le (Nat.le_of_lt_succ inside) with before | rfl
  · obtain ⟨found, listed, overlaps⟩ := known.borders place before
    refine ⟨found, ?_, overlaps⟩
    rw [List.getElem?_append_left (by omega), listed]
  · refine ⟨border, ?_, overlap⟩
    rw [List.getElem?_append_right (by omega), size, Nat.sub_self]
    rfl

/-- An overlap with the whole pattern allowed is an occurrence, or one that is shorter. -/
theorem Overlap.complete (overlap : Overlap pattern word (pattern.length + 1) pattern.length) : pattern <:+ word := by
  have ends := overlap.ends
  rwa [take_length] at ends

theorem Overlap.incomplete (overlap : Overlap pattern word (pattern.length + 1) size) (different : size ≠ pattern.length) :
    Overlap pattern word pattern.length size ∧ ¬pattern <:+ word := by
  have below := overlap.below
  refine ⟨⟨by omega, overlap.ends, fun other larger smaller => overlap.longest other larger (by omega)⟩, ?_⟩
  intro ends
  rw [← take_length (l := pattern)] at ends
  exact overlap.longest pattern.length (by omega) (Nat.lt_succ_self _) ends

end Opaal.Text
