import Mathlib.Data.List.Basic
import Mathlib.Tactic.Linarith

/-!
# Replacing occurrences by a marker

A left-to-right pass puts a marker in place of every needle it meets and copies
markers that are already there.  A text is clean when its needles only occur inside
markers.  With a marker that cannot overlap itself, the pass leaves every clean text
as it is.
-/

namespace Opaal.Text

open List

section Occurrences

variable {α : Type}

def OccursAt (needle text : List α) (start : Nat) : Prop := needle <+: text.drop start

/-- The `length` elements from `start` on lie inside one marker of the text. -/
def InMarker (marker text : List α) (start length : Nat) : Prop :=
  ∃ first, first ≤ start ∧ OccursAt marker text first ∧ start + length ≤ first + marker.length

def Clean (marker : List α) (needles : List (List α)) (text : List α) : Prop :=
  ∀ needle ∈ needles, ∀ start, OccursAt needle text start → InMarker marker text start needle.length

/-- No end of the marker is a beginning of it. -/
def Unbordered (marker : List α) : Prop :=
  ∀ cut, 0 < cut → cut < marker.length → ¬marker.drop cut <+: marker

theorem OccursAt.fits {needle text : List α} {start : Nat} (nonempty : needle ≠ [])
    (occurs : OccursAt needle text start) : start + needle.length ≤ text.length := by
  have short := occurs.length_le
  have positive := length_pos_iff.mpr nonempty
  rw [length_drop] at short
  omega

/-- The marker on its own is clean. -/
theorem clean_marker (marker : List α) {needles : List (List α)} (nonempty : ∀ needle ∈ needles, needle ≠ []) :
    Clean marker needles marker := by
  intro needle member start occurs
  have fits := occurs.fits (nonempty needle member)
  exact ⟨0, Nat.zero_le start, prefix_rfl, by omega⟩

/-- Two markers of one text do not overlap. -/
theorem Unbordered.apart {marker text : List α} (unbordered : Unbordered marker) {first second : Nat}
    (here : OccursAt marker text first) (there : OccursAt marker text second) (later : first < second) :
    first + marker.length ≤ second := by
  by_contra overlap
  have cut : second - first < marker.length := by omega
  apply unbordered (second - first) (by omega) cut
  have shifted : marker.drop (second - first) <+: text.drop second := by
    obtain ⟨rest, split⟩ := here
    have position : first + (second - first) = second := by omega
    refine ⟨rest, ?_⟩
    rw [← position, ← drop_drop, ← split, drop_append_of_le_length (Nat.le_of_lt cut), position]
  apply prefix_of_prefix_length_le shifted there
  rw [length_drop]
  omega

/-- Whether an offset is past the start of a marker but not past its end. -/
def Inside (marker text : List α) (offset : Nat) : Prop :=
  ∃ first, OccursAt marker text first ∧ first < offset ∧ offset < first + marker.length

/-- A needle of a clean text that does not start inside a marker starts with a marker and
fits into it. -/
theorem Clean.starts_marker {marker text : List α} {needles : List (List α)} (clean : Clean marker needles text) {needle : List α} {offset : Nat}
    (member : needle ∈ needles) (nonempty : needle ≠ []) (outside : ¬Inside marker text offset)
    (occurs : OccursAt needle text offset) : OccursAt marker text offset ∧ needle.length ≤ marker.length := by
  obtain ⟨first, notAfter, marked, fits⟩ := clean needle member offset occurs
  have positive := length_pos_iff.mpr nonempty
  rcases Nat.lt_or_eq_of_le notAfter with before | same
  · exact absurd ⟨first, marked, before, by omega⟩ outside
  · subst same
    exact ⟨marked, by omega⟩

end Occurrences

section Marking

variable {α : Type} [DecidableEq α] {marker : List α} {needles : List (List α)} {text : List α}

/-- The first needle, in the order given, that the text starts with. -/
def nextNeedle (needles : List (List α)) (text : List α) : Option (List α) :=
  needles.find? fun needle => needle.isPrefixOf text

/-- One pass from the left; the first `skip` elements are covered by a marker already. -/
def markFrom (marker : List α) (needles : List (List α)) : Nat → List α → List α
  | _, [] => []
  | skip + 1, _ :: rest => markFrom marker needles skip rest
  | 0, c :: rest =>
    let found := nextNeedle needles (c :: rest)
    if marker.isPrefixOf (c :: rest) && found.all (fun needle => needle.length ≤ marker.length) then
      marker ++ markFrom marker needles (marker.length - 1) rest
    else
      match found with
      | some needle => marker ++ markFrom marker needles (needle.length - 1) rest
      | none => c :: markFrom marker needles 0 rest

def mark (marker : List α) (needles : List (List α)) (text : List α) : List α := markFrom marker needles 0 text

theorem markFrom_eq (skip : Nat) (text : List α) :
    markFrom marker needles skip text = mark marker needles (text.drop skip) := by
  induction text generalizing skip with
  | nil =>
    rw [drop_nil]
    cases skip <;> rfl
  | cons c rest ih =>
    cases skip with
    | zero => rfl
    | succ skip =>
      rw [markFrom, ih, drop_succ_cons]

theorem nextNeedle_some {needle : List α} (found : nextNeedle needles text = some needle) :
    needle ∈ needles ∧ needle <+: text := by
  refine ⟨mem_of_find?_eq_some found, ?_⟩
  have starts := List.find?_some found
  exact isPrefixOf_iff_prefix.mp starts

/-! ### The three moves of a pass -/

/-- A marker in the text is copied unless a longer needle starts with it. -/
theorem mark_marker (nonempty : marker ≠ []) (starts : marker <+: text)
    (short : ∀ needle, nextNeedle needles text = some needle → needle.length ≤ marker.length) :
    mark marker needles text = marker ++ mark marker needles (text.drop marker.length) := by
  cases text with
  | nil => exact absurd (prefix_nil.mp starts) nonempty
  | cons c rest =>
    have copied : (marker.isPrefixOf (c :: rest) &&
        (nextNeedle needles (c :: rest)).all (fun needle => needle.length ≤ marker.length)) = true := by
      rw [Bool.and_eq_true]
      refine ⟨List.isPrefixOf_iff_prefix.mpr starts, ?_⟩
      cases found : nextNeedle needles (c :: rest) with
      | none => rfl
      | some needle => simpa using short needle found
    unfold mark
    rw [markFrom]
    simp only [copied, ↓reduceIte]
    rw [markFrom_eq]
    obtain ⟨size, successor⟩ := Nat.exists_eq_succ_of_ne_zero (mt length_eq_zero_iff.mp nonempty)
    rw [successor]
    rfl

theorem mark_needle {needle : List α} (nonempty : needle ≠ []) (found : nextNeedle needles text = some needle)
    (uncopied : ¬(marker <+: text ∧ needle.length ≤ marker.length)) :
    mark marker needles text = marker ++ mark marker needles (text.drop needle.length) := by
  cases text with
  | nil =>
    have starts := (nextNeedle_some found).2
    exact absurd (prefix_nil.mp starts) nonempty
  | cons c rest =>
    have replaced : (marker.isPrefixOf (c :: rest) &&
        (nextNeedle needles (c :: rest)).all (fun needle => needle.length ≤ marker.length)) = false := by
      rw [found, Bool.eq_false_iff]
      intro copied
      rw [Bool.and_eq_true] at copied
      exact uncopied ⟨List.isPrefixOf_iff_prefix.mp copied.1, by simpa using copied.2⟩
    unfold mark
    rw [markFrom]
    simp only [replaced]
    rw [found]
    simp only [Bool.false_eq_true, ↓reduceIte]
    rw [markFrom_eq]
    obtain ⟨size, successor⟩ := Nat.exists_eq_succ_of_ne_zero (mt length_eq_zero_iff.mp nonempty)
    rw [successor]
    rfl

theorem mark_plain {c : α} {rest : List α} (missing : nextNeedle needles (c :: rest) = none)
    (unmarked : ¬marker <+: c :: rest) :
    mark marker needles (c :: rest) = c :: mark marker needles rest := by
  unfold mark
  rw [markFrom]
  have different : marker.isPrefixOf (c :: rest) = false := by
    rw [Bool.eq_false_iff]
    intro starts
    exact unmarked (List.isPrefixOf_iff_prefix.mp starts)
  simp only [different, missing]
  rfl

/-! ### Texts a pass leaves alone -/

/-- A text without needles. -/
theorem mark_absent (nonempty : marker ≠ [])
    (absent : ∀ needle ∈ needles, ∀ start, ¬OccursAt needle text start) : mark marker needles text = text := by
  induction length : text.length using Nat.strong_induction_on generalizing text with
  | _ size ih =>
    subst length
    have missing : nextNeedle needles text = none := by
      cases found : nextNeedle needles text with
      | none => rfl
      | some needle =>
        obtain ⟨member, starts⟩ := nextNeedle_some found
        exact absurd starts (absent needle member 0)
    have later : ∀ skip, ∀ needle ∈ needles, ∀ start, ¬OccursAt needle (text.drop skip) start := by
      intro skip needle member start occurs
      unfold OccursAt at occurs
      rw [drop_drop] at occurs
      exact absent needle member _ occurs
    by_cases starts : marker <+: text
    · have short : ∀ needle, nextNeedle needles text = some needle → needle.length ≤ marker.length := by
        intro needle found
        rw [missing] at found
        contradiction
      rw [mark_marker nonempty starts short, ih _ _ (later _) rfl]
      · obtain ⟨rest, rfl⟩ := starts
        rw [drop_left]
      · have positive := length_pos_iff.mpr nonempty
        have fits := starts.length_le
        rw [length_drop]
        omega
    · cases text with
      | nil => rfl
      | cons c rest =>
        have fixed := ih rest.length (by simp) (later 1) rfl
        rw [drop_one, tail_cons] at fixed
        rw [mark_plain missing starts, fixed]

section

variable (unbordered : Unbordered marker) (nonempty : marker ≠ []) (needlesNonempty : ∀ needle ∈ needles, needle ≠ [])
  (clean : Clean marker needles text)
include unbordered nonempty needlesNonempty clean

/-- A clean text: the pass only ever stops outside markers, so it never meets a needle
that it would replace. -/
theorem mark_clean_from {offset : Nat} (outside : ¬Inside marker text offset) : mark marker needles (text.drop offset) = text.drop offset := by
  induction left : (text.drop offset).length using Nat.strong_induction_on generalizing offset with
  | _ size ih =>
    subst left
    have positive := length_pos_iff.mpr nonempty
    by_cases starts : marker <+: text.drop offset
    · have short : ∀ needle, nextNeedle needles (text.drop offset) = some needle →
          needle.length ≤ marker.length := by
        intro needle found
        obtain ⟨member, occurs⟩ := nextNeedle_some found
        exact (clean.starts_marker member (needlesNonempty needle member) outside occurs).2
      have next : ¬Inside marker text (offset + marker.length) := by
        rintro ⟨first, marked, before, after⟩
        rcases Nat.lt_trichotomy first offset with earlier | same | later
        · exact outside ⟨first, marked, earlier, by omega⟩
        · omega
        · have apart := unbordered.apart starts marked later
          omega
      have fits := starts.length_le
      rw [mark_marker nonempty starts short, drop_drop, ih _ _ next rfl]
      · obtain ⟨rest, split⟩ := starts
        rw [← drop_drop, ← split, drop_left]
      · rw [length_drop] at fits ⊢
        rw [length_drop]
        omega
    · have missing : nextNeedle needles (text.drop offset) = none := by
        cases found : nextNeedle needles (text.drop offset) with
        | none => rfl
        | some needle =>
          obtain ⟨member, occurs⟩ := nextNeedle_some found
          exact absurd (clean.starts_marker member (needlesNonempty needle member) outside occurs).1 starts
      have next : ¬Inside marker text (offset + 1) := by
        rintro ⟨first, marked, before, after⟩
        rcases Nat.lt_or_eq_of_le (Nat.le_of_lt_succ before) with earlier | same
        · exact outside ⟨first, marked, earlier, by omega⟩
        · subst same
          exact starts marked
      cases rest : text.drop offset with
      | nil => rfl
      | cons c tail =>
        have tailEq : text.drop (offset + 1) = tail := by
          rw [← drop_drop, rest]
          rfl
        rw [rest] at missing starts
        rw [mark_plain missing starts]
        congr 1
        rw [← tailEq]
        apply ih _ _ next rfl
        rw [tailEq, rest]
        simp

theorem mark_clean :
    mark marker needles text = text := by
  have outside : ¬Inside marker text 0 := by
    rintro ⟨first, _, before, _⟩
    omega
  have fixed := mark_clean_from unbordered nonempty needlesNonempty clean outside
  exact fixed

end

end Marking

end Opaal.Text
