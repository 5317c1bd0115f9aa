import Opaal.Runtime.Evaluation
import Opaal.Text.Borders
import Opaal.Text.Occurrences

/-!
# Literal search

A search for a pattern reads every byte once and falls back along a table of the pattern's borders.
It goes on from where it stopped, so that repeating it gives the occurrences from the left that do
not overlap.
-/

namespace Opaal.Runtime

open Opaal.Machine List
open Opaal.Syntax (Span)
open Opaal.Text
open Evaluation

/-! ## The search -/

/-- What is left of a unit of work that was polled and charged for. -/
structure ScanWork where
  remaining : Nat

def ScanWork.visit (span : Span) : Nat → ScanWork → EvalM ScanWork
  | 0, work => return work
  | bytes + 1, work => do
    if work.remaining = 0 then
      Evaluation.visit span
      ScanWork.visit span bytes ⟨chunkSize - 1⟩
    else ScanWork.visit span bytes ⟨work.remaining - 1⟩

def index {α : Type} (items : List α) (position : Nat) : EvalM α := lifted (ListOperations.index items position)

section Search

variable (span : Span) (pattern : List UInt8) (table : List Nat) (byte : UInt8)

/-- Falls back once, or extends what is matched by the byte when it can. -/
def fallBackTurn (progress : Nat × ScanWork) : EvalM (Turn (Nat × ScanWork) (Nat × ScanWork)) := do
  let (matched, work) := progress
  let expected ← index pattern matched
  if 0 < matched ∧ byte ≠ expected then
    let work ← work.visit span 1
    return .again (← index table (matched - 1), work)
  else if byte = expected then return .done (matched + 1, work)
  else return .done (matched, work)

def extendMatch (matched : Nat) (work : ScanWork) : EvalM (Nat × ScanWork) :=
  repeatFrom .unbounded (fallBackTurn span pattern table byte) (pattern.length + 1) (matched, work)

/-- The table for the rest of the pattern. -/
def extendTable : List UInt8 → List Nat → Nat → ScanWork → EvalM (List Nat × ScanWork)
  | [], table, _, work => return (table, work)
  | byte :: rest, table, matched, work => do
    let work ← work.visit span 1
    let (matched, work) ← extendMatch span pattern table byte matched work
    extendTable rest (table ++ [matched]) matched work

end Search

/-- A search that goes on from where it stopped. -/
structure LiteralSearch where
  pattern : List UInt8
  table : List Nat
  cursor : Nat
  matched : Nat
  work : ScanWork

namespace LiteralSearch

variable (span : Span)

def new (pattern : List UInt8) : EvalM LiteralSearch := do
  checkCancel span
  lifted (ListOperations.retainElements pattern.length 8 span)
  let work ← ScanWork.visit span 1 ⟨0⟩
  let (table, work) ← extendTable span pattern pattern.tail [0] 0 work
  return { pattern, table, cursor := 0, matched := 0, work }

/-- One byte of the input. -/
def nextTurn (input : List UInt8) (search : LiteralSearch) :
    EvalM (Turn LiteralSearch (Option Nat × LiteralSearch)) := do
  if search.cursor < input.length then
    let work ← search.work.visit span 1
    let byte ← index input search.cursor
    let (matched, work) ← extendMatch span search.pattern search.table byte search.matched work
    let cursor := search.cursor + 1
    -- A search starts again behind a match, so matches never overlap.
    if matched = search.pattern.length then
      return .done (some (cursor - search.pattern.length), { search with cursor, matched := 0, work })
    else return .again { search with cursor, matched, work }
  else return .done (none, search)

def next (input : List UInt8) (search : LiteralSearch) : EvalM (Option Nat × LiteralSearch) :=
  repeatFrom .unbounded (nextTurn span input) (input.length + 1) search

end LiteralSearch

/-! ## Falling back -/

section Rules

variable {input : ListOperations.ListInput} {state : ListOperations.ListState} {free : Prop} {length : Nat} {refused : String → String → Prop}
  {span : Span} {pattern word : List UInt8} {table : List Nat} {byte : UInt8} {count matched : Nat} {work : ScanWork}

theorem ScanWork.visit_runs (bytes : Nat) :
    Runs (evaluation input free length refused) (work.visit span bytes) input state fun _ _ => True := by
  induction bytes generalizing work state with
  | zero => exact Runs.pure trivial
  | succ _ ih =>
    unfold ScanWork.visit
    split
    · exact Evaluation.visited fun after => ih
    · exact ih

theorem index_runs {α : Type} {items : List α} {position : Nat} {item : α} (found : items[position]? = some item) :
    Runs (evaluation input free length refused) (index items position) input state fun value _ => value = item :=
  Evaluation.lifted_runs (ListOperations.index_runs found)

/-- Falling back keeps to the overlaps that are followed by nothing longer, and ends with the longest one of the longer word. -/
theorem fallBackTurn_runs (known : BorderTable pattern table count) (fits : count ≤ pattern.length)
    (candidate : Candidate pattern word count byte matched) :
    Runs (evaluation input free length refused) (fallBackTurn span pattern table byte (matched, work)) input state fun turn _ =>
      turn.Lowers (fun progress => Candidate pattern word count byte progress.1) (fun progress => progress.1)
        (fun result => Overlap pattern (word ++ [byte]) (count + 1) result.1) (matched, work) := by
  have below := candidate.below
  have inside : matched < pattern.length := by omega
  have expected : pattern[matched]? = some pattern[matched] := List.getElem?_eq_getElem inside
  refine (index_runs expected).bind ?_
  rintro _ after _ rfl
  by_cases falls : 0 < matched ∧ byte ≠ pattern[matched]
  · rw [if_pos falls]
    refine (ScanWork.visit_runs 1).bind ?_
    intro work' _ _ _
    obtain ⟨border, listed, overlap⟩ := known.borders (matched - 1) (by omega)
    rw [Nat.sub_add_cancel falls.1] at overlap
    refine (index_runs listed).bind ?_
    rintro _ _ _ rfl
    have different : pattern[matched]? ≠ some byte := by
      rw [expected, ne_eq, Option.some.injEq]
      exact falls.2.symm
    exact Runs.pure ⟨candidate.shorter (by omega) different overlap, overlap.below⟩
  · rw [if_neg falls]
    by_cases equal : byte = pattern[matched]
    · rw [if_pos equal]
      exact Runs.pure (candidate.extends fits (by rw [expected, equal]))
    · rw [if_neg equal]
      obtain rfl : matched = 0 := by
        by_contra positive
        exact falls ⟨Nat.pos_of_ne_zero positive, equal⟩
      refine Runs.pure (candidate.fails fits ?_)
      rw [expected, ne_eq, Option.some.injEq]
      exact fun same => equal same.symm

theorem extendMatch_runs (known : BorderTable pattern table count) (fits : count ≤ pattern.length)
    (overlap : Overlap pattern word count matched) :
    Runs (evaluation input free length refused) (extendMatch span pattern table byte matched work) input state fun result _ =>
      Overlap pattern (word ++ [byte]) (count + 1) result.1 := by
  have below := overlap.below
  apply Runs.repeatFrom_smaller (fun _ _ candidate => fallBackTurn_runs known fits candidate)
  · exact Nat.lt_succ_of_le (by dsimp only; omega)
  · exact overlap.candidate byte

/-! ## The table -/

theorem extendTable_runs {rest : List UInt8} (behind : pattern.drop count = rest) (known : BorderTable pattern table count)
    (overlap : Overlap pattern (pattern.take count) count matched) (fits : count ≤ pattern.length) :
    Runs (evaluation input free length refused) (extendTable span pattern rest table matched work) input state fun result _ =>
      BorderTable pattern result.1 pattern.length := by
  induction rest generalizing count table matched work state with
  | nil =>
    have size := drop_eq_nil_iff.mp behind
    obtain rfl : count = pattern.length := by omega
    exact Runs.pure known
  | cons _ _ ih =>
    have inside : count < pattern.length := by
      by_contra outside
      rw [drop_eq_nil_of_le (Nat.le_of_not_lt outside)] at behind
      cases behind
    rw [drop_eq_getElem_cons inside, List.cons.injEq] at behind
    obtain ⟨rfl, behind⟩ := behind
    refine (ScanWork.visit_runs 1).bind ?_
    intro _ _ _ _
    refine (extendMatch_runs known fits overlap).bind ?_
    intro (matched', work') _ _ longer
    rw [← take_succ_eq_append_getElem inside] at longer
    exact ih behind (known.push longer) longer inside

namespace LiteralSearch

/-- A search for a pattern that starts at an offset. -/
structure At (pattern : List UInt8) (offset : Nat) (search : LiteralSearch) : Prop where
  same : search.pattern = pattern
  table : BorderTable pattern search.table pattern.length
  cursor : search.cursor = offset
  matched : search.matched = 0

theorem new_runs (nonempty : pattern ≠ []) (fits : pattern.length ≤ length) :
    Runs (evaluation input free length refused) (new span pattern) input state fun search _ => At pattern 0 search := by
  have positive := length_pos_iff.mpr nonempty
  refine Evaluation.checkCancel_runs.bind ?_
  intro _ _ _ _
  refine (Evaluation.lifted_runs (ListOperations.retainElements_runs fits (by omega))).bind ?_
  intro _ _ _ _
  refine (ScanWork.visit_runs 1).bind ?_
  intro _ _ _ _
  obtain ⟨_, listed, overlap⟩ := (@BorderTable.one _ pattern).borders 0 Nat.one_pos
  cases listed
  refine (extendTable_runs (drop_one) BorderTable.one overlap positive).bind ?_
  intro (table, work) _ _ known
  exact Runs.pure ⟨rfl, known, rfl, rfl⟩

/-! ## The next occurrence -/

/-- The bytes from an offset to the cursor were read, and do not contain the pattern. -/
structure Scanned (pattern text : List UInt8) (offset : Nat) (search : LiteralSearch) : Prop where
  same : search.pattern = pattern
  table : BorderTable pattern search.table pattern.length
  further : offset ≤ search.cursor
  inside : search.cursor ≤ text.length
  overlap : Overlap pattern ((text.drop offset).take (search.cursor - offset)) pattern.length search.matched
  absent : ¬pattern <:+: (text.drop offset).take (search.cursor - offset)

/-- The first occurrence from an offset on, with the search behind it; or none. -/
def Finds (pattern text : List UInt8) (offset : Nat) : Option Nat × LiteralSearch → Prop
  | (some position, search) => ∃ front back, First pattern (text.drop offset) front back ∧ position = offset + front.length ∧
      At pattern (position + pattern.length) search
  | (none, _) => ¬pattern <:+: text.drop offset

variable {text front rest : List UInt8} {offset : Nat} {search : LiteralSearch}

theorem At.scanned (ready : At pattern offset search) (nonempty : pattern ≠ []) (inside : offset ≤ text.length) :
    Scanned pattern text offset search := by
  have positive := length_pos_iff.mpr nonempty
  have cursor := ready.cursor
  have unread : (text.drop offset).take (search.cursor - offset) = [] := by
    rw [cursor, Nat.sub_self, take_zero]
  refine ⟨ready.same, ready.table, by omega, by omega, ?_, ?_⟩
  · rw [unread, ready.matched]
    exact Text.overlap_nil positive (by omega)
  · rw [unread, infix_nil]
    exact nonempty

/-- What ends a word with no occurrence before its last byte is the first occurrence. -/
theorem first_of_suffix (whole : text = word ++ [byte] ++ rest) (ends : pattern <:+ word ++ [byte]) (absent : ¬pattern <:+: word) :
    ∃ front, word ++ [byte] = front ++ pattern ∧ First pattern text front rest := by
  obtain ⟨front, split⟩ := ends
  refine ⟨front, split.symm, ?_, ?_⟩
  · rw [whole, ← split, append_assoc]
  · intro front' back' split'
    by_contra shorter
    have sizes := congrArg List.length split
    rw [length_append, length_append, length_singleton] at sizes
    have within : front' ++ pattern <+: word := by
      apply prefix_of_prefix_length_le ⟨back', by rw [append_assoc, ← split']⟩ ⟨[byte] ++ rest, by rw [whole, append_assoc]⟩
      rw [length_append]
      omega
    exact absent ((infix_append' front' pattern []).trans (by rw [append_nil]; exact within.isInfix))

theorem nextTurn_runs (nonempty : pattern ≠ []) (scanned : Scanned pattern text offset search) :
    Runs (evaluation input free length refused) (nextTurn span text search) input state fun turn _ =>
      turn.Lowers (Scanned pattern text offset) (fun search => text.length - search.cursor) (Finds pattern text offset) search := by
  obtain ⟨pattern', table, cursor, matched, work⟩ := search
  obtain ⟨rfl, known, further, inside, overlap, absent⟩ := scanned
  dsimp only at known further inside overlap absent
  unfold nextTurn
  dsimp only
  by_cases more : cursor < text.length
  · rw [if_pos more]
    refine (ScanWork.visit_runs 1).bind ?_
    intro _ _ _ _
    refine (index_runs (List.getElem?_eq_getElem more)).bind ?_
    rintro _ _ _ rfl
    refine (extendMatch_runs known (Nat.le_refl _) overlap).bind ?_
    intro (matched', work') _ _ longer
    have read : (text.drop offset).take (cursor - offset) ++ [text[cursor]] = (text.drop offset).take (cursor + 1 - offset) := by
      have inside' : cursor - offset < (text.drop offset).length := by
        rw [length_drop]
        omega
      have same : (text.drop offset)[cursor - offset] = text[cursor] := by
        rw [getElem_drop]
        congr 1
        omega
      rw [show cursor + 1 - offset = cursor - offset + 1 by omega, take_succ_eq_append_getElem inside', same]
    by_cases complete : matched' = pattern'.length
    · rw [if_pos complete]
      rw [complete] at longer
      have whole : text.drop offset = (text.drop offset).take (cursor - offset) ++ [text[cursor]] ++ text.drop (cursor + 1) := by
        rw [read, show cursor + 1 = offset + (cursor + 1 - offset) by omega, ← drop_drop, Nat.add_sub_cancel_left,
          take_append_drop]
      obtain ⟨front, split, first⟩ := first_of_suffix whole longer.complete absent
      have sizes := congrArg List.length split
      rw [read, length_take, length_drop, length_append] at sizes
      refine Runs.pure ⟨front, _, first, by omega, rfl, known, ?_, rfl⟩
      dsimp only
      omega
    · rw [if_neg complete]
      obtain ⟨shorter, unmatched⟩ := longer.incomplete complete
      have unfound : ¬pattern' <:+: (text.drop offset).take (cursor - offset) ++ [text[cursor]] := by
        rw [infix_concat_iff, not_or]
        exact ⟨unmatched, absent⟩
      rw [read] at shorter unfound
      exact Runs.pure ⟨⟨rfl, known, by dsimp only; omega, more, shorter, unfound⟩, by dsimp only; omega⟩
  · rw [if_neg more]
    have read : (text.drop offset).take (cursor - offset) = text.drop offset := by
      apply take_of_length_le
      rw [length_drop]
      omega
    rw [read] at absent
    exact Runs.pure absent

theorem next_runs (nonempty : pattern ≠ []) (ready : At pattern offset search) (inside : offset ≤ text.length) :
    Runs (evaluation input free length refused) (search.next span text) input state fun result _ => Finds pattern text offset result := by
  apply Runs.repeatFrom_smaller (fun _ _ scanned => nextTurn_runs nonempty scanned) (by omega)
  exact ready.scanned nonempty inside

/-- Behind an occurrence. -/
theorem behind_first {back : List UInt8} (first : First pattern (text.drop offset) front back) (nonempty : pattern ≠ []) :
    text.drop (offset + front.length + pattern.length) = back ∧ offset + front.length + pattern.length ≤ text.length ∧
      offset < offset + front.length + pattern.length := by
  have positive := length_pos_iff.mpr nonempty
  have sizes := congrArg List.length first.split
  rw [length_drop, length_append, length_append] at sizes
  refine ⟨?_, by omega, by omega⟩
  rw [Nat.add_assoc, ← drop_drop, first.split, ← append_assoc, ← length_append, drop_left]

/-! ## All occurrences -/

/-- The positions of all occurrences. -/
def positionsTurn (span : Span) (text : List UInt8) (progress : LiteralSearch × List Nat) :
    EvalM (Turn (LiteralSearch × List Nat) (List Nat)) := do
  let (search, positions) := progress
  let (found, search) ← search.next span text
  match found with
  | some position => return .again (search, positions ++ [position])
  | none => return .done positions

def positions (span : Span) (pattern text : List UInt8) : EvalM (List Nat) := do
  let search ← new span pattern
  repeatFrom .unbounded (positionsTurn span text) (text.length + 1) (search, [])

/-- The occurrences that were found, and those that are left, are all of them. -/
structure Found (pattern text : List UInt8) (progress : LiteralSearch × List Nat) : Prop where
  ready : At pattern progress.1.cursor progress.1
  inside : progress.1.cursor ≤ text.length
  found : ∀ more, Leftmost pattern progress.1.cursor (text.drop progress.1.cursor) more →
    Leftmost pattern 0 text (progress.2 ++ more)

theorem positionsTurn_runs (nonempty : pattern ≠ []) {progress : LiteralSearch × List Nat} (held : Found pattern text progress) :
    Runs (evaluation input free length refused) (positionsTurn span text progress) input state fun turn _ =>
      turn.Lowers (Found pattern text) (fun progress => text.length - progress.1.cursor) (Leftmost pattern 0 text) progress := by
  obtain ⟨search, positions⟩ := progress
  obtain ⟨ready, inside, found⟩ := held
  dsimp only at ready inside found
  refine (next_runs nonempty ready inside).bind ?_
  intro (position, search') _ _ finds
  cases position with
  | none =>
    refine Runs.pure ?_
    have all := found [] (.none finds)
    rwa [append_nil] at all
  | some position =>
    obtain ⟨front, back, first, rfl, ready'⟩ := finds
    obtain ⟨behind, within, larger⟩ := behind_first first nonempty
    have cursor := ready'.cursor
    refine Runs.pure ⟨⟨by rw [cursor]; exact ready', by dsimp only; omega, ?_⟩, by dsimp only; omega⟩
    rw [cursor, behind]
    intro more others
    rw [append_assoc]
    exact found _ (.some first others)

theorem positions_runs (nonempty : pattern ≠ []) (fits : pattern.length ≤ length) :
    Runs (evaluation input free length refused) (positions span pattern text) input state fun found _ => Leftmost pattern 0 text found := by
  refine (new_runs nonempty fits).bind ?_
  intro search _ _ ready
  apply Runs.repeatFrom_smaller (fun _ _ held => positionsTurn_runs nonempty held) (by dsimp only; omega)
  have cursor := ready.cursor
  refine ⟨by dsimp only; rw [cursor]; exact ready, by dsimp only; omega, ?_⟩
  intro more others
  rwa [cursor, drop_zero] at others

end LiteralSearch

end Rules

end Opaal.Runtime
