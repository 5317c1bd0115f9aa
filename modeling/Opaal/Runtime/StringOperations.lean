import Opaal.Runtime.LiteralSearch

/-!
# Searching in strings

`contains`, `split` and `replace` go from one occurrence to the next and put out what is between
them in chunks of a bounded size.  What is found is what a search from the left finds, and every
slice lies between scalars; `join` puts what was split together again.
-/

namespace Opaal.Runtime

open Opaal.Machine List
open Opaal.Syntax (Span)
open Opaal.Text
open Evaluation
open ListOperations
open String (ofList)

variable {F C : Type}

/-! ## The operations -/

/-- `&text[start..stop]` -/
def slice (text : List Char) (start stop : Nat) : EvalM (List Char) :=
  match sliceAt text start stop with
  | some part => return part
  | none => throw (.aborted (.panicked "byte index is not a char boundary"))

section Output

variable (span : Span) (text : List Char)

/-- The last boundary that is not behind an offset. -/
def boundaryBefore : Nat → Nat
  | 0 => 0
  | offset + 1 => if IsBoundary text (offset + 1) then offset + 1 else boundaryBefore offset

def appendTurn (progress : Nat × List Char) : EvalM (Turn (Nat × List Char) (List Char)) := do
  let (cursor, output) := progress
  if cursor < width text then
    visit span
    let stop := boundaryBefore text (min (cursor + chunkSize) (width text))
    retainCollectionBytes (stop - cursor) span
    return .again (stop, output ++ (← slice text cursor stop))
  else return .done output

def appendText (output : List Char) : EvalM (List Char) :=
  repeatFrom .unbounded (appendTurn span text) (width text + 1) (0, output)

def copyText : EvalM (Value F C) := do
  return .string (ofList (← appendText span text []))

def retainStringField (fields : List (Value F C)) : EvalM (List (Value F C)) := do
  checkCancel span
  lifted (ListOperations.spend (ResourceBudget.chargeCollectionItems 1) span)
  return fields ++ [← copyText span text]

end Output

/-- The operations that search; one replaces what it finds. -/
inductive Searching where
  | contains
  | split
  | replace (replacement : List Char)

/-- What has been put out for the matches so far. -/
structure Separated (F C : Type) where
  search : LiteralSearch
  cursor : Nat
  output : List Char
  fields : List (Value F C)

section Operation

variable (operation : String) (span : Span) (input pattern : List Char)

/-- What is put out for a part of the input, and behind it for a match. -/
def putPart (implementation : Searching) (part : List Char) (matched : Bool) (separated : Separated F C) :
    EvalM (Separated F C) := do
  match implementation with
  | .replace replacement =>
    let output ← appendText span part separated.output
    if matched then return { separated with output := ← appendText span replacement output }
    else return { separated with output }
  | _ => return { separated with fields := ← retainStringField span part separated.fields }

def separateTurn (implementation : Searching) (separated : Separated F C) :
    EvalM (Turn (Separated F C) (Separated F C)) := do
  let (found, search) ← separated.search.next span (bytes input)
  match found with
  | none => return .done { separated with search }
  | some position =>
    visit span
    let part ← slice input separated.cursor position
    let separated ← putPart span implementation part true { separated with search }
    return .again { separated with cursor := position + width pattern }

/-- All parts; the last one is behind the last match. -/
def separateParts (implementation : Searching) (search : LiteralSearch) : EvalM (Separated F C) := do
  let separated ← repeatFrom .unbounded (separateTurn span input pattern implementation) (width input + 1)
    { search, cursor := 0, output := [], fields := [] }
  let part ← slice input separated.cursor (width input)
  putPart span implementation part false separated

def stringOperation (implementation : Searching) : EvalM (Value F C) := do
  checkCancel span
  if pattern = [] then
    match implementation with
    | .contains => return .bool true
    | _ => throw (.invalidArgument operation "separator or pattern must be nonempty" span)
  else
    let search ← LiteralSearch.new span (bytes pattern)
    match implementation with
    | .contains =>
      let (found, _) ← search.next span (bytes input)
      return .bool found.isSome
    | _ =>
      let separated ← separateParts span input pattern implementation search
      match implementation with
      | .replace _ => return .string (ofList separated.output)
      | _ => return .list separated.fields

/-- The values from one on; `first` when none was put out. -/
def joinItems (separator : List Char) : List (Value F C) → (first : Bool) → List Char → EvalM (List Char)
  | [], _, output => return output
  | value :: values, first, output => do
    visit span
    match value with
    | .string text =>
      let output ← if first then pure output else appendText span separator output
      joinItems separator values false (← appendText span text.toList output)
    | _ => throw (.invalidArgument operation "join requires String items" span)

def join (separator : List Char) (fields : Value F C) : EvalM (Value F C) := do
  checkCancel span
  match fields with
  | .list values => return .string (ofList (← joinItems operation span separator values true []))
  | _ => throw (.aborted (.panicked "validated arguments"))

/-- Texts of one length, chunk by chunk. -/
def sameChunks : (rounds : Nat) → List UInt8 → List UInt8 → EvalM Bool
  | 0, _, _ => return true
  | rounds + 1, left, right =>
    if left = [] then return true
    else do
      visit span
      if left.take chunkSize = right.take chunkSize then sameChunks rounds (left.drop chunkSize) (right.drop chunkSize)
      else return false

def startsOrEndsWith (ends : Bool) : EvalM (Value F C) := do
  checkCancel span
  let input := bytes input
  let pattern := bytes pattern
  if input.length < pattern.length then return .bool false
  else
    let candidate := if ends then input.drop (input.length - pattern.length) else input.take pattern.length
    return .bool (← sameChunks span candidate.length candidate pattern)

end Operation

/-! ## Copying text -/

section Copying

variable {text front back : List Char} {offset stop : Nat}

theorem boundaryBefore_spec (text : List Char) (offset : Nat) :
    IsBoundary text (boundaryBefore text offset) ∧ boundaryBefore text offset ≤ offset ∧
      ∀ boundary, IsBoundary text boundary → boundary ≤ offset → boundary ≤ boundaryBefore text offset := by
  induction offset with
  | zero => exact ⟨Text.isBoundary_width_append [] text, Nat.le_refl _, fun _ _ least => least⟩
  | succ offset ih =>
    unfold boundaryBefore
    split_ifs with here
    · exact ⟨here, Nat.le_refl _, fun _ _ below => below⟩
    · refine ⟨ih.1, Nat.le_succ_of_le ih.2.1, ?_⟩
      intro boundary isBoundary below
      have different : boundary ≠ offset + 1 := by
        rintro rfl
        exact here isBoundary
      exact ih.2.2 boundary isBoundary (by omega)

/-- A later boundary has text before it. -/
theorem boundary_behind (boundary : IsBoundary (front ++ back) stop) (behind : width front ≤ stop) :
    ∃ middle rest, back = middle ++ rest ∧ stop = width front + width middle := by
  obtain ⟨before, rest, split, rfl⟩ := boundary
  rcases append_eq_append_iff.mp split with ⟨middle, rfl, rfl⟩ | ⟨extra, rfl, rfl⟩
  · exact ⟨middle, rest, rfl, Text.width_append _ _⟩
  · rw [Text.width_append] at behind
    have none : width extra = 0 := by omega
    obtain rfl := Text.width_eq_zero.mp none
    exact ⟨[], back, rfl, by simp⟩

/-- A chunk goes on to a boundary, since no scalar is larger than a chunk. -/
theorem chunk_advances (more : width front < width (front ++ back)) :
    ∃ middle rest, back = middle ++ rest ∧ 0 < width middle ∧
      boundaryBefore (front ++ back) (min (width front + chunkSize) (width (front ++ back))) = width front + width middle := by
  obtain ⟨boundary, _, greatest⟩ := boundaryBefore_spec (front ++ back) (min (width front + chunkSize) (width (front ++ back)))
  cases back with
  | nil =>
    rw [append_nil] at more
    exact absurd more (Nat.lt_irrefl _)
  | cons c back =>
    have small : c.utf8Size ≤ chunkSize := Nat.le_trans (Char.utf8Size_le_four c) (by decide)
    have next : IsBoundary (front ++ c :: back) (width front + c.utf8Size) :=
      ⟨front ++ [c], back, by rw [append_assoc]; rfl, by simp⟩
    have within := next.le_width
    have reached := greatest _ next (by omega)
    have positive := Char.utf8Size_pos c
    obtain ⟨middle, rest, split, stop⟩ := boundary_behind boundary (by omega)
    exact ⟨middle, rest, split, by omega, stop⟩

end Copying

section Rules

variable {reads : ListOperations.ListInput} {state : ListOperations.ListState} {free : Prop} {length : Nat}
  {refused : String → String → Prop} {span : Span} {input pattern text output : List Char}

theorem slice_runs (front middle back : List Char) :
    Runs (evaluation reads free length refused) (slice (front ++ (middle ++ back)) (width front) (width front + width middle)) reads state
      fun part _ => part = middle := by
  unfold slice
  rw [Text.sliceAt_parts]
  exact Runs.pure rfl

/-- The text up to the cursor was put out. -/
def Appended (text output : List Char) (progress : Nat × List Char) : Prop :=
  ∃ front back, text = front ++ back ∧ progress = (width front, output ++ front)

theorem appendTurn_runs {progress : Nat × List Char} (appended : Appended text output progress) :
    Runs (evaluation reads free length refused) (appendTurn span text progress) reads state fun turn _ =>
      turn.Lowers (Appended text output) (fun progress => width text - progress.1) (fun result => result = output ++ text) progress := by
  obtain ⟨front, back, rfl, rfl⟩ := appended
  unfold appendTurn
  dsimp only
  by_cases more : width front < width (front ++ back)
  · rw [if_pos more]
    obtain ⟨middle, rest, rfl, positive, stop⟩ := chunk_advances more
    refine Evaluation.visited fun after => ?_
    rw [stop]
    refine Evaluation.retainCollectionBytes_runs.bind ?_
    intro _ _ _ _
    refine (slice_runs front middle rest).bind ?_
    intro part _ _ sliced
    subst part
    refine Runs.pure ⟨⟨front ++ middle, rest, by rw [append_assoc], by simp⟩, ?_⟩
    dsimp only
    omega
  · rw [if_neg more]
    rw [Text.width_append] at more
    have none : width back = 0 := by omega
    rw [Text.width_eq_zero.mp none, append_nil]
    exact Runs.pure rfl

theorem appendText_runs : Runs (evaluation reads free length refused) (appendText span text output) reads state fun result _ =>
    result = output ++ text := by
  apply Runs.repeatFrom_smaller (fun _ _ appended => appendTurn_runs appended) (by dsimp only; omega)
  exact ⟨[], text, rfl, by simp⟩

theorem copyText_runs : Runs (evaluation reads free length refused) (copyText span text : EvalM (Value F C)) reads state
    fun result _ => result = .string (ofList text) := by
  refine appendText_runs.bind ?_
  rintro _ _ _ rfl
  exact Runs.pure rfl

theorem retainStringField_runs {fields : List (Value F C)} :
    Runs (evaluation reads free length refused) (retainStringField span text fields) reads state fun result _ =>
      result = fields ++ [.string (ofList text)] := by
  refine Evaluation.checkCancel_runs.bind ?_
  intro _ _ _ _
  refine (Evaluation.lifted_runs (spend_runs (ResourceBudget.gentle_items 1))).bind ?_
  intro _ _ _ _
  refine copyText_runs.bind ?_
  rintro _ _ _ rfl
  exact Runs.pure rfl

/-! ## Parts -/

/-- What an operation answers about the occurrences. -/
def reference (implementation : Searching) (pattern input : List Char) : Value F C :=
  match implementation with
  | .contains => .bool (decide (pattern <:+: input))
  | .split => .list ((splitBy pattern input).map fun part => .string (ofList part))
  | .replace replacement => .string (ofList (replacement.intercalate (splitBy pattern input)))

/-- The parts that were put out, each with the match behind it. -/
def Holds (implementation : Searching) (parts : List (List Char)) (separated : Separated F C) : Prop :=
  match implementation with
  | .replace replacement => separated.output = parts.flatMap fun part => part ++ replacement
  | _ => separated.fields = parts.map fun part => .string (ofList part)

/-- All parts were put out, the last one with no match behind it. -/
def Complete (implementation : Searching) (parts : List (List Char)) (separated : Separated F C) : Prop :=
  match implementation with
  | .replace replacement => separated.output = replacement.intercalate parts
  | _ => separated.fields = parts.map fun part => .string (ofList part)

theorem intercalate_concat (separator : List Char) (parts : List (List Char)) (last : List Char) :
    separator.intercalate (parts ++ [last]) = (parts.flatMap fun part => part ++ separator) ++ last := by
  induction parts with
  | nil => simp [List.intercalate]
  | cons _ parts ih =>
    rw [flatMap_cons, append_assoc, ← ih]
    cases parts <;> simp [List.intercalate]

variable {implementation : Searching} {parts : List (List Char)} {part : List Char} {separated : Separated F C}

theorem putPart_matched (holds : Holds implementation parts separated) :
    Runs (evaluation reads free length refused) (putPart span implementation part true separated) reads state fun result _ =>
      Holds implementation (parts ++ [part]) result ∧ result.search = separated.search := by
  cases implementation with
  | replace =>
    refine appendText_runs.bind ?_
    rintro _ _ _ rfl
    refine appendText_runs.bind ?_
    rintro _ _ _ rfl
    refine Runs.pure ⟨?_, rfl⟩
    have before : separated.output = _ := holds
    simp [Holds, before]
  | _ =>
    refine retainStringField_runs.bind ?_
    rintro _ _ _ rfl
    refine Runs.pure ⟨?_, rfl⟩
    have before : separated.fields = _ := holds
    simp [Holds, before]

theorem putPart_last (holds : Holds implementation parts separated) :
    Runs (evaluation reads free length refused) (putPart span implementation part false separated) reads state fun result _ =>
      Complete implementation (parts ++ [part]) result := by
  cases implementation with
  | replace =>
    refine appendText_runs.bind ?_
    rintro _ _ _ rfl
    refine Runs.pure ?_
    have before : separated.output = _ := holds
    simp [Complete, before, intercalate_concat]
  | _ =>
    refine retainStringField_runs.bind ?_
    rintro _ _ _ rfl
    refine Runs.pure ?_
    have before : separated.fields = _ := holds
    simp [Complete, before]

/-- The parts before the cursor were put out, and the search goes on behind them. -/
structure Separates (implementation : Searching) (pattern input : List Char) (separated : Separated F C) : Prop where
  parted : ∃ front back parts, input = front ++ back ∧ separated.cursor = width front ∧
    splitBy pattern input = parts ++ splitBy pattern back ∧ Holds implementation parts separated
  ready : LiteralSearch.At (bytes pattern) separated.cursor separated.search

/-- The parts but the last one were put out, and that is behind the cursor. -/
def AllButLast (implementation : Searching) (pattern input : List Char) (separated : Separated F C) : Prop :=
  ∃ front back parts, input = front ++ back ∧ separated.cursor = width front ∧ splitBy pattern input = parts ++ [back] ∧
    Holds implementation parts separated

theorem bytes_drop (front back : List Char) : (bytes (front ++ back)).drop (width front) = bytes back := by
  rw [Text.bytes_append, ← Text.bytes_length, drop_left]

theorem separateTurn_runs (nonempty : pattern ≠ []) (separates : Separates implementation pattern input separated) :
    Runs (evaluation reads free length refused) (separateTurn span input pattern implementation separated) reads state fun turn _ =>
      turn.Lowers (Separates implementation pattern input) (fun separated => width input - separated.cursor)
        (AllButLast implementation pattern input) separated := by
  obtain ⟨search, cursor, output, fields⟩ := separated
  obtain ⟨⟨front, back, parts, rfl, cursorEq, split, holds⟩, ready⟩ := separates
  dsimp only at cursorEq ready
  subst cursor
  have encoded := Text.bytes_ne_nil nonempty
  have within : width front ≤ (bytes (front ++ back)).length := by
    rw [Text.bytes_length, Text.width_append]
    omega
  refine (LiteralSearch.next_runs encoded ready within).bind ?_
  intro (position, search') _ _ finds
  cases position with
  | none =>
    have absent : ¬bytes pattern <:+: (bytes (front ++ back)).drop (width front) := finds
    rw [bytes_drop, Text.bytes_infix_iff nonempty] at absent
    rw [Text.splitBy_absent absent] at split
    exact Runs.pure ⟨front, back, parts, rfl, rfl, split, holds⟩
  | some position =>
    obtain ⟨before, behind, first, rfl, ready'⟩ := finds
    rw [bytes_drop] at first
    obtain ⟨middle, rest, first', rfl, rfl⟩ := first.decoded nonempty
    obtain rfl := first'.split
    rw [Text.bytes_length] at ready' ⊢
    rw [Text.bytes_length] at ready'
    have positive := Text.width_pos_of_ne_nil nonempty
    refine Evaluation.visited fun after => ?_
    refine (slice_runs front middle (pattern ++ rest)).bind ?_
    intro part _ _ sliced
    subst part
    have holds' : Holds implementation parts (⟨search', width front, output, fields⟩ : Separated F C) := holds
    refine (putPart_matched holds').bind ?_
    intro result _ _ ⟨put, kept⟩
    refine Runs.pure ⟨⟨⟨front ++ middle ++ pattern, rest, parts ++ [middle], by simp, by simp [Nat.add_assoc], ?_, put⟩, ?_⟩, ?_⟩
    · rw [split, Text.splitBy_first nonempty first']
      simp
    · rw [kept]
      exact ready'
    · simp only [Text.width_append]
      omega

theorem separateParts_runs {search : LiteralSearch} (nonempty : pattern ≠ []) (ready : LiteralSearch.At (bytes pattern) 0 search) :
    Runs (evaluation reads free length refused)
      (separateParts span input pattern implementation search : EvalM (Separated F C)) reads state fun separated _ =>
        Complete implementation (splitBy pattern input) separated := by
  have start : Separates implementation pattern input (⟨search, 0, [], []⟩ : Separated F C) := by
    refine ⟨⟨[], input, [], rfl, rfl, rfl, ?_⟩, ready⟩
    cases implementation <;> rfl
  have separating : Runs (evaluation reads free length refused) (repeatFrom Evaluation.EvalAbort.unbounded
      (separateTurn span input pattern implementation) (width input + 1) (⟨search, 0, [], []⟩ : Separated F C)) reads state
      fun separated _ => AllButLast implementation pattern input separated := by
    apply Runs.repeatFrom_smaller (fun _ _ separates => separateTurn_runs nonempty separates) _ start
    exact Nat.lt_succ_self _
  refine separating.bind ?_
  rintro separated after _ ⟨front, back, _, rfl, cursor, split, holds⟩
  have last := @slice_runs reads after free length refused front back []
  rw [append_nil, ← Text.width_append, ← cursor] at last
  refine last.bind ?_
  intro part _ _ sliced
  subst part
  rw [split]
  exact putPart_last holds

theorem stringOperation_runs {operation : String} (fits : width pattern ≤ length)
    (allowed : pattern = [] → implementation ≠ .contains → refused operation "separator or pattern must be nonempty") :
    Runs (evaluation reads free length refused)
      (stringOperation operation span input pattern implementation : EvalM (Value F C)) reads state fun value _ =>
        value = reference implementation pattern input ∧ (pattern = [] → implementation = .contains) := by
  refine Evaluation.checkCancel_runs.bind ?_
  intro _ _ _ _
  by_cases empty : pattern = []
  · rw [if_pos empty]
    cases implementation with
    | contains => exact Runs.pure ⟨by simp [reference, empty], fun _ => rfl⟩
    | _ => exact Runs.throw (allowed empty (by simp))
  · rw [if_neg empty]
    have encoded := Text.bytes_ne_nil empty
    refine (LiteralSearch.new_runs encoded (by rwa [Text.bytes_length])).bind ?_
    intro search _ _ ready
    cases implementation with
    | contains =>
      refine (LiteralSearch.next_runs encoded ready (Nat.zero_le _)).bind ?_
      intro (found, _) _ _ finds
      refine Runs.pure ⟨?_, fun none => absurd none empty⟩
      cases found with
      | none =>
        have absent : ¬bytes pattern <:+: bytes input := finds
        rw [Text.bytes_infix_iff empty] at absent
        simp [reference, absent]
      | some =>
        obtain ⟨_, _, first, _⟩ := finds
        obtain ⟨before, behind, first, _, _⟩ := first.decoded empty
        have present : pattern <:+: input := ⟨before, behind, by rw [append_assoc]; exact first.split.symm⟩
        simp [reference, present]
    | split =>
      refine (separateParts_runs empty ready).bind ?_
      intro separated _ _ complete
      have fields : separated.fields = _ := complete
      exact Runs.pure ⟨by rw [fields]; rfl, fun none => absurd none empty⟩
    | replace =>
      refine (separateParts_runs empty ready).bind ?_
      intro separated _ _ complete
      have output : separated.output = _ := complete
      exact Runs.pure ⟨by rw [output]; rfl, fun none => absurd none empty⟩

/-! ## Joining -/

theorem joinItems_runs {operation : String} (first : Bool) : Runs (evaluation reads free length refused)
    (joinItems operation span pattern (parts.map fun part => (.string (ofList part) : Value F C)) first output) reads state
    fun result _ => result = output ++ pattern.intercalate (if first then parts else [] :: parts) := by
  induction parts generalizing first output state with
  | nil => cases first <;> exact Runs.pure (by simp [List.intercalate])
  | cons part parts ih =>
    refine Evaluation.visited fun _ => ?_
    cases first with
    | true =>
      refine appendText_runs.bind ?_
      rintro _ _ _ rfl
      refine (ih false).mono fun _ _ _ joined => ?_
      cases parts <;> simpa [List.intercalate] using joined
    | false =>
      refine appendText_runs.bind ?_
      rintro _ _ _ rfl
      refine appendText_runs.bind ?_
      rintro _ _ _ rfl
      refine (ih false).mono fun _ _ _ joined => ?_
      cases parts <;> simpa [List.intercalate] using joined

/-! ## Comparing ends -/

theorem sameChunks_runs {rounds : Nat} {left right : List UInt8} (enough : left.length ≤ rounds) (same : left.length = right.length) :
    Runs (evaluation reads free length refused) (sameChunks span rounds left right) reads state fun result _ =>
      (result = true ↔ left = right) := by
  induction rounds generalizing left right state with
  | zero =>
    obtain rfl := eq_nil_of_length_eq_zero (Nat.le_zero.mp enough)
    exact Runs.pure (by simpa [eq_comm] using same)
  | succ rounds ih =>
    unfold sameChunks
    split_ifs with empty front
    · subst empty
      exact Runs.pure (by simpa [eq_comm] using same)
    · have smaller := length_pos_iff.mpr empty
      refine Evaluation.visited fun _ => (ih ?_ ?_).mono ?_
      · rw [length_drop]
        unfold chunkSize
        omega
      · rw [length_drop, length_drop, same]
      · intro _ _ _ rest
        rw [rest]
        refine ⟨fun back => ?_, congrArg (drop chunkSize)⟩
        rw [← take_append_drop chunkSize left, front, back, take_append_drop]
    · refine Evaluation.visited fun _ => Runs.pure (iff_of_false Bool.false_ne_true ?_)
      rintro rfl
      exact front rfl

theorem bytes_suffix_iff : bytes pattern <:+ bytes input ↔ pattern <:+ input := by
  constructor
  · rintro ⟨front, split⟩
    cases pattern with
    | nil => exact nil_suffix
    | cons c pattern =>
      rw [← append_nil (bytes (c :: pattern))] at split
      obtain ⟨before, behind, rfl, _, none⟩ := Text.bytes_split (cons_ne_nil c pattern) split.symm
      have last : behind = [] := by
        by_contra more
        exact Text.bytes_ne_nil more none.symm
      exact ⟨before, by rw [last, append_nil]⟩
  · rintro ⟨front, rfl⟩
    exact ⟨bytes front, (Text.bytes_append _ _).symm⟩

end Rules

/-- Literal search finds the occurrences from the left that do not overlap, and the operations on
strings answer what is defined by them. -/
theorem literal_search_exact (pattern : List Char) (nonempty : pattern ≠ []) (input : List Char) (operation : String) (span : Span)
    (reads : ListOperations.ListInput) (state : ListOperations.ListState) :
    Evaluation.Concludes (LiteralSearch.positions span (bytes pattern) (bytes input) reads state)
        (Text.Leftmost (bytes pattern) 0 (bytes input))
        (ListOperations.Interrupted reads state.budget.Unlimited (width pattern)) (fun _ _ => False) ∧
      (∀ implementation, Evaluation.Concludes
        ((stringOperation operation span input pattern implementation : EvalM (Value F C)) reads state)
        (fun value => value = reference implementation pattern input)
        (ListOperations.Interrupted reads state.budget.Unlimited (width pattern)) (fun _ _ => False)) ∧
      pattern.intercalate (splitBy pattern input) = input := by
  refine ⟨?_, ?_, Text.intercalate_splitBy pattern input⟩
  · apply Evaluation.Runs.concludes
    exact LiteralSearch.positions_runs (Text.bytes_ne_nil nonempty) (Nat.le_of_eq (Text.bytes_length pattern))
  · intro implementation
    apply Evaluation.Runs.concludes
    refine (stringOperation_runs (Nat.le_refl _) fun empty _ => nonempty empty).mono ?_
    intro value _ _ answered
    exact answered.1

/-- What follows an occurrence is searched on its own, so the second one here is not found. -/
example : Text.breakOn ['a', 'b', 'a'] ['a', 'b', 'a', 'b', 'a'] = some ([], ['b', 'a']) := by decide

theorem literal_search_aba :
    Evaluation.Concludes (LiteralSearch.positions ⟨0, 0, 1⟩ (bytes ['a', 'b', 'a']) (bytes ['a', 'b', 'a', 'b', 'a'])
      uninterrupted fresh) (Text.Leftmost (bytes ['a', 'b', 'a']) 0 (bytes ['a', 'b', 'a', 'b', 'a']))
      (ListOperations.Interrupted uninterrupted fresh.budget.Unlimited 3) fun _ _ => False :=
  (@literal_search_exact Empty Empty ['a', 'b', 'a'] (by decide) ['a', 'b', 'a', 'b', 'a'] "" ⟨0, 0, 1⟩
    uninterrupted fresh).1

/-- To split at a pattern and join the parts with another text is to replace the pattern by it; an
empty pattern is refused. -/
theorem split_join (pattern input replacement : List Char) (operation joining : String) (span : Span)
    (reads : ListOperations.ListInput) (state : ListOperations.ListState) :
    Evaluation.Concludes
      ((do join joining span replacement (← stringOperation operation span input pattern .split) : EvalM (Value F C)) reads state)
      (fun value => pattern ≠ [] ∧ value = reference (.replace replacement) pattern input ∧
        (replacement = pattern → value = .string (ofList input)))
      (ListOperations.Interrupted reads state.budget.Unlimited (width pattern)) (fun _ _ => pattern = []) := by
  apply Evaluation.Runs.concludes
  refine (stringOperation_runs (Nat.le_refl _) fun empty _ => empty).bind ?_
  rintro _ _ _ ⟨rfl, searched⟩
  refine Evaluation.checkCancel_runs.bind ?_
  intro _ _ _ _
  refine (joinItems_runs true).bind ?_
  rintro _ _ _ rfl
  refine Runs.pure ⟨fun empty => absurd (searched empty) (by simp), rfl, ?_⟩
  rintro rfl
  exact congrArg (fun text => Value.string (ofList text)) (Text.intercalate_splitBy _ _)

/-- Comparing the ends of texts by chunks tells whether one starts or ends with the other. -/
theorem startsOrEndsWith_exact (ends : Bool) (input pattern : List Char) (span : Span) (reads : ListOperations.ListInput)
    (state : ListOperations.ListState) :
    Evaluation.Concludes ((startsOrEndsWith span input pattern ends : EvalM (Value F C)) reads state)
      (fun value => ∃ answer, value = .bool answer ∧ (answer = true ↔ if ends then pattern <:+ input else pattern <+: input))
      (ListOperations.Interrupted reads state.budget.Unlimited 0) fun _ _ => False := by
  apply Evaluation.Runs.concludes
  refine Evaluation.checkCancel_runs.bind ?_
  intro _ _ _ _
  rw [← bytes_suffix_iff, ← Text.bytes_prefix_iff]
  dsimp only
  split_ifs with longer ends
  · exact Runs.pure ⟨_, rfl, iff_of_false Bool.false_ne_true fun found => absurd found.length_le (Nat.not_le.mpr longer)⟩
  · exact Runs.pure ⟨_, rfl, iff_of_false Bool.false_ne_true fun found => absurd found.length_le (Nat.not_le.mpr longer)⟩
  · rw [suffix_iff_eq_drop, eq_comm]
    refine (sameChunks_runs (Nat.le_refl _) (by rw [length_drop]; omega)).bind ?_
    intro _ _ _ answer
    exact Runs.pure ⟨_, rfl, answer⟩
  · rw [prefix_iff_eq_take, eq_comm]
    refine (sameChunks_runs (Nat.le_refl _) (by rw [length_take]; omega)).bind ?_
    intro _ _ _ answer
    exact Runs.pure ⟨_, rfl, answer⟩

end Opaal.Runtime
