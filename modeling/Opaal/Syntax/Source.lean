import Opaal.Text.Utf8

/-!
# Source files and spans

`source.rs`: a source file is valid UTF-8 text under an identity, a span a
half-open byte range of one source.  The display name and the line index play
no part in lexing, parsing or formatting and are left out.
-/

namespace Opaal.Syntax

open Opaal.Text

abbrev SourceId := Nat

/-- A source-identified, half-open byte range.  The source's `start..end`;
`end` is a keyword here. -/
structure Span where
  sourceId : SourceId
  start : Nat
  stop : Nat
  deriving DecidableEq, Repr

def Span.len (span : Span) : Nat := span.stop - span.start

def Span.isEmpty (span : Span) : Bool := span.start == span.stop

inductive SpanError where
  | reversed (start stop : Nat)
  | outOfBounds (stop len : Nat)
  | notCharBoundary (offset : Nat)
  | wrongSource (expected actual : SourceId)
  deriving DecidableEq, Repr

structure SourceFile where
  id : SourceId
  text : List Char
  deriving DecidableEq, Repr

namespace SourceFile

def len (source : SourceFile) : Nat := width source.text

def isCharBoundary (source : SourceFile) (offset : Nat) : Bool := decide (IsBoundary source.text offset)

def validateOffset (source : SourceFile) (offset : Nat) : Except SpanError Unit :=
  if offset > source.len then .error (.outOfBounds offset source.len)
  else if !source.isCharBoundary offset then .error (.notCharBoundary offset)
  else .ok ()

def span (source : SourceFile) (start stop : Nat) : Except SpanError Span := do
  if start > stop then throw (.reversed start stop)
  if stop > source.len then throw (.outOfBounds stop source.len)
  source.validateOffset start
  source.validateOffset stop
  return { sourceId := source.id, start, stop }

def validateSpan (source : SourceFile) (span : Span) : Except SpanError Unit := do
  if span.sourceId ≠ source.id then throw (.wrongSource source.id span.sourceId)
  if span.start > span.stop then throw (.reversed span.start span.stop)
  if span.stop > source.len then throw (.outOfBounds span.stop source.len)
  source.validateOffset span.start
  source.validateOffset span.stop

/-- The text under a span; the slice itself cannot fail once the span is
validated. -/
def slice (source : SourceFile) (span : Span) : Except SpanError (List Char) := do
  source.validateSpan span
  let tail := (tailAt source.text span.start).getD []
  return (headAt tail (span.stop - span.start)).getD []

end SourceFile

/-- A range that addresses the source: in order, inside it, on scalar
boundaries. -/
structure SourceFile.Covers (source : SourceFile) (span : Span) : Prop where
  sameSource : span.sourceId = source.id
  ordered : span.start ≤ span.stop
  startBoundary : IsBoundary source.text span.start
  stopBoundary : IsBoundary source.text span.stop

namespace SourceFile

variable {source : SourceFile}

variable {span : Span} {start stop : Nat}

theorem Covers.stop_le_len (covers : source.Covers span) : span.stop ≤ source.len :=
  covers.stopBoundary.le_width

theorem validateOffset_of_boundary {offset : Nat} (boundary : IsBoundary source.text offset) :
    source.validateOffset offset = .ok () := by
  have inside : ¬ offset > source.len := Nat.not_lt.mpr boundary.le_width
  simp [validateOffset, inside, isCharBoundary, boundary]

/-- `span` succeeds on every ordered pair of boundaries. -/
theorem span_ok (ordered : start ≤ stop) (startBoundary : IsBoundary source.text start)
    (stopBoundary : IsBoundary source.text stop) :
    source.span start stop = .ok { sourceId := source.id, start, stop } := by
  have inOrder : ¬ start > stop := Nat.not_lt.mpr ordered
  have inside : ¬ stop > source.len := Nat.not_lt.mpr stopBoundary.le_width
  simp [span, inOrder, inside, validateOffset_of_boundary startBoundary,
    validateOffset_of_boundary stopBoundary, bind, Except.bind, pure, Except.pure]

theorem covers_mk (ordered : start ≤ stop) (startBoundary : IsBoundary source.text start)
    (stopBoundary : IsBoundary source.text stop) :
    source.Covers { sourceId := source.id, start, stop } :=
  ⟨rfl, ordered, startBoundary, stopBoundary⟩

theorem validateSpan_of_covers (covers : source.Covers span) :
    source.validateSpan span = .ok () := by
  have inOrder : ¬ span.start > span.stop := Nat.not_lt.mpr covers.ordered
  have inside : ¬ span.stop > source.len := Nat.not_lt.mpr covers.stop_le_len
  simp [validateSpan, covers.sameSource, inOrder, inside,
    validateOffset_of_boundary covers.startBoundary, validateOffset_of_boundary covers.stopBoundary,
    bind, Except.bind]

/-- Slicing a covered range returns the text between its ends. -/
theorem slice_append (front middle back : List Char) (textEq : source.text = front ++ middle ++ back) :
    source.slice { sourceId := source.id, start := width front, stop := width front + width middle } =
      .ok middle := by
  have startBoundary : IsBoundary source.text (width front) :=
    ⟨front, middle ++ back, by rw [textEq, List.append_assoc], rfl⟩
  have stopBoundary : IsBoundary source.text (width front + width middle) :=
    ⟨front ++ middle, back, textEq, by simp⟩
  have covered := validateSpan_of_covers (covers_mk (Nat.le_add_right _ _) startBoundary stopBoundary)
  have tailEq : tailAt source.text (width front) = some (middle ++ back) := by
    rw [textEq, List.append_assoc, tailAt_width]
  simp [slice, covered, tailEq, headAt_width, bind, Except.bind, pure, Except.pure]

/-- A covered range cuts the text in three, and slicing returns the middle. -/
theorem Covers.split (covers : source.Covers span) :
    ∃ front middle back, source.text = front ++ middle ++ back ∧ width front = span.start ∧
      span.stop = width front + width middle ∧ source.slice span = .ok middle := by
  obtain ⟨front, back', textEq, starts⟩ := covers.startBoundary
  obtain ⟨front', back, textEq', stops⟩ := covers.stopBoundary
  have ordered := covers.ordered
  have cut : ∃ middle, front' = front ++ middle := by
    rcases List.append_eq_append_iff.mp (textEq.symm.trans textEq') with ⟨middle, longer, _⟩ | ⟨rest, shorter, _⟩
    · exact ⟨middle, longer⟩
    · have empty : width rest = 0 := by
        have := congrArg width shorter
        rw [width_append] at this
        omega
      rw [width_eq_zero] at empty
      subst empty
      exact ⟨[], by rw [shorter]; simp⟩
  obtain ⟨middle, rfl⟩ := cut
  rw [width_append] at stops
  refine ⟨front, middle, back, textEq', starts, stops.symm, ?_⟩
  have sliced := slice_append front middle back textEq'
  rw [starts, ← covers.sameSource] at sliced
  have stopEq : span.start + width middle = span.stop := by omega
  rw [stopEq] at sliced
  exact sliced

theorem boundary_of_validateOffset {offset : Nat} (valid : source.validateOffset offset = .ok ()) :
    IsBoundary source.text offset := by
  unfold validateOffset isCharBoundary at valid
  split_ifs at valid with outside off
  simpa using off

theorem covers_of_validateSpan (valid : source.validateSpan span = .ok ()) : source.Covers span := by
  unfold validateSpan at valid
  simp only [bind, Except.bind, throw, throwThe, MonadExceptOf.throw] at valid
  split_ifs at valid with identity reversed outside
  cases start : source.validateOffset span.start with
  | error _ => simp [start] at valid
  | ok _ =>
    simp only [start] at valid
    exact ⟨not_not.mp identity, Nat.not_lt.mp reversed, boundary_of_validateOffset start,
      boundary_of_validateOffset valid⟩

theorem covers_of_span (made : source.span start stop = .ok span) :
    source.Covers span := by
  unfold SourceFile.span at made
  simp only [bind, Except.bind, pure, Except.pure, throw, throwThe, MonadExceptOf.throw] at made
  split_ifs at made with reversed outside
  cases first : source.validateOffset start with
  | error _ => simp [first] at made
  | ok _ =>
    cases last : source.validateOffset stop with
    | error _ => simp [first, last] at made
    | ok _ =>
      simp only [first, last, Except.ok.injEq] at made
      subst made
      exact covers_mk (Nat.not_lt.mp reversed) (boundary_of_validateOffset first) (boundary_of_validateOffset last)

end SourceFile

/-- A span that addresses its source. -/
structure SourceFile.Region (source : SourceFile) extends Span where
  covers : source.Covers toSpan
  deriving DecidableEq, Repr

/-- `source.span(start..end)`. -/
def SourceFile.region (source : SourceFile) (start stop : Nat) : Except SpanError source.Region :=
  match made : source.span start stop with
  | .ok span => .ok ⟨span, covers_of_span made⟩
  | .error error => .error error

theorem SourceFile.region_ok {source : SourceFile} {start stop : Nat} (ordered : start ≤ stop)
    (startBoundary : IsBoundary source.text start) (stopBoundary : IsBoundary source.text stop) :
    ∃ region, source.region start stop = .ok region ∧ region.start = start ∧ region.stop = stop := by
  have made := span_ok ordered startBoundary stopBoundary
  unfold region
  split
  · next span found =>
    rw [made] at found
    cases found
    exact ⟨_, rfl, rfl, rfl⟩
  · next error failed =>
    rw [made] at failed
    cases failed

end Opaal.Syntax
