import Mathlib.Data.List.TakeWhile
import Opaal.Syntax.Source
import Opaal.Text.Ascii

/-!
# Text positions

`source.rs`: an index of the lines of a source, and the conversions between byte offsets and
positions whose columns count UTF-8 bytes or UTF-16 code units.  An answer is none where the source
would panic.
-/

namespace Opaal.Syntax

open Opaal.Text List

/-! ## The line index -/

structure Line where
  start : Nat
  contentEnd : Nat
deriving DecidableEq

structure LineIndex where
  lines : List Line

namespace LineIndex

/-- One byte: a newline closes a line, with the carriage return before it. -/
def scanByte (encoded : List UInt8) (progress : List Line × Nat) (next : UInt8 × Nat) : List Line × Nat :=
  let (lines, start) := progress
  let (byte, newline) := next
  if byte ≠ '\n'.toUInt8 then (lines, start)
  else
    let contentEnd :=
      if start < newline && encoded[newline - 1]? == some '\r'.toUInt8 then newline - 1 else newline
    (lines ++ [⟨start, contentEnd⟩], newline + 1)

def new (text : List Char) : LineIndex :=
  let encoded := bytes text
  let (lines, start) := encoded.zipIdx.foldl (scanByte encoded) ([], 0)
  ⟨lines ++ [⟨start, encoded.length⟩]⟩

end LineIndex

/-! ## Positions -/

inductive PositionEncoding where
  | utf8
  | utf16
deriving DecidableEq

structure TextPosition where
  line : Nat
  character : Nat
deriving DecidableEq

inductive PositionError where
  | byteOutOfBounds (offset len : Nat)
  | notUtf8Boundary (offset : Nat)
  | lineOutOfBounds (line lineCount : Nat)
  | characterOutOfBounds (line character maximum : Nat)
  | insideUtf16Scalar (line character : Nat)
deriving DecidableEq

/-- `char::len_utf16` -/
def lenUtf16 (c : Char) : Nat := if c.toNat < 0x10000 then 1 else 2

/-- `slice::partition_point` of lines that are in order -/
def partitionPoint (holds : Line → Bool) (lines : List Line) : Nat := (lines.takeWhile holds).length

namespace LineIndex

variable (index : LineIndex) (text : List Char)

def textPosition (offset : Nat) (encoding : PositionEncoding) : Option (Except PositionError TextPosition) :=
  if width text < offset then some (.error (.byteOutOfBounds offset (width text)))
  else if ¬IsBoundary text offset then some (.error (.notUtf8Boundary offset))
  else do
    let lineIndex := partitionPoint (fun line => line.start ≤ offset) index.lines - 1
    let line ← index.lines[lineIndex]?
    let before ← sliceAt text line.start (min offset line.contentEnd)
    let character := match encoding with
      | .utf8 => width before
      | .utf16 => (before.map lenUtf16).sum
    return .ok ⟨lineIndex, character⟩

/-- The scalars of a line up to the column, with the units and the bytes before them. -/
def findUtf16 (position : TextPosition) (line : Line) : List Char → Nat → Nat → Except PositionError Nat
  | [], codeUnits, _ =>
    if codeUnits = position.character then .ok line.contentEnd
    else .error (.characterOutOfBounds position.line position.character codeUnits)
  | scalar :: rest, codeUnits, byte =>
    if codeUnits = position.character then .ok (line.start + byte)
    else
      let next := codeUnits + lenUtf16 scalar
      if position.character < next then .error (.insideUtf16Scalar position.line position.character)
      else findUtf16 position line rest next (byte + scalar.utf8Size)

def byteOffset (position : TextPosition) (encoding : PositionEncoding) : Option (Except PositionError Nat) :=
  match index.lines[position.line]? with
  | none => some (.error (.lineOutOfBounds position.line index.lines.length))
  | some line => do
    let lineText ← sliceAt text line.start line.contentEnd
    match encoding with
    | .utf8 =>
      if width lineText < position.character then
        return .error (.characterOutOfBounds position.line position.character (width lineText))
      else
        let offset := line.start + position.character
        if ¬IsBoundary text offset then return .error (.notUtf8Boundary offset) else return .ok offset
    | .utf16 => return findUtf16 position line lineText 0 0

end LineIndex

namespace SourceFile

variable (source : SourceFile)

def lineIndex : LineIndex := LineIndex.new source.text

def textPosition (offset : Nat) (encoding : PositionEncoding) : Option (Except PositionError TextPosition) :=
  source.lineIndex.textPosition source.text offset encoding

def byteOffset (position : TextPosition) (encoding : PositionEncoding) : Option (Except PositionError Nat) :=
  source.lineIndex.byteOffset source.text position encoding

end SourceFile

/-! ## Lines -/

/-- What ends a line: a newline, or a carriage return and a newline. -/
inductive Terminates (content : List Char) : List Char → Prop where
  | newline (bare : content.getLast? ≠ some '\r') : Terminates content ['\n']
  | returned : Terminates content ['\r', '\n']

/-- The lines of a text from an offset on. -/
inductive LinesFrom : Nat → List Char → List Line → Prop where
  | last {start : Nat} {content : List Char} (free : '\n' ∉ content) :
      LinesFrom start content [⟨start, start + width content⟩]
  | line {start : Nat} {content terminator rest : List Char} {lines : List Line} (free : '\n' ∉ content)
      (terminates : Terminates content terminator)
      (others : LinesFrom (start + width content + width terminator) rest lines) :
      LinesFrom start (content ++ (terminator ++ rest)) (⟨start, start + width content⟩ :: lines)

/-- The bytes of other scalars are passed over. -/
theorem scanByte_other {encoded part : List UInt8} (other : '\n'.toUInt8 ∉ part) (place : Nat) (progress : List Line × Nat) :
    (part.zipIdx place).foldl (LineIndex.scanByte encoded) progress = progress := by
  induction part generalizing place with
  | nil => rfl
  | cons byte _ ih =>
    have different : byte ≠ '\n'.toUInt8 := by
      rintro rfl
      exact other mem_cons_self
    rw [zipIdx_cons, foldl_cons]
    have stays : LineIndex.scanByte encoded progress (byte, place) = progress := by
      unfold LineIndex.scanByte
      dsimp only
      rw [if_pos different]
    rw [stays]
    exact ih (fun member => other (mem_cons_of_mem _ member)) _

variable {earlier content : List Char}

/-- Whether the byte before a place is a carriage return. -/
theorem byte_before (rest : List Char) :
    (width earlier < width (earlier ++ content) &&
      (bytes (earlier ++ content ++ rest))[width (earlier ++ content) - 1]? == some '\r'.toUInt8) =
      (content.getLast? == some '\r') := by
  rcases eq_nil_or_concat content with rfl | ⟨init, c, rfl⟩
  · rw [append_nil, decide_eq_false (Nat.lt_irrefl _), Bool.false_and]
    rfl
  · obtain ⟨front, last, split⟩ : ∃ front last, String.utf8EncodeChar c = front ++ [last] := by
      have some : String.utf8EncodeChar c ≠ [] := by
        rw [← length_pos_iff, String.length_utf8EncodeChar]
        exact Char.utf8Size_pos c
      exact ⟨_, _, (dropLast_append_getLast some).symm⟩
    have size := congrArg List.length split
    rw [String.length_utf8EncodeChar, length_append, length_singleton] at size
    have found : (bytes (earlier ++ (init ++ [c]) ++ rest))[width (earlier ++ (init ++ [c])) - 1]? = some last := by
      have parts : bytes (earlier ++ (init ++ [c]) ++ rest) = (bytes (earlier ++ init) ++ front) ++ last :: bytes rest := by
        simp [bytes_append, bytes_cons, split]
      have place : width (earlier ++ (init ++ [c])) - 1 = (bytes (earlier ++ init) ++ front).length := by
        simp only [width_append, width_cons, width_nil, length_append, bytes_length]
        omega
      rw [parts, place, List.getElem?_append_right (Nat.le_refl _), Nat.sub_self]
      rfl
    have returns : last = '\r'.toUInt8 ↔ c = '\r' := by
      constructor
      · rintro rfl
        have member : '\r'.toUInt8 ∈ bytes [c] := by
          rw [bytes_cons, split]
          simp
        exact (mem_singleton.mp (mem_bytes_ascii (by decide) member)).symm
      · rintro rfl
        have single := congrArg List.getLast? split
        rw [List.getLast?_concat] at single
        exact (Option.some.inj single).symm
    rw [concat_eq_append, found, List.getLast?_concat, decide_eq_true (by simp only [width_append, width_cons]; omega), Bool.true_and]
    rw [Bool.eq_iff_iff, beq_iff_eq, beq_iff_eq, Option.some.injEq, Option.some.injEq]
    exact returns

/-- The scan of what follows an unfinished line. -/
theorem scan_lines (text rest earlier content : List Char) (lines : List Line) (split : text = earlier ++ content ++ rest)
    (free : '\n' ∉ content) :
    ∃ found, (let (closed, start) :=
        ((bytes rest).zipIdx (width (earlier ++ content))).foldl (LineIndex.scanByte (bytes text)) (lines, width earlier)
      closed ++ [⟨start, (bytes text).length⟩]) = lines ++ found ∧ LinesFrom (width earlier) (content ++ rest) found := by
  induction rest generalizing earlier content lines with
  | nil =>
    refine ⟨[⟨width earlier, width earlier + width content⟩], ?_, ?_⟩
    · rw [split, append_nil, bytes_length, width_append]
      rfl
    · rw [append_nil]
      exact .last free
  | cons c rest ih =>
    have places : (bytes (c :: rest)).zipIdx (width (earlier ++ content)) =
        (String.utf8EncodeChar c).zipIdx (width (earlier ++ content)) ++ (bytes rest).zipIdx (width (earlier ++ (content ++ [c]))) := by
      rw [bytes_cons, zipIdx_append, String.length_utf8EncodeChar, ← append_assoc earlier content [c],
        width_append (earlier ++ content) [c], width_cons, width_nil, Nat.add_zero]
    rw [places, foldl_append]
    by_cases newline : c = '\n'
    · subst newline
      have before := @byte_before earlier content ('\n' :: rest)
      rw [← split] at before
      have fresh : text = earlier ++ (content ++ ['\n']) ++ [] ++ rest := by
        rw [split]
        simp
      have step : (('\n'.toUInt8, width (earlier ++ content)) :: []).foldl (LineIndex.scanByte (bytes text)) (lines, width earlier) =
          (lines ++ [⟨width earlier, if content.getLast? == some '\r' then width (earlier ++ content) - 1 else width (earlier ++ content)⟩],
            width (earlier ++ content) + 1) := by
        rw [foldl_cons, foldl_nil]
        unfold LineIndex.scanByte
        dsimp only
        rw [if_neg (fun different => different rfl), before]
      have place : width (earlier ++ content) + 1 = width (earlier ++ (content ++ ['\n'])) := by
        rw [← append_assoc, width_append (earlier ++ content)]
        rfl
      have single : (String.utf8EncodeChar '\n').zipIdx (width (earlier ++ content)) =
          [('\n'.toUInt8, width (earlier ++ content))] := rfl
      obtain ⟨found, scanned, others⟩ := ih (earlier ++ (content ++ ['\n'])) []
        (lines ++ [⟨width earlier, if content.getLast? == some '\r' then width (earlier ++ content) - 1 else width (earlier ++ content)⟩])
        fresh (not_mem_nil)
      rw [single, step, place]
      rw [append_nil] at scanned
      refine ⟨_ :: found, by rw [scanned, append_assoc, singleton_append], ?_⟩
      by_cases returned : content.getLast? = some '\r'
      · obtain ⟨init, rfl⟩ := List.getLast?_eq_some_iff.mp returned
        have stop : width (earlier ++ (init ++ ['\r'])) - 1 = width earlier + width init := by
          simp only [width_append]
          rfl
        rw [returned, beq_self_eq_true, if_pos rfl, stop]
        have shape : init ++ ['\r'] ++ '\n' :: rest = init ++ (['\r', '\n'] ++ rest) := by simp
        rw [shape]
        refine .line (fun member => free (mem_append_left _ member)) .returned ?_
        have same : width earlier + width init + width ['\r', '\n'] = width (earlier ++ (init ++ ['\r'] ++ ['\n'])) := by
          simp only [width_append, width_cons, width_nil]
          omega
        rw [same]
        exact others
      · rw [beq_eq_false_iff_ne.mpr returned]
        have shape : content ++ '\n' :: rest = content ++ (['\n'] ++ rest) := rfl
        rw [shape, width_append, if_neg Bool.false_ne_true]
        refine .line free (.newline returned) ?_
        have same : width earlier + width content + width ['\n'] = width (earlier ++ (content ++ ['\n'])) := by
          simp only [width_append]
          omega
        rw [same]
        exact others
    · have other : '\n'.toUInt8 ∉ String.utf8EncodeChar c := by
        intro member
        have listed : '\n'.toUInt8 ∈ bytes [c] := by rw [bytes_cons, bytes_nil, append_nil]; exact member
        exact newline (mem_singleton.mp (mem_bytes_ascii (by decide) listed)).symm
      obtain ⟨found, scanned, others⟩ := ih earlier (content ++ [c]) lines (by rw [split]; simp)
        (by simpa using ⟨free, fun same => newline same.symm⟩)
      rw [scanByte_other other]
      refine ⟨found, scanned, ?_⟩
      rw [append_assoc] at others
      exact others

/-- The index holds the lines of the text. -/
theorem lineIndex_lines (text : List Char) : LinesFrom 0 text (LineIndex.new text).lines := by
  obtain ⟨_, scanned, lines⟩ := scan_lines text text [] [] [] rfl not_mem_nil
  unfold LineIndex.new
  rw [nil_append, nil_append, width_nil] at scanned
  dsimp only at scanned ⊢
  rw [scanned]
  exact lines

/-! ## Where an offset lies -/

section Places

variable {start : Nat} {text : List Char} {lines : List Line}

/-- The number of lines that start at an offset or before it. -/
def startsBefore (lines : List Line) (offset : Nat) : Nat := partitionPoint (fun line => line.start ≤ offset) lines

variable {offset number : Nat} {content terminator rest : List Char}

theorem startsBefore_cons {line : Line} (started : line.start ≤ offset) :
    startsBefore (line :: lines) offset = startsBefore lines offset + 1 := by
  unfold startsBefore partitionPoint
  rw [takeWhile_cons_of_pos (by simpa using started), length_cons]

/-- No line starts before the first one. -/
theorem LinesFrom.startsBefore_zero (known : LinesFrom start text lines) (before : offset < start) :
    startsBefore lines offset = 0 := by
  have none : ∀ {line : Line} {others : List Line}, line.start = start → startsBefore (line :: others) offset = 0 := by
    intro line others same
    unfold startsBefore partitionPoint
    rw [takeWhile_cons_of_neg (by simp only [same, decide_eq_true_eq]; omega), length_nil]
  cases known with
  | last | line => exact none rfl

theorem startsBefore_mono {further : Nat} (larger : offset ≤ further) : startsBefore lines offset ≤ startsBefore lines further := by
  induction lines with
  | nil => exact Nat.le_refl _
  | cons line lines ih =>
    by_cases started : line.start ≤ offset
    · rw [startsBefore_cons started, startsBefore_cons (Nat.le_trans started larger)]
      omega
    · unfold startsBefore partitionPoint
      rw [takeWhile_cons_of_neg (by simpa using started), length_nil]
      exact Nat.zero_le _

/-- A line of a text, with what is before its content and behind it. -/
structure Held (start : Nat) (text : List Char) (lines : List Line) (number : Nat) (earlier content behind : List Char) : Prop where
  split : text = earlier ++ (content ++ behind)
  line : lines[number]? = some ⟨start + width earlier, start + width earlier + width content⟩
  place : ∀ inner more, content = inner ++ more → startsBefore lines (start + width (earlier ++ inner)) = number + 1
  opens : earlier = [] ∨ earlier.getLast? = some '\n'
  free : '\n' ∉ content
  closes : behind = [] ∨ ∃ terminator rest, behind = terminator ++ rest ∧ Terminates content terminator

theorem Terminates.nonempty (terminates : Terminates content terminator) : terminator ≠ [] := by
  cases terminates <;> exact cons_ne_nil _ _

theorem Terminates.newline_last (terminates : Terminates content terminator) :
    terminator.getLast? = some '\n' := by
  cases terminates <;> rfl

/-- The first line. -/
theorem Held.first (free : '\n' ∉ content) (terminates : Terminates content terminator)
    (others : LinesFrom (start + width content + width terminator) rest lines) :
    Held start (content ++ (terminator ++ rest)) (⟨start, start + width content⟩ :: lines) 0 [] content (terminator ++ rest) := by
  refine ⟨rfl, rfl, ?_, .inl rfl, free, .inr ⟨terminator, rest, rfl, terminates⟩⟩
  intro inner more split
  have positive := width_pos_of_ne_nil terminates.nonempty
  have within : width (content : List Char) = width inner + width more := by rw [split, width_append]
  have near : start + width inner < start + width content + width terminator := by omega
  rw [nil_append, startsBefore_cons (Nat.le_add_right _ _), others.startsBefore_zero near]

/-- The line of a text that has one only. -/
theorem Held.only (free : '\n' ∉ content) :
    Held start content [⟨start, start + width content⟩] 0 [] content [] := by
  refine ⟨by simp, rfl, ?_, .inl rfl, free, .inl rfl⟩
  intro inner more _
  rw [startsBefore_cons (Nat.le_add_right _ _)]
  rfl

/-- A later line. -/
theorem Held.later {earlier content' behind : List Char} (terminates : Terminates content terminator)
    (held : Held (start + width content + width terminator) rest lines number earlier content' behind) :
    Held start (content ++ (terminator ++ rest)) (⟨start, start + width content⟩ :: lines) (number + 1)
      (content ++ (terminator ++ earlier)) content' behind := by
  have shifted : start + width (content ++ (terminator ++ earlier)) = start + width content + width terminator + width earlier := by
    simp only [width_append]
    omega
  refine ⟨?_, ?_, ?_, .inr ?_, held.free, held.closes⟩
  · rw [held.split]
    simp
  · rw [List.getElem?_cons_succ, held.line, shifted]
  · intro inner more split
    have placed := held.place inner more split
    rw [width_append] at placed ⊢
    rw [startsBefore_cons (Nat.le_trans (Nat.le_add_right _ _) (Nat.le_refl _)), ← Nat.add_assoc, shifted, Nat.add_assoc, placed]
  · rcases held.opens with rfl | last
    · rw [append_nil, List.getLast?_append, terminates.newline_last]
      rfl
    · rw [List.getLast?_append, List.getLast?_append, last]
      rfl

/-- Every line of the index is a line of the text. -/
theorem LinesFrom.held (known : LinesFrom start text lines) {line : Line} (found : lines[number]? = some line) :
    ∃ earlier content behind, Held start text lines number earlier content behind := by
  induction known generalizing number with
  | @last _ content free =>
    obtain ⟨rfl, _⟩ : number = 0 ∧ _ := by
      cases number with
      | zero => exact ⟨rfl, trivial⟩
      | succ => simp at found
    exact ⟨[], content, [], Held.only free⟩
  | @line _ _ _ _ _ free terminates others ih =>
    cases number with
    | zero =>
      exact ⟨_, _, _, Held.first free terminates others⟩
    | succ =>
      obtain ⟨_, _, _, held⟩ := ih found
      exact ⟨_, _, _, held.later terminates⟩

/-- An offset lies in the content of a line, or inside its terminator. -/
inductive Lies (start : Nat) (text : List Char) (lines : List Line) (front back : List Char) (number : Nat) : Prop where
  | content {earlier content inner more behind : List Char} (held : Held start text lines number earlier content behind)
      (split : content = inner ++ more) (before : front = earlier ++ inner) : Lies start text lines front back number
  | terminator {earlier content behind : List Char} (held : Held start text lines number earlier content behind)
      (before : front = earlier ++ (content ++ ['\r'])) (next : back.head? = some '\n')
      (place : startsBefore lines (start + width front) = number + 1) : Lies start text lines front back number

theorem Lies.later {front back : List Char} (terminates : Terminates content terminator)
    (lies : Lies (start + width content + width terminator) rest lines front back number) :
    Lies start (content ++ (terminator ++ rest)) (⟨start, start + width content⟩ :: lines)
      (content ++ (terminator ++ front)) back (number + 1) := by
  cases lies with
  | content held split before =>
    refine .content (held.later terminates) split ?_
    rw [before]
    simp
  | terminator held before next place =>
    refine .terminator (held.later terminates) ?_ next ?_
    · rw [before]
      simp
    · rw [startsBefore_cons (Nat.le_add_right _ _), width_append, width_append, ← Nat.add_assoc, ← Nat.add_assoc, place]

theorem LinesFrom.lies (known : LinesFrom start text lines) {front back : List Char} (split : text = front ++ back) :
    ∃ number, Lies start text lines front back number := by
  induction known generalizing front with
  | @last _ content free =>
    exact ⟨0, .content (Held.only free) split rfl⟩
  | @line start content terminator _ _ free terminates others ih =>
    have first := Held.first free terminates others
    rcases append_eq_append_iff.mp split with ⟨inside, frontEq, behind⟩ | ⟨_, contentEq, _⟩
    · cases inside with
      | nil =>
        rw [append_nil] at frontEq
        exact ⟨0, .content first (append_nil content).symm frontEq⟩
      | cons _ inside =>
        have closing := terminates
        cases terminates with
        | newline =>
          rw [singleton_append, cons_append, List.cons.injEq] at behind
          obtain ⟨rfl, restEq⟩ := behind
          obtain ⟨number, lies⟩ := ih restEq
          refine ⟨number + 1, ?_⟩
          rw [frontEq]
          exact lies.later closing
        | returned =>
          simp only [cons_append, nil_append, List.cons.injEq] at behind
          obtain ⟨rfl, behind⟩ := behind
          cases inside with
          | nil =>
            rw [nil_append] at behind
            refine ⟨0, .terminator first frontEq (by rw [← behind]; rfl) ?_⟩
            have near : start + width front < start + width content + width ['\r', '\n'] := by
              rw [frontEq, width_append]
              exact Nat.lt_of_le_of_lt (Nat.le_of_eq (Nat.add_assoc _ _ _).symm) (Nat.add_lt_add_left (by decide) _)
            rw [startsBefore_cons (Nat.le_add_right _ _), others.startsBefore_zero near]
          | cons =>
            rw [cons_append, List.cons.injEq] at behind
            obtain ⟨rfl, restEq⟩ := behind
            obtain ⟨number, lies⟩ := ih restEq
            refine ⟨number + 1, ?_⟩
            rw [frontEq]
            exact lies.later closing
    · exact ⟨0, .content first contentEq rfl⟩

end Places

/-! ## Conversions -/

/-- How many units of an encoding a text takes. -/
def PositionEncoding.units : PositionEncoding → List Char → Nat
  | .utf8, text => width text
  | .utf16, text => (text.map lenUtf16).sum

theorem PositionEncoding.units_append (encoding : PositionEncoding) (front back : List Char) :
    encoding.units (front ++ back) = encoding.units front + encoding.units back := by
  cases encoding with
  | utf8 => exact width_append front back
  | utf16 => simp [units]

theorem lenUtf16_pos (c : Char) : 0 < lenUtf16 c := by
  unfold lenUtf16
  split <;> omega

/-- A split of a text that lies in a middle part splits that part. -/
theorem split_within {behind front back : List Char} {size : Nat} (split : earlier ++ (content ++ behind) = front ++ back)
    (reaches : width front = width earlier + size) (within : size ≤ width content) : ∃ inner more, content = inner ++ more ∧ front = earlier ++ inner := by
  rcases append_eq_append_iff.mp split with ⟨inside, frontEq, rest⟩ | ⟨inside, earlierEq, _⟩
  · rcases append_eq_append_iff.mp rest with ⟨past, insideEq, _⟩ | ⟨more, contentEq, _⟩
    · have none : width past = 0 := by
        rw [frontEq, insideEq, width_append, width_append] at reaches
        omega
      rw [width_eq_zero] at none
      rw [none, append_nil] at insideEq
      exact ⟨content, [], (append_nil content).symm, by rw [frontEq, insideEq]⟩
    · exact ⟨inside, more, contentEq, frontEq⟩
  · have none : width inside = 0 := by
      rw [earlierEq, width_append] at reaches
      omega
    rw [width_eq_zero] at none
    rw [none, append_nil] at earlierEq
    exact ⟨[], content, rfl, by rw [earlierEq, append_nil]⟩

section Conversions

variable {text : List Char} {lines : List Line} {number : Nat} {earlier content behind inner more : List Char}

variable {offset : Nat} {position : TextPosition}

section

variable (held : Held 0 text lines number earlier content behind)
include held

theorem textPosition_line (split : content = inner ++ more) (boundary : IsBoundary text offset)
    (place : startsBefore lines offset = number + 1)
    (column : min offset (width earlier + width content) = width earlier + width inner) (encoding : PositionEncoding) :
    LineIndex.textPosition ⟨lines⟩ text offset encoding = some (.ok ⟨number, encoding.units inner⟩) := by
  have inside := boundary.le_width
  have found := held.line
  rw [Nat.zero_add] at found
  have before : sliceAt text (width earlier) (min offset (width earlier + width content)) = some inner := by
    rw [column, held.split, split, append_assoc]
    exact sliceAt_parts earlier inner (more ++ behind)
  unfold startsBefore at place
  unfold LineIndex.textPosition
  rw [if_neg (Nat.not_lt.mpr inside), if_neg (not_not.mpr boundary)]
  simp only [place, Nat.add_sub_cancel, found, before, Option.bind_eq_bind, Option.bind_some]
  cases encoding <;> rfl

/-- The position of an offset in the content of a line. -/
theorem textPosition_content (split : content = inner ++ more) (encoding : PositionEncoding) :
    LineIndex.textPosition ⟨lines⟩ text (width (earlier ++ inner)) encoding = some (.ok ⟨number, encoding.units inner⟩) := by
  have boundary : IsBoundary text (width (earlier ++ inner)) := by
    refine ⟨earlier ++ inner, more ++ behind, ?_, rfl⟩
    rw [held.split, split]
    simp
  have place := held.place inner more split
  rw [Nat.zero_add] at place
  apply textPosition_line held split boundary place
  rw [split, width_append, width_append]
  omega

/-- Inside a terminator the position is the end of the content. -/
theorem textPosition_terminator (boundary : IsBoundary text offset) (place : startsBefore lines offset = number + 1)
    (past : width earlier + width content ≤ offset) (encoding : PositionEncoding) :
    LineIndex.textPosition ⟨lines⟩ text offset encoding = some (.ok ⟨number, encoding.units content⟩) :=
  textPosition_line held (append_nil content).symm boundary place (Nat.min_eq_right past) encoding

end

theorem findUtf16_units (position : TextPosition) (line : Line) (codeUnits byte : Nat)
    (column : position.character = codeUnits + PositionEncoding.utf16.units inner)
    (ends : line.contentEnd = line.start + byte + width (inner ++ more)) :
    LineIndex.findUtf16 position line (inner ++ more) codeUnits byte = .ok (line.start + byte + width inner) := by
  induction inner generalizing codeUnits byte with
  | nil =>
    have reached : codeUnits = position.character := column.symm
    cases more with
    | nil =>
      rw [nil_append, LineIndex.findUtf16, if_pos reached, ends]
      rfl
    | cons =>
      rw [nil_append, LineIndex.findUtf16, if_pos reached]
      rfl
  | cons c inner ih =>
    have positive := lenUtf16_pos c
    have whole : PositionEncoding.utf16.units (c :: inner) = lenUtf16 c + PositionEncoding.utf16.units inner := by
      simp [PositionEncoding.units]
    rw [cons_append, LineIndex.findUtf16, if_neg (by omega), if_neg (by omega), ih _ _ (by omega)]
    · rw [width_cons, Nat.add_assoc line.start byte, Nat.add_assoc, Nat.add_assoc]
    · rw [ends, cons_append, width_cons]
      omega

theorem findUtf16_ok {line : Line} {scalars : List Char} {codeUnits byte : Nat}
    (found : LineIndex.findUtf16 position line scalars codeUnits byte = .ok offset)
    (ends : line.contentEnd = line.start + byte + width scalars) :
    ∃ inner more, scalars = inner ++ more ∧ position.character = codeUnits + PositionEncoding.utf16.units inner ∧
      offset = line.start + byte + width inner := by
  induction scalars generalizing codeUnits byte with
  | nil =>
    rw [LineIndex.findUtf16] at found
    split at found
    · next same =>
      cases found
      exact ⟨[], [], rfl, same.symm, ends⟩
    · cases found
  | cons c scalars ih =>
    rw [LineIndex.findUtf16] at found
    split at found
    · next same =>
      cases found
      exact ⟨[], c :: scalars, rfl, same.symm, rfl⟩
    · dsimp only at found
      split at found
      · cases found
      · obtain ⟨inner, more, rfl, column, same⟩ := ih found (by rw [ends, width_cons]; omega)
        refine ⟨c :: inner, more, rfl, ?_, ?_⟩
        · rw [column]
          simp only [PositionEncoding.units, map_cons, sum_cons]
          omega
        · rw [same, width_cons]
          omega

/-- The offset of a column in the content of a line. -/
theorem byteOffset_content (held : Held 0 text lines number earlier content behind) (split : content = inner ++ more)
    (encoding : PositionEncoding) :
    LineIndex.byteOffset ⟨lines⟩ text ⟨number, encoding.units inner⟩ encoding = some (.ok (width (earlier ++ inner))) := by
  have found := held.line
  rw [Nat.zero_add] at found
  have whole : sliceAt text (width earlier) (width earlier + width content) = some content := by
    rw [held.split]
    exact sliceAt_parts earlier content behind
  unfold LineIndex.byteOffset
  simp only [found, whole, Option.bind_eq_bind, Option.bind_some]
  cases encoding with
  | utf8 =>
    have boundary : IsBoundary text (width earlier + width inner) := by
      rw [← width_append, held.split, split]
      exact ⟨earlier ++ inner, more ++ behind, by simp, rfl⟩
    have within : ¬width content < width inner := by
      rw [split, width_append]
      omega
    simp only [PositionEncoding.units, if_neg within, not_not.mpr boundary, if_false, width_append]
    rfl
  | utf16 =>
    have units := findUtf16_units ⟨number, PositionEncoding.utf16.units inner⟩ ⟨width earlier, width earlier + width content⟩ 0 0
      (Nat.zero_add _).symm (by rw [← split]; rfl)
    rw [← split] at units
    rw [units, width_append]
    rfl

/-- Every accepted position is one in the content of a line. -/
theorem byteOffset_ok (known : LinesFrom 0 text lines) {encoding : PositionEncoding}
    (accepted : LineIndex.byteOffset ⟨lines⟩ text position encoding = some (.ok offset)) :
    ∃ earlier content behind inner more, Held 0 text lines position.line earlier content behind ∧ content = inner ++ more ∧
      position.character = encoding.units inner ∧ offset = width (earlier ++ inner) := by
  unfold LineIndex.byteOffset at accepted
  cases found : lines[position.line]? with
  | none => simp [found] at accepted
  | some line =>
    obtain ⟨earlier, content, behind, held⟩ := known.held found
    have same := held.line
    rw [found, Option.some.injEq, Nat.zero_add] at same
    have whole : sliceAt text (width earlier) (width earlier + width content) = some content := by
      rw [held.split]
      exact sliceAt_parts earlier content behind
    subst same
    simp only [found, whole, Option.bind_eq_bind, Option.bind_some] at accepted
    cases encoding with
    | utf8 =>
      dsimp only at accepted
      split at accepted
      · cases accepted
      · next within =>
        split at accepted
        · cases accepted
        · next boundary =>
          cases accepted
          obtain ⟨_, _, split, size⟩ := not_not.mp boundary
          rw [held.split] at split
          obtain ⟨inner, more, rfl, rfl⟩ := split_within split size (Nat.le_of_not_lt within)
          refine ⟨earlier, _, behind, inner, more, held, rfl, ?_, size.symm⟩
          rw [width_append] at size
          exact (Nat.add_left_cancel size).symm
    | utf16 =>
      obtain ⟨inner, more, split, column, same⟩ := findUtf16_ok (Option.some.inj accepted) rfl
      rw [Nat.zero_add] at column
      refine ⟨earlier, content, behind, inner, more, held, split, column, ?_⟩
      rw [same, width_append]
      rfl

end Conversions

/-! ## Round trips -/

/-- The offset lies between the carriage return and the newline of a terminator. -/
def InsideTerminator (text : List Char) (offset : Nat) : Prop :=
  ∃ front back, text = front ++ '\r' :: '\n' :: back ∧ offset = width front + 1

/-- Positions are ordered by lines, and by columns within a line. -/
def TextPosition.NotAfter (first second : TextPosition) : Prop :=
  first.line < second.line ∨ (first.line = second.line ∧ first.character ≤ second.character)

section RoundTrips

variable {text front back : List Char} {lines : List Line} {number : Nat}

variable {earlier content : List Char} {offset : Nat} {position : TextPosition} {encoding : PositionEncoding}

/-- Between the carriage return and the newline no content goes on. -/
theorem Held.not_inside {inner more behind : List Char} (held : Held 0 text lines number earlier content behind)
    (split : content = inner ++ more) (before : front ++ ['\r'] = earlier ++ inner)
    (whole : text = front ++ '\r' :: '\n' :: back) :
    False := by
  have rest : more ++ behind = '\n' :: back := by
    have same : (front ++ ['\r']) ++ ('\n' :: back) = (earlier ++ inner) ++ (more ++ behind) := by
      rw [append_assoc, singleton_append, ← whole, held.split, split]
      simp
    rw [before] at same
    exact (append_cancel_left same).symm
  have returned : (earlier ++ inner).getLast? = some '\r' := by rw [← before, List.getLast?_concat]
  cases more with
  | cons =>
    rw [cons_append, List.cons.injEq] at rest
    apply held.free
    rw [split, ← rest.1]
    simp
  | nil =>
    rw [append_nil] at split
    rcases held.closes with none | ⟨_, _, behindEq, terminates⟩
    · rw [none] at rest
      cases rest
    · rw [behindEq] at rest
      cases terminates with
      | returned => simp at rest
      | newline bare =>
        rcases eq_nil_or_concat inner with rfl | ⟨_, _, rfl⟩
        · rw [append_nil] at returned
          rcases held.opens with rfl | last
          · cases returned
          · rw [returned] at last
            simp at last
        · rw [concat_eq_append, ← append_assoc, List.getLast?_concat] at returned
          rw [split, concat_eq_append, List.getLast?_concat] at bare
          exact bare returned

/-- An offset that is not inside a terminator comes back. -/
theorem byteOffset_textPosition (known : LinesFrom 0 text lines) (boundary : IsBoundary text offset)
    (outside : ¬InsideTerminator text offset) (encoding : PositionEncoding) :
    ∃ position, LineIndex.textPosition ⟨lines⟩ text offset encoding = some (.ok position) ∧
      LineIndex.byteOffset ⟨lines⟩ text position encoding = some (.ok offset) := by
  obtain ⟨_, back, whole, rfl⟩ := boundary
  obtain ⟨_, lies⟩ := known.lies whole
  cases lies with
  | content held split before =>
    rw [before]
    exact ⟨_, textPosition_content held split encoding, byteOffset_content held split encoding⟩
  | @terminator earlier content _ _ before next =>
    obtain ⟨rest, rfl⟩ : ∃ rest, back = '\n' :: rest := List.head?_eq_some_iff.mp next
    refine absurd ⟨earlier ++ content, rest, ?_, ?_⟩ outside
    · rw [whole, before]
      simp
    · rw [before, ← append_assoc, width_append]
      rfl

/-- A position that is accepted comes back. -/
theorem textPosition_byteOffset (known : LinesFrom 0 text lines)
    (accepted : LineIndex.byteOffset ⟨lines⟩ text position encoding = some (.ok offset)) :
    LineIndex.textPosition ⟨lines⟩ text offset encoding = some (.ok position) := by
  obtain ⟨_, _, _, _, _, held, split, column, rfl⟩ := byteOffset_ok known accepted
  rw [textPosition_content held split encoding, ← column]

/-- Inside a terminator the position is that of the end of the content. -/
theorem textPosition_inside (known : LinesFrom 0 text lines) (whole : text = front ++ '\r' :: '\n' :: back)
    (encoding : PositionEncoding) :
    ∃ position, LineIndex.textPosition ⟨lines⟩ text (width front + 1) encoding = some (.ok position) ∧
      LineIndex.byteOffset ⟨lines⟩ text position encoding = some (.ok (width front)) := by
  have split : text = (front ++ ['\r']) ++ ('\n' :: back) := by
    rw [whole, append_assoc, singleton_append]
  have size : width (front ++ ['\r']) = width front + 1 := by
    rw [width_append]
    rfl
  obtain ⟨number, lies⟩ := known.lies split
  cases lies with
  | content held parts before => exact (held.not_inside parts before whole).elim
  | @terminator earlier content behind held before next place =>
    rw [← append_assoc] at before
    have frontEq := append_cancel_right before
    rw [size, Nat.zero_add] at place
    have boundary : IsBoundary text (width front + 1) := ⟨_, _, split, size⟩
    have past : width earlier + width content ≤ width front + 1 := by
      rw [frontEq, width_append]
      omega
    refine ⟨_, textPosition_terminator held boundary place past encoding, ?_⟩
    rw [byteOffset_content held (append_nil content).symm encoding, frontEq]

/-- Every boundary has a position on the line it lies on. -/
theorem textPosition_boundary (known : LinesFrom 0 text lines) (boundary : IsBoundary text offset)
    (encoding : PositionEncoding) :
    ∃ number earlier content behind inner more, Held 0 text lines number earlier content behind ∧ content = inner ++ more ∧
      LineIndex.textPosition ⟨lines⟩ text offset encoding = some (.ok ⟨number, encoding.units inner⟩) ∧
      startsBefore lines offset = number + 1 ∧ width inner = min offset (width earlier + width content) - width earlier := by
  obtain ⟨front, back, whole, rfl⟩ := boundary
  obtain ⟨number, lies⟩ := known.lies whole
  cases lies with
  | @content earlier content inner more behind held split before =>
    have place := held.place inner more split
    rw [Nat.zero_add] at place
    refine ⟨number, earlier, content, behind, inner, more, held, split, ?_, by rw [before]; exact place, ?_⟩
    · rw [before]
      exact textPosition_content held split encoding
    · rw [before, split, width_append, width_append]
      omega
  | @terminator earlier content behind held before next place =>
    rw [Nat.zero_add] at place
    have past : width earlier + width content ≤ width front := by
      rw [before, width_append, width_append]
      omega
    refine ⟨number, earlier, content, behind, content, [], held, (append_nil content).symm, ?_, place, by omega⟩
    exact textPosition_terminator held ⟨front, back, whole, rfl⟩ place past encoding

theorem textPosition_ok_boundary (positioned : LineIndex.textPosition ⟨lines⟩ text offset encoding = some (.ok position)) : IsBoundary text offset := by
  by_contra outside
  unfold LineIndex.textPosition at positioned
  split at positioned <;> cases positioned

/-- A line is found in one way only. -/
theorem Held.same {behind earlier' content' behind' : List Char} (held : Held 0 text lines number earlier content behind)
    (held' : Held 0 text lines number earlier' content' behind') :
    earlier = earlier' ∧ content = content' := by
  have same := held.line
  rw [held'.line] at same
  simp only [Option.some.injEq, Line.mk.injEq, Nat.zero_add] at same
  obtain ⟨starts, ends⟩ := same
  have split := held.split
  rw [held'.split] at split
  obtain ⟨front, rest⟩ := append_eq_append_of_width split starts
  exact ⟨front.symm, (append_eq_append_of_width rest (by omega)).1.symm⟩

/-- A later offset has no earlier position. -/
theorem textPosition_mono (known : LinesFrom 0 text lines) {further : Nat} {position' : TextPosition}
    (larger : offset ≤ further) (positioned : LineIndex.textPosition ⟨lines⟩ text offset encoding = some (.ok position))
    (positioned' : LineIndex.textPosition ⟨lines⟩ text further encoding = some (.ok position')) : position.NotAfter position' := by
  obtain ⟨number, earlier, content, behind, inner, more, held, split, here, place, size⟩ :=
    textPosition_boundary known (textPosition_ok_boundary positioned) encoding
  obtain ⟨number', earlier', content', behind', inner', more', held', split', here', place', size'⟩ :=
    textPosition_boundary known (textPosition_ok_boundary positioned') encoding
  rw [positioned] at here
  rw [positioned'] at here'
  cases here
  cases here'
  have order := @startsBefore_mono lines _ _ larger
  rw [place, place', Nat.add_le_add_iff_right] at order
  rcases Nat.lt_or_eq_of_le order with before | same
  · exact .inl before
  · subst same
    obtain ⟨rfl, rfl⟩ := held.same held'
    have widths : width inner ≤ width inner' := by omega
    have starts : inner <+: inner' := by
      rcases prefix_or_prefix_of_prefix ⟨more, split.symm⟩ ⟨more', split'.symm⟩ with before | ⟨extra, rfl⟩
      · exact before
      · have none : width extra = 0 := by
          rw [width_append] at widths
          omega
        rw [width_eq_zero] at none
        subst none
        exact ⟨[], by rw [append_nil, append_nil]⟩
    obtain ⟨_, rfl⟩ := starts
    refine .inr ⟨rfl, ?_⟩
    rw [encoding.units_append]
    exact Nat.le_add_right _ _

end RoundTrips

/-- Offsets and positions are converted into each other, whatever the units of the columns. -/
theorem positions_round_trip (source : SourceFile) (encoding : PositionEncoding) :
    (∀ offset, IsBoundary source.text offset → ¬InsideTerminator source.text offset →
      ∃ position, source.textPosition offset encoding = some (.ok position) ∧
        source.byteOffset position encoding = some (.ok offset)) ∧
    (∀ position offset, source.byteOffset position encoding = some (.ok offset) →
      source.textPosition offset encoding = some (.ok position)) ∧
    (∀ offset further position position', offset ≤ further → source.textPosition offset encoding = some (.ok position) →
      source.textPosition further encoding = some (.ok position') → position.NotAfter position') ∧
    ∀ front back, source.text = front ++ '\r' :: '\n' :: back →
      ∃ position, source.textPosition (width front + 1) encoding = some (.ok position) ∧
        source.byteOffset position encoding = some (.ok (width front)) := by
  have known := lineIndex_lines source.text
  refine ⟨?_, ?_, ?_, ?_⟩
  · intro offset boundary outside
    exact byteOffset_textPosition known boundary outside encoding
  · intro position offset accepted
    exact textPosition_byteOffset known accepted
  · intro offset further position position' larger positioned positioned'
    exact textPosition_mono known larger positioned positioned'
  · intro front back whole
    exact textPosition_inside known whole encoding

end Opaal.Syntax
