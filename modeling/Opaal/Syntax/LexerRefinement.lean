import Opaal.Syntax.Scan

/-!
# The lexer computes the scan functions

Every rule of the byte-level lexer, started on a scalar boundary, ends on one
without a panic, and emits exactly the lexeme `Scan` names.
-/

namespace Opaal.Syntax

open Opaal.Text List
open Scan

namespace Lexer

variable {source : SourceFile} {lexer : Lexer} {front tail : List Char}

/-- The cursor stands on a boundary, with `front` behind it and `tail` ahead. -/
structure At (source : SourceFile) (lexer : Lexer) (front tail : List Char) : Prop where
  text : source.text = front ++ tail
  position : lexer.position = width front

/-- What the scan functions see of a lexer state. -/
def view (lexer : Lexer) (front : List Char) : View where
  contexts := lexer.contexts
  start := lexer.position == 0
  after := lexer.tokens.head?.any (endsTokenBoundary ·.kind)
  lineBlank := (front.reverse.takeWhile (· != '\n')).all (onAscii isBlank)

@[simp] theorem view_contexts (lexer : Lexer) (front : List Char) :
    (lexer.view front).contexts = lexer.contexts := rfl

/-- The state after taking a lexeme. -/
def emit (source : SourceFile) (lexer : Lexer) (lexeme : Lexeme) : Lexer where
  position := lexer.position + width lexeme.text
  tokens := ⟨lexeme.kind, ⟨source.id, lexer.position, lexer.position + width lexeme.text⟩⟩ :: lexer.tokens
  contexts := lexeme.contexts

/-- The state with the cursor moved over a piece of text. -/
def moved (lexer : Lexer) (piece : List Char) : Lexer := { lexer with position := lexer.position + width piece }

@[simp] theorem moved_nil (lexer : Lexer) : lexer.moved [] = lexer := rfl

@[simp] theorem moved_moved (lexer : Lexer) (piece more : List Char) :
    (lexer.moved piece).moved more = lexer.moved (piece ++ more) := by
  simp [Lexer.moved, Nat.add_assoc]

variable {piece : List Char} {c : Char} {accepts : UInt8 → Bool} {base : Lexer} {stops : List Char → Bool}
  {stopsM : LexM Bool} {spelling : String}

theorem At.moved (cursor : At source lexer front (piece ++ tail)) :
    At source (lexer.moved piece) (front ++ piece) tail :=
  ⟨by rw [cursor.text, append_assoc], by simp [Lexer.moved, cursor.position]⟩

theorem At.step (cursor : At source lexer front (c :: tail)) :
    At source (lexer.moved [c]) (front ++ [c]) tail := by
  have split : At source lexer front ([c] ++ tail) := cursor
  exact split.moved

section

variable (cursor : At source lexer front tail)
include cursor

theorem At.le_len : lexer.position + width tail = source.len := by
  rw [SourceFile.len, cursor.text, width_append, cursor.position]

theorem At.lt_len_iff : lexer.position < source.len ↔ tail ≠ [] := by
  rw [← cursor.le_len]
  constructor
  · rintro less rfl
    simp at less
  · intro nonempty
    have := width_pos_of_ne_nil nonempty
    omega

/-! ## Primitive operations -/

theorem rest_run : (rest source).run lexer = some (tail, lexer) := by
  simp [rest, cursor.text, cursor.position, tailAt_width]

theorem startsWith_run (spelling : String) :
    (startsWith source spelling).run lexer = some (starts spelling tail, lexer) := by
  simp [startsWith, rest_run cursor, starts]

end

theorem here_run : (here).run lexer = some (lexer.position, lexer) := rfl

theorem advance_run (count : Nat) :
    (advance count).run lexer = some ((), { lexer with position := lexer.position + count }) := rfl

theorem advance_moved (lexer : Lexer) (piece : List Char) (count : Nat) (sized : width piece = count) :
    (advance count).run lexer = some ((), lexer.moved piece) := by
  rw [advance_run, Lexer.moved, sized]

theorem currentByte_run (cursor : At source lexer front tail) :
    (currentByte source).run lexer = some ((bytes tail)[0]?, lexer) := by
  simp [currentByte, cursor.text, cursor.position, bytes_getElem_width]

/-- A byte test is a test of the next scalar. -/
theorem currentByteIs_run (cursor : At source lexer front tail) (onlyAscii : ∀ b, accepts b → b.toNat < 128) :
    (currentByteIs source accepts).run lexer = some (headIs accepts tail, lexer) := by
  cases tail with
  | nil => simp [currentByteIs, currentByte_run cursor, bytes, headIs]
  | cons => simp [currentByteIs, currentByte_run cursor, firstByte_any onlyAscii, headIs]

theorem advanceScalar_run (cursor : At source lexer front (c :: tail)) :
    (advanceScalar source).run lexer = some ((), lexer.moved [c]) := by
  simp [advanceScalar, rest_run cursor, advance_run, Lexer.moved]

/-- Pushing the scalars just passed never fails. -/
theorem push_run (cursor : At source lexer front (piece ++ tail)) (nonempty : piece ≠ []) (kind : TokenKind) :
    (push source kind lexer.position).run (lexer.moved piece) =
      some ((), emit source lexer ⟨kind, piece, lexer.contexts⟩) := by
  have startBoundary : IsBoundary source.text lexer.position := by
    rw [cursor.text, cursor.position]
    exact isBoundary_width_append _ _
  have stopBoundary : IsBoundary source.text (lexer.moved piece).position := by
    rw [cursor.moved.text, cursor.moved.position]
    exact isBoundary_width_append _ _
  have ordered : lexer.position ≤ (lexer.moved piece).position := Nat.le_add_right _ _
  have made := SourceFile.span_ok ordered startBoundary stopBoundary
  simp only [Lexer.moved] at made
  simp [push, Lexer.moved, made, Span.isEmpty, emit, nonempty]

theorem push_piece (cursor : At source lexer front tail) (piece : List Char) (ahead : piece <+: tail)
    (nonempty : piece ≠ []) (kind : TokenKind) :
    (push source kind lexer.position).run (lexer.moved piece) =
      some ((), emit source lexer ⟨kind, piece, lexer.contexts⟩) := by
  obtain ⟨_, rfl⟩ := ahead
  exact push_run cursor nonempty kind

theorem isLoneCarriageReturn_run (cursor : At source lexer front tail) :
    (isLoneCarriageReturn source).run lexer = some (loneCarriageReturn tail, lexer) := by
  simp [isLoneCarriageReturn, startsWith_run cursor, loneCarriageReturn]

theorem isTokenBoundary_run (front : List Char) :
    (isTokenBoundary).run lexer = some ((lexer.view front).boundary, lexer) := rfl

/-! ## Loops -/

/-- A later state of one rule: the cursor has moved on, nothing has been emitted. -/
structure Ahead (base lexer : Lexer) : Prop where
  tokens : lexer.tokens = base.tokens
  contexts : lexer.contexts = base.contexts
  position : base.position ≤ lexer.position

theorem Ahead.refl (lexer : Lexer) : Ahead lexer lexer := ⟨rfl, rfl, Nat.le_refl _⟩

theorem Ahead.moved (ahead : Ahead base lexer) (piece : List Char) :
    Ahead base (lexer.moved piece) :=
  ⟨ahead.tokens, ahead.contexts, Nat.le_trans ahead.position (Nat.le_add_right _ _)⟩

theorem width_lt_loopBound (cursor : At source lexer front tail) : width tail < loopBound source := by
  have total := cursor.le_len
  simp only [loopBound]
  omega

/-- A bounded loop that tests the text ahead and steps over one scalar moves over
the run `until_` names, as long as the bound exceeds the bytes ahead. -/
theorem advanceWhile_run {continues : LexM Bool} {step : LexM Unit} (atEnd : stops [] = true)
    (test : ∀ {lexer : Lexer} {front tail}, At source lexer front tail → Ahead base lexer → continues.run lexer = some (!stops tail, lexer))
    (advances : ∀ {lexer : Lexer} {front tail} {c : Char}, At source lexer front (c :: tail) → stops (c :: tail) = false → step.run lexer = some ((), lexer.moved [c]))
    (bound : Nat) :
    ∀ {lexer : Lexer} {front tail : List Char}, At source lexer front tail → Ahead base lexer →
      width tail < bound →
      (advanceWhile continues step bound).run lexer = some ((), lexer.moved (until_ stops tail)) := by
  induction bound with
  | zero =>
    intro lexer front tail cursor ahead enough
    omega
  | succ bound ih =>
    intro lexer front tail cursor ahead enough
    simp only [advanceWhile, StateT.run_bind, test cursor ahead]
    cases tail with
    | nil => simp [atEnd, until_]
    | cons c more =>
      by_cases stopped : stops (c :: more) = true
      · simp [stopped, until_]
      · have continued : stops (c :: more) = false := by simpa using stopped
        have positive := Char.utf8Size_pos c
        have cursor' : At source (lexer.moved [c]) (front ++ [c]) more := cursor.step
        have result := ih cursor' (ahead.moved [c]) (by simp only [width_cons] at enough; omega)
        simp [continued, until_, advances cursor continued, result]

theorem bytesWhile_eq_until (accepts : UInt8 → Bool) (tail : List Char) :
    bytesWhile accepts tail = until_ (fun tail => !headIs accepts tail) tail := by
  induction tail with
  | nil => rfl
  | cons c _ ih =>
    simp only [bytesWhile] at ih
    by_cases accepted : onAscii accepts c = true
    · simp [bytesWhile, until_, headIs, accepted, ih]
    · simp [bytesWhile, until_, headIs, accepted]

theorem until_or_isEmpty (stops : List Char → Bool) (tail : List Char) :
    until_ (fun tail => tail.isEmpty || stops tail) tail = until_ stops tail := by
  induction tail with
  | nil => rfl
  | cons _ _ ih => simp [until_, ih]

theorem skipBytes_run (cursor : At source lexer front tail) (onlyAscii : ∀ b, accepts b → b.toNat < 128) :
    (skipBytes source accepts).run lexer = some ((), lexer.moved (bytesWhile accepts tail)) := by
  rw [bytesWhile_eq_until]
  refine advanceWhile_run rfl ?_ ?_ (loopBound source) cursor (Ahead.refl lexer) (width_lt_loopBound cursor)
  · intro lexer front tail cursor _
    simpa using currentByteIs_run cursor onlyAscii
  · intro lexer front tail c cursor accepted
    have ascii := onAscii_width (show onAscii accepts c = true by simpa [headIs] using accepted)
    exact advance_moved _ _ 1 (by simp [ascii])

/-- The loop of `skipScalarsUntil`, from any state of one rule and with any bound
that is large enough. -/
theorem skipScalarsLoop_run (cursor : At source lexer front tail)
    (test : ∀ {lexer' : Lexer} {front c tail}, At source lexer' front (c :: tail) → Ahead base lexer' → stopsM.run lexer' = some (stops (c :: tail), lexer'))
    (ahead : Ahead base lexer) {bound : Nat} (enough : width tail < bound) :
    (advanceWhile (do if (← here) < source.len then return !(← stopsM) else return false)
      (advanceScalar source) bound).run lexer = some ((), lexer.moved (until_ stops tail)) := by
  rw [← until_or_isEmpty]
  refine advanceWhile_run rfl ?_ ?_ bound cursor ahead enough
  · intro lexer' front tail cursor' ahead
    have inside := cursor'.lt_len_iff
    cases tail with
    | nil => simp [here_run, inside]
    | cons => simp [here_run, inside, test cursor' ahead]
  · intro lexer front tail c cursor _
    exact advanceScalar_run cursor

theorem skipScalarsUntil_run (cursor : At source lexer front tail)
    (test : ∀ {lexer' : Lexer} {front c tail}, At source lexer' front (c :: tail) → Ahead lexer lexer' → stopsM.run lexer' = some (stops (c :: tail), lexer')) :
    (skipScalarsUntil source stopsM).run lexer = some ((), lexer.moved (until_ stops tail)) :=
  skipScalarsLoop_run cursor test (Ahead.refl lexer) (width_lt_loopBound cursor)

/-! ## Byte classes -/

variable (b : UInt8)

theorem isAsciiDigit_ascii (accepted : isAsciiDigit b) : b.toNat < 128 := by
  simp only [isAsciiDigit, Bool.and_eq_true, decide_eq_true_eq, UInt8.le_iff_toNat_le] at accepted
  have bound : '9'.toUInt8.toNat = 57 := rfl
  omega

theorem isAsciiAlphabetic_ascii (accepted : isAsciiAlphabetic b) : b.toNat < 128 := by
  simp only [isAsciiAlphabetic, Bool.and_eq_true, Bool.or_eq_true, decide_eq_true_eq,
    UInt8.le_iff_toNat_le] at accepted
  have lower : 'z'.toUInt8.toNat = 122 := rfl
  have upper : 'Z'.toUInt8.toNat = 90 := rfl
  omega

theorem isAsciiHexdigit_ascii (accepted : isAsciiHexdigit b) : b.toNat < 128 := by
  simp only [isAsciiHexdigit, Bool.or_eq_true, Bool.and_eq_true, decide_eq_true_eq,
    UInt8.le_iff_toNat_le] at accepted
  have lower : 'f'.toUInt8.toNat = 102 := rfl
  have upper : 'F'.toUInt8.toNat = 70 := rfl
  rcases accepted with (digit | letter) | letter
  · exact isAsciiDigit_ascii b digit
  · omega
  · omega

theorem isOctalDigit_ascii (accepted : isOctalDigit b) : b.toNat < 128 := by
  simp only [isOctalDigit, Bool.and_eq_true, decide_eq_true_eq, UInt8.le_iff_toNat_le] at accepted
  have bound : '7'.toUInt8.toNat = 55 := rfl
  omega

/-- A byte from a list of ASCII characters. -/
theorem any_ascii (chars : List Char) (small : chars.all (fun c => c.toUInt8.toNat < 128)) (b : UInt8)
    (accepted : chars.any (fun c => b == c.toUInt8)) : b.toNat < 128 := by
  simp only [any_eq_true, beq_iff_eq] at accepted
  simp only [all_eq_true, decide_eq_true_eq] at small
  obtain ⟨c, member, rfl⟩ := accepted
  exact small c member

theorem isBinaryDigit_ascii (accepted : isBinaryDigit b) : b.toNat < 128 :=
  any_ascii ['0', '1'] (by decide) b (by simpa [isBinaryDigit] using accepted)

theorem isBlank_ascii (accepted : isBlank b) : b.toNat < 128 :=
  any_ascii [' ', '\t'] (by decide) b (by simpa [isBlank] using accepted)

theorem isIdentifierStart_ascii (accepted : isIdentifierStart b) : b.toNat < 128 := by
  simp only [isIdentifierStart, Bool.or_eq_true, beq_iff_eq] at accepted
  rcases accepted with letter | rfl
  · exact isAsciiAlphabetic_ascii b letter
  · decide

theorem isIdentifierContinue_ascii (accepted : isIdentifierContinue b) : b.toNat < 128 := by
  simp only [isIdentifierContinue, Bool.or_eq_true] at accepted
  rcases accepted with start | digit
  · exact isIdentifierStart_ascii b start
  · exact isAsciiDigit_ascii b digit

theorem isSimpleEscape_ascii (accepted : isSimpleEscape b) : b.toNat < 128 :=
  any_ascii _ (by decide) b accepted

theorem isSign_ascii (accepted : isSign b) : b.toNat < 128 :=
  any_ascii ['+', '-'] (by decide) b (by simpa [isSign] using accepted)

theorem isExponentMark_ascii (accepted : isExponentMark b) : b.toNat < 128 :=
  any_ascii ['e', 'E'] (by decide) b (by simpa [isExponentMark] using accepted)

theorem orUnderscore_ascii (onlyAscii : ∀ b, accepts b → b.toNat < 128) (b : UInt8) (accepted : accepts b || b == '_'.toUInt8) : b.toNat < 128 := by
  simp only [Bool.or_eq_true, beq_iff_eq] at accepted
  rcases accepted with digit | rfl
  · exact onlyAscii b digit
  · decide

theorem endsWordText_ascii (accepted : endsWordText b) : b.toNat < 128 := by
  simp only [endsWordText, operatorOrDelimiterStartsHere, Bool.or_eq_true, beq_iff_eq] at accepted
  rcases accepted with (blank | operator) | rfl
  · exact any_ascii _ (by decide) b blank
  · exact any_ascii operatorOrDelimiterBytes (by decide) b operator
  · decide

/-! ## Rules -/

/-- A rule that recognizes a lexeme, or leaves the state alone. -/
def Emits (source : SourceFile) (rule : LexM Bool) (lexer : Lexer) (found : Option Lexeme) : Prop :=
  rule.run lexer = some (found.elim (false, lexer) (fun lexeme => (true, emit source lexer lexeme)))

section

variable (cursor : At source lexer front tail)
include cursor

/-- Taking a fixed spelling that is next. -/
theorem push_fixed (found : starts spelling tail = true) (count : Nat) (sized : width spelling.toList = count)
    (positive : 0 < count) (kind : TokenKind) :
    (push source kind lexer.position).run { lexer with position := lexer.position + count } =
      some ((), emit source lexer (fixed (lexer.view front) kind spelling)) := by
  obtain ⟨_, rfl⟩ := starts_iff.mp found
  subst sized
  have nonempty : spelling.toList ≠ [] := by
    intro empty
    rw [empty] at positive
    exact absurd positive (by simp)
  exact push_run cursor nonempty kind

theorem lexInvalidSourceCharacter_emits :
    Emits source (lexInvalidSourceCharacter source) lexer
      (invalidSourceCharacter (lexer.view front) tail) := by
  simp only [Emits, lexInvalidSourceCharacter, invalidSourceCharacter]
  by_cases nul : starts "\x00" tail = true
  · simp [here_run, startsWith_run cursor, nul, advance_run, push_fixed cursor nul 1 rfl]
  · by_cases lone : loneCarriageReturn tail = true
    · have carriage : starts "\r" tail = true := by
        simp only [loneCarriageReturn, Bool.and_eq_true] at lone
        exact lone.1
      simp [here_run, startsWith_run cursor, nul, lone, isLoneCarriageReturn_run cursor, advance_run,
        push_fixed cursor carriage 1 rfl]
    · simp [here_run, startsWith_run cursor, nul, lone, isLoneCarriageReturn_run cursor]

theorem lexNewline_emits :
    Emits source (lexNewline source) lexer (newline (lexer.view front) tail) := by
  simp only [Emits, lexNewline, newline]
  by_cases pair : starts "\r\n" tail = true
  · simp [here_run, startsWith_run cursor, pair, advance_run, push_fixed cursor pair 2 rfl]
  · by_cases feed : starts "\n" tail = true
    · simp [here_run, startsWith_run cursor, pair, feed, advance_run, push_fixed cursor feed 1 rfl]
    · simp [here_run, startsWith_run cursor, pair, feed]

theorem lexHorizontalTrivia_emits :
    Emits source (lexHorizontalTrivia source) lexer (horizontalTrivia (lexer.view front) tail) := by
  simp only [Emits, lexHorizontalTrivia, horizontalTrivia]
  by_cases blank : headIs isBlank tail = true
  · have nonempty : bytesWhile isBlank tail ≠ [] := by
      cases tail with
      | nil => simp [headIs] at blank
      | cons c => simp [bytesWhile, show onAscii isBlank c = true from blank]
    simp [currentByteIs_run cursor isBlank_ascii, blank, here_run, skipBytes_run cursor isBlank_ascii,
      push_piece cursor _ (bytesWhile_leads isBlank tail) nonempty]
  · simp [currentByteIs_run cursor isBlank_ascii, blank]

theorem lexBareEscape_emits :
    Emits source (lexBareEscape source) lexer (bareEscape (lexer.view front) tail) := by
  simp only [Emits, lexBareEscape, bareEscape]
  by_cases escape : starts "\\" tail = true
  · obtain ⟨more, rfl⟩ := starts_one '\\' rfl escape
    have after := cursor.step
    have opened := advance_moved lexer ['\\'] 1 rfl
    by_cases pair : starts "\r\n" more = true
    · obtain ⟨back, split⟩ := starts_iff.mp pair
      have crossed := advance_moved (lexer.moved ['\\']) ['\r', '\n'] 2 rfl
      have taken := push_piece cursor ['\\', '\r', '\n'] ⟨back, by rw [split]; rfl⟩ (by simp)
      simp [startsWith_run cursor, escape, here_run, opened, startsWith_run after, pair, crossed, taken, fixed]
    · by_cases feed : starts "\n" more = true
      · obtain ⟨back, split⟩ := starts_iff.mp feed
        have crossed := advance_moved (lexer.moved ['\\']) ['\n'] 1 rfl
        have taken := push_piece cursor ['\\', '\n'] ⟨back, by rw [split]; rfl⟩ (by simp)
        simp [startsWith_run cursor, escape, here_run, opened, startsWith_run after, pair, feed, crossed, taken,
          fixed]
      · -- the backslash takes the next scalar along, if the source can hold one there
        have inside := after.lt_len_iff
        have alone := push_piece cursor ['\\'] ⟨more, rfl⟩ (by simp)
        cases more with
        | nil =>
          simp [startsWith_run cursor, escape, here_run, opened, startsWith_run after, pair, feed, inside, alone,
            escapedScalar]
          rfl
        | cons c back =>
          have taken := push_piece cursor ['\\', c] ⟨back, rfl⟩ (by simp)
          by_cases nul : starts "\x00" (c :: back) = true
          · simp [startsWith_run cursor, escape, here_run, opened, startsWith_run after, pair, feed, inside, nul,
              alone, escapedScalar]
            rfl
          · by_cases lone : loneCarriageReturn (c :: back) = true
            · simp [startsWith_run cursor, escape, here_run, opened, startsWith_run after, pair, feed, inside,
                nul, lone, isLoneCarriageReturn_run after, alone, escapedScalar]
              rfl
            · simp [startsWith_run cursor, escape, here_run, opened, startsWith_run after, pair, feed, inside,
                nul, lone, isLoneCarriageReturn_run after, advanceScalar_run after, taken, escapedScalar]
              rfl
  · simp [startsWith_run cursor, escape]

theorem startsDocumentationComment_run {later : Lexer} :
    (startsDocumentationComment source lexer.position).run later =
      some (starts "##" tail && (lexer.view front).lineBlank, later) := by
  have tailEq : tailAt source.text lexer.position = some tail := by rw [cursor.text, cursor.position, tailAt_width]
  have headEq : headAt source.text lexer.position = some front := by
    rw [cursor.text, cursor.position, headAt_width]
  by_cases marked : starts "##" tail = true
  · have spelled : ['#', '#'].isPrefixOf tail = true := marked
    simp [startsDocumentationComment, tailEq, headEq, marked, spelled, view]
  · have spelled : ['#', '#'].isPrefixOf tail = false := by
      simpa [starts] using (Bool.not_eq_true _).mp marked
    simp [startsDocumentationComment, tailEq, marked, spelled]

theorem atCommentEnd_run :
    (atCommentEnd source).run lexer = some (endsComment tail, lexer) := by
  simp [atCommentEnd, startsWith_run cursor, isLoneCarriageReturn_run cursor, endsComment]

theorem lexComment_emits :
    Emits source (lexComment source) lexer (comment (lexer.view front) tail) := by
  simp only [Emits, lexComment, comment]
  by_cases hash : starts "#" tail = true
  · by_cases boundary : (lexer.view front).boundary = true
    · have scanned := skipScalarsUntil_run cursor (fun cursor' _ => atCommentEnd_run cursor')
      have nonempty : until_ endsComment tail ≠ [] := by
        obtain ⟨_, rfl⟩ := starts_one '#' rfl hash
        simp [until_, endsComment, starts, loneCarriageReturn]
      have taken := push_piece cursor _ (until_leads endsComment tail) nonempty
      simp [startsWith_run cursor, hash, isTokenBoundary_run front, boundary, here_run, scanned,
        startsDocumentationComment_run cursor, taken]
    · simp [startsWith_run cursor, hash, isTokenBoundary_run front, boundary]
  · simp [startsWith_run cursor, hash]

theorem atSingleQuotedEnd_run :
    (atSingleQuotedEnd source).run lexer = some (endsSingleQuoted tail, lexer) := by
  simp [atSingleQuotedEnd, startsWith_run cursor, isLoneCarriageReturn_run cursor, endsSingleQuoted]

/-- The cursor after a run, with what follows the run ahead. -/
theorem At.afterRun (ahead : piece <+: tail) :
    At source (lexer.moved piece) (front ++ piece) (tail.drop piece.length) := by
  obtain ⟨_, rfl⟩ := ahead
  rw [drop_left]
  exact cursor.moved

/-- Taking a one-byte closing spelling when it is next. -/
theorem skipIfNext_run (spelling : String) (c : Char) (spelled : spelling.toList = [c]) (ascii : c.utf8Size = 1) :
    (skipIfNext source spelling).run lexer = some ((), lexer.moved (closing spelling tail)) := by
  have sized : width spelling.toList = 1 := by simp [spelled, ascii]
  by_cases found : starts spelling tail = true
  · simp [skipIfNext, startsWith_run cursor, found, closing, advance_moved _ _ _ sized]
  · simp [skipIfNext, startsWith_run cursor, found, closing]

theorem lexSingleQuoted_emits :
    Emits source (lexSingleQuoted source) lexer (singleQuoted (lexer.view front) tail) := by
  simp only [Emits, lexSingleQuoted, singleQuoted]
  by_cases quote : starts "'" tail = true
  · obtain ⟨more, rfl⟩ := starts_one '\'' rfl quote
    have opened := advance_moved lexer ['\''] 1 rfl
    have after := cursor.step
    have scanned := skipScalarsUntil_run after (fun cursor' _ => atSingleQuotedEnd_run cursor')
    have body := until_leads endsSingleQuoted more
    have closed := skipIfNext_run (after.afterRun body) "'" '\'' rfl rfl
    have whole := append_leads body (closing_leads "'" _)
    have taken := push_piece cursor _ (cons_prefix_cons.mpr ⟨rfl, whole⟩) (by simp)
    simp only [moved_moved, cons_append, nil_append] at scanned closed taken
    simp [startsWith_run cursor, quote, here_run, opened, scanned, closed, taken]
  · simp [startsWith_run cursor, quote]

theorem lexDoubleQuoteStart_emits :
    Emits source (lexDoubleQuoteStart source) lexer (doubleQuoteStart (lexer.view front) tail) := by
  simp only [Emits, lexDoubleQuoteStart, doubleQuoteStart]
  by_cases quote : starts "\"" tail = true
  · simp [startsWith_run cursor, quote, here_run, advance_run, push_fixed cursor quote 1 rfl]
    rfl
  · simp [startsWith_run cursor, quote]

theorem lexRemovedDollarSyntax_emits :
    Emits source (lexRemovedDollarSyntax source) lexer (removedDollarSyntax (lexer.view front) tail) := by
  simp only [Emits, lexRemovedDollarSyntax, removedDollarSyntax]
  by_cases dollar : starts "$" tail = true
  · simp [startsWith_run cursor, dollar, here_run, advance_run, push_fixed cursor dollar 1 rfl]
  · simp [startsWith_run cursor, dollar]

end

/-- Testing the next byte for one ASCII character is testing for its spelling. -/
theorem headIs_beq {d : Char} (spelled : spelling.toList = [d]) (ascii : d.utf8Size = 1) (tail : List Char) : headIs (· == d.toUInt8) tail = starts spelling tail := by
  cases tail with
  | nil => simp [headIs, starts, spelled]
  | cons => simp [headIs, starts, spelled, onAscii_beq ascii, List.isPrefixOf]

theorem beq_ascii (d : Char) (ascii : d.utf8Size = 1) (b : UInt8) (accepted : b == d.toUInt8) : b.toNat < 128 := by
  simp only [beq_iff_eq] at accepted
  subst accepted
  rw [Char.utf8Size_eq_one_iff, UInt32.le_iff_toNat_le] at ascii
  have limit : (127 : UInt32).toNat = 127 := rfl
  simp only [Char.toUInt8, UInt32.toNat_toUInt8]
  omega

/-- Testing the current byte for one ASCII character. -/
theorem currentByteIs_beq (cursor : At source lexer front tail) {d : Char} (spelling : String)
    (spelled : spelling.toList = [d]) (ascii : d.utf8Size = 1) :
    (currentByteIs source (· == d.toUInt8)).run lexer = some (starts spelling tail, lexer) := by
  rw [currentByteIs_run cursor (beq_ascii d ascii), headIs_beq spelled ascii]

theorem closeInterpolationIfNeeded_emits (cursor : At source lexer front tail) :
    Emits source (closeInterpolationIfNeeded source) lexer
      (closeInterpolation (lexer.view front) tail) := by
  have braceTest := currentByteIs_beq cursor "\x7d" (d := '}') rfl rfl
  simp only [Emits, closeInterpolationIfNeeded, closeInterpolation, view_contexts]
  by_cases innermost : lexer.contexts.head? = some (.interpolation 0)
  · by_cases brace : starts "\x7d" tail = true
    · simp [innermost, braceTest, brace, here_run, advance_run, push_fixed cursor brace 1 rfl]
      rfl
    · simp [innermost, braceTest, brace]
  · simp [innermost, braceTest]

theorem findOperator_run (cursor : At source lexer front tail) (entries : List (String × Operator)) :
    (findOperator source entries).run lexer =
      some (entries.find? (fun entry => starts entry.1 tail), lexer) := by
  induction entries with
  | nil => rfl
  | cons entry _ ih =>
    by_cases found : starts entry.1 tail = true
    · simp [findOperator, startsWith_run cursor, found]
    · simp [findOperator, startsWith_run cursor, found, ih]

theorem delimiterOf_ascii {b : UInt8} {side : Delimiter} (found : delimiterOf b = some side) : b.toNat < 128 := by
  have listed : ['(', ')', '{', '}', '[', ']'].any (fun c => b == c.toUInt8) = true := by
    by_contra absent
    simp only [any_cons, any_nil, Bool.or_false, Bool.or_eq_true, not_or, Bool.not_eq_true] at absent
    simp [delimiterOf, absent] at found
  exact any_ascii _ (by decide) b listed

theorem firstByte_delimiterOf (c : Char) (more : List Char) :
    ((bytes (c :: more))[0]?).bind delimiterOf = if c.utf8Size = 1 then delimiterOf c.toUInt8 else none := by
  by_cases ascii : c.utf8Size = 1
  · simp [firstByte_of_ascii ascii, ascii]
  · obtain ⟨b, byteEq, large⟩ := firstByte_of_not_ascii ascii more
    have absent : delimiterOf b = none := by
      by_contra present
      obtain ⟨side, found⟩ := Option.ne_none_iff_exists'.mp present
      have small := delimiterOf_ascii found
      omega
    simp [byteEq, absent, ascii]

section

variable (cursor : At source lexer front tail)
include cursor

theorem lexOperatorOrDelimiter_emits :
    Emits source (lexOperatorOrDelimiter source) lexer
      ([closeInterpolation (lexer.view front), Scan.operator (lexer.view front),
        delimiter (lexer.view front)].findSome? (· tail)) := by
  have closes := closeInterpolationIfNeeded_emits cursor
  simp only [Emits] at closes
  cases closed : closeInterpolation (lexer.view front) tail with
  | some => simp [Emits, lexOperatorOrDelimiter, closes, closed]
  | none =>
    cases operator : operators.find? (fun entry => starts entry.1 tail) with
    | some entry =>
      have found : starts entry.1 tail = true := by simpa using List.find?_some operator
      have positive := width_pos_of_ne_nil (operators_nonempty entry (mem_of_find?_eq_some operator))
      simp [Emits, lexOperatorOrDelimiter, closes, closed, here_run, findOperator_run cursor, operator,
        advance_run, push_fixed cursor found _ rfl positive, Scan.operator]
    | none =>
      cases tail with
      | nil =>
        simp [Emits, lexOperatorOrDelimiter, closes, closed, here_run, findOperator_run cursor, operator,
          currentByte_run cursor, bytes, Scan.operator, delimiter]
      | cons c more =>
        simp only [Emits, lexOperatorOrDelimiter, StateT.run_bind, closes, closed, Option.elim_none,
          Option.bind_eq_bind, Option.bind_some, Bool.false_eq_true, if_false, here_run,
          findOperator_run cursor, operator, currentByte_run cursor, firstByte_delimiterOf]
        by_cases ascii : c.utf8Size = 1
        · cases found : delimiterOf c.toUInt8 with
          | none => simp [found, closed, Scan.operator, operator, delimiter]
          | some side =>
            -- the nesting depth is noted before the token is pushed
            have noted : At source { lexer with contexts := noteNested side lexer.contexts } front (c :: more) :=
              ⟨cursor.text, cursor.position⟩
            have crossed := advance_moved { lexer with contexts := noteNested side lexer.contexts } [c] 1
              (by simp [ascii])
            have taken := push_piece noted [c] ⟨more, rfl⟩ (by simp) (.delimiter side)
            simp [ascii, found, closed, Scan.operator, operator, delimiter, noteNestedInterpolation,
              crossed, taken]
            rfl
        · simp [ascii, closed, Scan.operator, operator, delimiter]

theorem textFrom_run (piece : List Char) (ahead : piece <+: tail) :
    (textFrom source lexer.position).run (lexer.moved piece) = some (piece, lexer.moved piece) := by
  obtain ⟨more, rfl⟩ := ahead
  have tailEq : tailAt source.text lexer.position = some (piece ++ more) := by
    rw [cursor.text, cursor.position, tailAt_width]
  have count : (lexer.moved piece).position - lexer.position = width piece := Nat.add_sub_cancel_left _ _
  simp [textFrom, tailEq, count, headAt_width]

theorem lexIdentifier_emits :
    Emits source (lexIdentifier source) lexer (identifier (lexer.view front) tail) := by
  have test := currentByteIs_run cursor isIdentifierStart_ascii
  cases tail with
  | nil => simp [Emits, lexIdentifier, identifier, test, headIs]
  | cons c more =>
    by_cases first : onAscii isIdentifierStart c = true
    · have opened := advance_moved lexer [c] 1 (by simp [onAscii_width first])
      have after := cursor.step
      have scanned := skipBytes_run after isIdentifierContinue_ascii
      have ahead : c :: bytesWhile isIdentifierContinue more <+: c :: more :=
        cons_prefix_cons.mpr ⟨rfl, bytesWhile_leads _ _⟩
      have spelled := textFrom_run cursor _ ahead
      have taken := push_piece cursor _ ahead (by simp)
      simp [Emits, lexIdentifier, identifier, test, headIs, first, here_run, opened, scanned, spelled,
        taken]
    · simp [Emits, lexIdentifier, identifier, test, headIs, first]

/-! ## Numbers -/

theorem consumeDigits_run (onlyAscii : ∀ b, accepts b → b.toNat < 128) :
    (consumeDigits source accepts).run lexer = some ((), lexer.moved (digitsWhile accepts tail)) :=
  skipBytes_run cursor (orUnderscore_ascii onlyAscii)

/-- The byte past a piece of text is the first byte of what follows it. -/
theorem peekByte_run (piece more : List Char) (split : tail = piece ++ more) (offset : Nat)
    (sized : width piece = offset) :
    (peekByte source offset).run lexer = some ((bytes more)[0]?, lexer) := by
  have reached : (bytes source.text)[lexer.position + offset]? = (bytes more)[0]? := by
    rw [cursor.text, cursor.position, split, ← sized, ← append_assoc, ← width_append]
    exact bytes_getElem_width _ _
  simp [peekByte, reached]

end

theorem firstByte_headIs (onlyAscii : ∀ b, accepts b → b.toNat < 128) (tail : List Char) : ((bytes tail)[0]?).any accepts = headIs accepts tail := by
  cases tail with
  | nil => rfl
  | cons c more => exact firstByte_any onlyAscii c more

theorem lexFraction_run (cursor : At source lexer front tail) :
    (lexFraction source).run lexer = some (!(fraction tail).isEmpty, lexer.moved (fraction tail)) := by
  have test := currentByteIs_beq cursor "." (d := '.') rfl rfl
  by_cases dot : starts "." tail = true
  · obtain ⟨more, rfl⟩ := starts_one '.' rfl dot
    have peeked := peekByte_run cursor ['.'] more rfl 1 rfl
    have crossed := advance_moved lexer ['.'] 1 rfl
    have scanned := consumeDigits_run cursor.step isAsciiDigit_ascii
    by_cases digit : headIs isAsciiDigit more = true
    · simp [lexFraction, test, dot, peeked, firstByte_headIs isAsciiDigit_ascii, digit, crossed, scanned,
        fraction]
    · simp [lexFraction, test, dot, peeked, firstByte_headIs isAsciiDigit_ascii, digit, fraction]
  · simp [lexFraction, test, dot, peekByte, fraction]

theorem skipSign_run (cursor : At source lexer front tail) :
    (skipSign source).run lexer = some ((), lexer.moved (signOf tail)) := by
  have test := currentByteIs_run cursor isSign_ascii
  by_cases signed : headIs isSign tail = true
  · obtain ⟨c, _, rfl, ascii⟩ := headIs_split signed
    have crossed := advance_moved lexer [c] 1 (by simp [ascii])
    simp [skipSign, test, signed, signOf, crossed]
  · simp [skipSign, test, signed, signOf]

theorem exponentHasDigits_run (cursor : At source lexer front (c :: tail)) (ascii : c.utf8Size = 1) :
    (exponentHasDigits source).run lexer =
      some (headIs isAsciiDigit (tail.drop (signOf tail).length), lexer) := by
  have peeked := peekByte_run cursor [c] tail rfl 1 (by simp [ascii])
  by_cases signed : headIs isSign tail = true
  · obtain ⟨sign, more, rfl, signAscii⟩ := headIs_split signed
    have further := peekByte_run cursor [c, sign] more rfl 2 (by simp [ascii, signAscii])
    simp [exponentHasDigits, peeked, firstByte_headIs isSign_ascii, signed, further,
      firstByte_headIs isAsciiDigit_ascii, signOf]
  · simp [exponentHasDigits, peeked, firstByte_headIs isSign_ascii, signed,
      firstByte_headIs isAsciiDigit_ascii, signOf]

section

variable (cursor : At source lexer front tail)
include cursor

theorem lexExponent_run :
    (lexExponent source).run lexer = some (!(exponent tail).isEmpty, lexer.moved (exponent tail)) := by
  have test := currentByteIs_run cursor isExponentMark_ascii
  by_cases mark : headIs isExponentMark tail = true
  · obtain ⟨c, more, rfl, ascii⟩ := headIs_split mark
    have crossed := advance_moved lexer [c] 1 (by simp [ascii])
    have signed := skipSign_run cursor.step
    have scanned := consumeDigits_run (cursor.step.afterRun (signOf_leads more)) isAsciiDigit_ascii
    simp only [moved_moved, cons_append, nil_append] at scanned signed
    by_cases digit : headIs isAsciiDigit (more.drop (signOf more).length) = true
    · simp [lexExponent, test, mark, exponentHasDigits_run cursor ascii, digit, crossed, signed, scanned,
        exponent]
    · simp [lexExponent, test, mark, exponentHasDigits_run cursor ascii, digit, exponent]
  · simp [lexExponent, test, mark, exponentHasDigits, peekByte, exponent]

/-- A radix prefix, its digits, and the token. -/
theorem lexRadix_run (onlyAscii : ∀ b, accepts b → b.toNat < 128) (sized : width spelling.toList = 2)
    (long : spelling.toList.length = 2) (found : starts spelling tail = true) :
    (lexRadix source accepts lexer.position).run lexer =
      some ((), emit source lexer
        ⟨.number .integer, spelling.toList ++ digitsWhile accepts (tail.drop 2), lexer.contexts⟩) := by
  obtain ⟨more, rfl⟩ := starts_iff.mp found
  have dropped : (spelling.toList ++ more).drop 2 = more := by
    rw [← long]
    simp
  have crossed := advance_moved lexer spelling.toList 2 sized
  have scanned := consumeDigits_run cursor.moved onlyAscii
  have nonempty : spelling.toList ++ digitsWhile accepts more ≠ [] := by
    intro empty
    simp only [append_eq_nil_iff] at empty
    rw [empty.1] at long
    exact absurd long (by simp)
  have taken := push_piece cursor (spelling.toList ++ digitsWhile accepts more)
    ((prefix_append_right_inj _).mpr (digitsWhile_leads _ _)) nonempty
  simp [lexRadix, crossed, scanned, taken, dropped]

theorem lexDecimal_run (digit : headIs isAsciiDigit tail = true) :
    (lexDecimal source lexer.position).run lexer =
      some ((), emit source lexer ⟨(decimal tail).1, (decimal tail).2, lexer.contexts⟩) := by
  have wholePrefix := digitsWhile_leads isAsciiDigit tail
  have whole := consumeDigits_run cursor isAsciiDigit_ascii
  have part := lexFraction_run (cursor.afterRun wholePrefix)
  have power := lexExponent_run (cursor.afterRun (append_leads wholePrefix (fraction_leads _)))
  have taken := push_piece cursor _ (decimal_leads tail) (decimal_ne_nil digit)
  simp only [moved_moved] at part power
  simp only [decimal] at taken
  simp only [lexDecimal, StateT.run_bind, whole, part, power, taken, Option.bind_eq_bind, Option.bind_some,
    decimal]

theorem lexNumber_emits :
    Emits source (lexNumber source) lexer (number (lexer.view front) tail) := by
  have test := currentByteIs_run cursor isAsciiDigit_ascii
  by_cases digit : headIs isAsciiDigit tail = true
  · simp only [Emits, lexNumber, number, digit, if_true]
    by_cases hexLower : starts "0x" tail = true
    · simp [test, digit, here_run, startsWith_run cursor, hexLower, radix,
        lexRadix_run cursor isAsciiHexdigit_ascii rfl rfl hexLower]
    by_cases hexUpper : starts "0X" tail = true
    · simp [test, digit, here_run, startsWith_run cursor, hexLower, hexUpper, radix,
        lexRadix_run cursor isAsciiHexdigit_ascii rfl rfl hexUpper]
    by_cases octalLower : starts "0o" tail = true
    · simp [test, digit, here_run, startsWith_run cursor, hexLower, hexUpper, octalLower, radix,
        lexRadix_run cursor isOctalDigit_ascii rfl rfl octalLower]
    by_cases octalUpper : starts "0O" tail = true
    · simp [test, digit, here_run, startsWith_run cursor, hexLower, hexUpper, octalLower, octalUpper, radix,
        lexRadix_run cursor isOctalDigit_ascii rfl rfl octalUpper]
    by_cases binaryLower : starts "0b" tail = true
    · simp [test, digit, here_run, startsWith_run cursor, hexLower, hexUpper, octalLower, octalUpper, binaryLower,
        radix, lexRadix_run cursor isBinaryDigit_ascii rfl rfl binaryLower]
    by_cases binaryUpper : starts "0B" tail = true
    · simp [test, digit, here_run, startsWith_run cursor, hexLower, hexUpper, octalLower, octalUpper, binaryLower,
        binaryUpper, radix, lexRadix_run cursor isBinaryDigit_ascii rfl rfl binaryUpper]
    simp [test, digit, here_run, startsWith_run cursor, hexLower, hexUpper, octalLower, octalUpper, binaryLower,
      binaryUpper, radix, lexDecimal_run cursor digit]
  · simp [Emits, lexNumber, number, test, digit]

end

/-! ## Words -/

theorem firstByte_cons (c : Char) (more : List Char) : ∃ b, (bytes (c :: more))[0]? = some b := by
  by_cases ascii : c.utf8Size = 1
  · exact ⟨_, firstByte_of_ascii ascii more⟩
  · obtain ⟨b, byteEq, _⟩ := firstByte_of_not_ascii ascii more
    exact ⟨b, byteEq⟩

section

variable (cursor : At source lexer front (c :: tail))
include cursor

theorem atWordEnd_run :
    (atWordEnd source).run lexer = some (endsWord (lexer.view front).boundary (c :: tail), lexer) := by
  have wordEnd := firstByte_any endsWordText_ascii c tail
  have hash := firstByte_any (beq_ascii '#' rfl) c tail
  have spelled : starts "#" (c :: tail) = onAscii (· == '#'.toUInt8) c :=
    (headIs_beq (d := '#') rfl rfl (c :: tail)).symm
  obtain ⟨_, byteEq⟩ := firstByte_cons c tail
  rw [byteEq, Option.any_some] at wordEnd hash
  simp [atWordEnd, currentByte_run cursor, byteEq, isTokenBoundary_run front, endsWord, spelled,
    headIs, ← wordEnd, ← hash]

/-- Past the first scalar of a word the start of the source is behind. -/
theorem atWordEnd_run_later (ahead : Ahead base lexer) (past : 0 < lexer.position) (baseFront : List Char) :
    (atWordEnd source).run lexer = some (endsWord (base.view baseFront).after (c :: tail), lexer) := by
  have moved : (lexer.view front).boundary = (base.view baseFront).after := by
    have position : (lexer.position == 0) = false := by simpa using Nat.ne_of_gt past
    simp [View.boundary, view, position, ahead.tokens]
  rw [atWordEnd_run cursor, moved]

theorem skipScalarsUntil_stop (stopped : stopsM.run lexer = some (true, lexer)) :
    (skipScalarsUntil source stopsM).run lexer = some ((), lexer) := by
  have inside := cursor.lt_len_iff
  simp [skipScalarsUntil, loopBound, advanceWhile, here_run, inside, stopped]

/-- A loop whose first test may differ from the later ones. -/
theorem skipScalarsUntil_first (stops : List Char → Bool) (continued : stopsM.run lexer = some (false, lexer))
    (test : ∀ {lexer' : Lexer} {front d more}, At source lexer' front (d :: more) → Ahead (lexer.moved [c]) lexer' → stopsM.run lexer' = some (stops (d :: more), lexer')) :
    (skipScalarsUntil source stopsM).run lexer = some ((), lexer.moved (c :: until_ stops tail)) := by
  have inside := cursor.lt_len_iff
  have positive := Char.utf8Size_pos c
  have enough : width tail < source.len := by
    have total := cursor.le_len
    simp only [width_cons] at total
    omega
  have rest := skipScalarsLoop_run cursor.step test (Ahead.refl _) enough
  simpa [skipScalarsUntil, loopBound, advanceWhile, here_run, inside, continued, advanceScalar_run cursor]
    using rest

end

section

variable (cursor : At source lexer front tail)
include cursor

theorem lexWordText_run (nonempty : tail ≠ []) :
    (lexWordText source).run lexer = some ((), emit source lexer (wordText (lexer.view front) tail)) := by
  obtain ⟨c, more, rfl⟩ := exists_cons_of_ne_nil nonempty
  have positive := Char.utf8Size_pos c
  have test := atWordEnd_run cursor
  by_cases ended : endsWord (lexer.view front).boundary (c :: more) = true
  · -- a scalar that ends a word and starts nothing else is a word of its own
    rw [ended] at test
    have taken := push_piece cursor [c] ⟨more, rfl⟩ (by simp) .wordText
    simp [lexWordText, here_run, skipScalarsUntil_stop cursor test, advanceScalar_run cursor, taken,
      wordText, ended]
  · have continued : endsWord (lexer.view front).boundary (c :: more) = false := by simpa using ended
    rw [continued] at test
    have scanned := skipScalarsUntil_first cursor (endsWord (lexer.view front).after) test (by
      intro lexer' front' d more' cursor' ahead
      have crossed := ahead.position
      simp only [Lexer.moved, width_cons] at crossed
      have later : Ahead lexer lexer' := ⟨ahead.tokens, ahead.contexts, by omega⟩
      exact atWordEnd_run_later cursor' later (by omega) front)
    have ahead : c :: until_ (endsWord (lexer.view front).after) more <+: c :: more :=
      cons_prefix_cons.mpr ⟨rfl, until_leads _ _⟩
    have taken := push_piece cursor _ ahead (by simp) .wordText
    have past : (lexer.moved (c :: until_ (endsWord (lexer.view front).after) more)).position
        ≠ lexer.position := by
      simp only [Lexer.moved, width_cons]
      omega
    simp [lexWordText, here_run, scanned, past, taken, wordText, continued]

/-! ## Double-quoted strings -/

theorem lexDoubleEscape_emits :
    Emits source (lexDoubleEscape source) lexer (doubleEscape (lexer.view front) tail) := by
  simp only [Emits, lexDoubleEscape, doubleEscape]
  by_cases escape : starts "\\" tail = true
  · obtain ⟨more, rfl⟩ := starts_one '\\' rfl escape
    have after := cursor.step
    have opened := advance_moved lexer ['\\'] 1 rfl
    by_cases pair : starts "\r\n" more = true
    · obtain ⟨back, split⟩ := starts_iff.mp pair
      have crossed := advance_moved (lexer.moved ['\\']) ['\r', '\n'] 2 rfl
      have taken := push_piece cursor ['\\', '\r', '\n'] ⟨back, by rw [split]; rfl⟩ (by simp)
      simp [startsWith_run cursor, escape, here_run, opened, startsWith_run after, pair, crossed, taken, fixed]
    by_cases feed : starts "\n" more = true
    · obtain ⟨back, split⟩ := starts_iff.mp feed
      have crossed := advance_moved (lexer.moved ['\\']) ['\n'] 1 rfl
      have taken := push_piece cursor ['\\', '\n'] ⟨back, by rw [split]; rfl⟩ (by simp)
      simp [startsWith_run cursor, escape, here_run, opened, startsWith_run after, pair, feed, crossed, taken,
        fixed]
    by_cases unicode : starts "u\x7b" more = true
    · obtain ⟨back, split⟩ := starts_iff.mp unicode
      obtain rfl : more = 'u' :: '{' :: back := split
      have crossed := advance_moved (lexer.moved ['\\']) ['u', '{'] 2 rfl
      have braced : At source (lexer.moved ['\\', 'u', '{']) (front ++ ['\\', 'u', '{']) back := by
        have split : At source lexer front (['\\', 'u', '{'] ++ back) := cursor
        exact split.moved
      have digits := skipBytes_run braced isAsciiHexdigit_ascii
      have closed := skipIfNext_run (braced.afterRun (bytesWhile_leads isAsciiHexdigit back)) "\x7d" '}' rfl rfl
      have whole : '\\' :: 'u' :: '{' :: unicodeEscape back <+: '\\' :: 'u' :: '{' :: back := by
        simpa using unicodeEscape_leads back
      have spelled := textFrom_run cursor _ whole
      have taken := push_piece cursor _ whole (by simp)
      simp only [moved_moved, cons_append, nil_append] at crossed digits closed
      simp only [unicodeEscape] at spelled taken
      simp [startsWith_run cursor, escape, here_run, opened, startsWith_run after, pair, feed, unicode, crossed,
        digits, closed, spelled, taken, unicodeEscape]
    cases more with
    | nil =>
      have taken := push_piece cursor ['\\'] ⟨[], rfl⟩ (by simp)
      simp [startsWith_run cursor, escape, here_run, opened, startsWith_run after, pair, feed, unicode,
        currentByte_run after, bytes, taken, headIs]
    | cons c back =>
      have taken := push_piece cursor ['\\', c] ⟨back, rfl⟩ (by simp)
      obtain ⟨b, byteEq⟩ := firstByte_cons c back
      have simple := firstByte_any isSimpleEscape_ascii c back
      rw [byteEq, Option.any_some] at simple
      by_cases known : isSimpleEscape b = true
      · have ascii := onAscii_width (simple.symm.trans known)
        have crossed := advance_moved (lexer.moved ['\\']) [c] 1 (by simp [ascii])
        simp [startsWith_run cursor, escape, here_run, opened, startsWith_run after, pair, feed, unicode,
          currentByte_run after, byteEq, known, crossed, taken, headIs, ← simple]
      · simp [startsWith_run cursor, escape, here_run, opened, startsWith_run after, pair, feed, unicode,
          currentByte_run after, byteEq, known, advanceScalar_run after, taken, headIs, ← simple]
  · simp [startsWith_run cursor, escape]

theorem lexDoubleQuotedBrace_emits :
    Emits source (lexDoubleQuotedBrace source) lexer (doubleQuotedBrace (lexer.view front) tail) := by
  simp only [Emits, lexDoubleQuotedBrace, doubleQuotedBrace]
  by_cases left : starts "\x7b\x7b" tail = true
  · simp [here_run, startsWith_run cursor, left, advance_run, push_fixed cursor left 2 rfl]
  by_cases right : starts "\x7d\x7d" tail = true
  · simp [here_run, startsWith_run cursor, left, right, advance_run, push_fixed cursor right 2 rfl]
  by_cases opened : starts "\x7b" tail = true
  · simp [here_run, startsWith_run cursor, left, right, opened, advance_run, push_fixed cursor opened 1 rfl]
    rfl
  by_cases closed : starts "\x7d" tail = true
  · simp [here_run, startsWith_run cursor, left, right, opened, closed, advance_run,
      push_fixed cursor closed 1 rfl]
  simp [here_run, startsWith_run cursor, left, right, opened, closed]

theorem atDoubleTextEnd_run :
    (atDoubleTextEnd source).run lexer = some (endsDoubleText tail, lexer) := by
  simp [atDoubleTextEnd, startsWith_run cursor, isLoneCarriageReturn_run cursor, endsDoubleText]

theorem lexDoubleText_run (nonempty : tail ≠ []) (inside : endsDoubleText tail = false) :
    (lexDoubleText source).run lexer = some ((), emit source lexer (doubleText (lexer.view front) tail)) := by
  have scanned := skipScalarsUntil_run cursor (fun cursor' _ => atDoubleTextEnd_run cursor')
  have takes : Takes tail (doubleText (lexer.view front) tail) :=
    doubleText_takes nonempty inside
  have taken := push_piece cursor _ takes.leads takes.nonempty .doubleText
  simp only [doubleText] at taken
  simp [lexDoubleText, here_run, scanned, taken, doubleText]

end

/-! ## One token -/

/-- Trying rules in order finds what the first successful one finds. -/
theorem firstOf_emits {rules : List (LexM Bool)} {founds : List (Option Lexeme)}
    (agree : List.Forall₂ (fun rule found => Emits source rule lexer found) rules founds) :
    Emits source (firstOf rules) lexer (founds.findSome? id) := by
  induction agree with
  | nil => rfl
  | cons head _ ih =>
    rename_i rule found rules founds _
    unfold Emits at head ih ⊢
    cases found with
    | none => simpa [firstOf, head] using ih
    | some => simp [firstOf, head]

/-- Rules that one rule of the lexer tries for itself may as well stand in the list. -/
theorem findSome_nested (first second third : Option Lexeme) (founds : List (Option Lexeme)) :
    ([first, second, third].findSome? id :: founds).findSome? id =
      (first :: second :: third :: founds).findSome? id := by
  cases first <;> cases second <;> cases third <;> rfl

section

variable (cursor : At source lexer front tail)
include cursor

theorem normalRules_emit :
    Emits source (firstOf (normalRules source)) lexer
      ((Scan.normalRules (lexer.view front)).findSome? (· tail)) := by
  have found := firstOf_emits (.cons (lexInvalidSourceCharacter_emits cursor)
    (.cons (lexHorizontalTrivia_emits cursor) (.cons (lexNewline_emits cursor)
    (.cons (lexBareEscape_emits cursor) (.cons (lexComment_emits cursor) (.cons (lexSingleQuoted_emits cursor)
    (.cons (lexDoubleQuoteStart_emits cursor) (.cons (lexRemovedDollarSyntax_emits cursor)
    (.cons (lexOperatorOrDelimiter_emits cursor) (.cons (lexIdentifier_emits cursor)
    (.cons (lexNumber_emits cursor) .nil)))))))))))
  have nested := findSome_nested (closeInterpolation (lexer.view front) tail)
    (Scan.operator (lexer.view front) tail) (delimiter (lexer.view front) tail)
    [identifier (lexer.view front) tail, number (lexer.view front) tail]
  simp only [List.findSome?_cons, List.findSome?_nil, id_eq] at found nested
  rw [nested] at found
  exact found

theorem lexNormal_run (nonempty : tail ≠ []) :
    (lexNormal source).run lexer = some ((), emit source lexer (Scan.normal (lexer.view front) tail)) := by
  have rules := normalRules_emit cursor
  unfold Emits at rules
  simp only [lexNormal, Scan.normal, StateT.run_bind, rules]
  cases (Scan.normalRules (lexer.view front)).findSome? (· tail) with
  | some => simp
  | none => simp [lexWordText_run cursor nonempty]

theorem lexDoubleQuoted_run (nonempty : tail ≠ []) :
    (lexDoubleQuoted source).run lexer =
      some ((), emit source lexer (doubleQuoted (lexer.view front) tail)) := by
  have rules := firstOf_emits (.cons (lexInvalidSourceCharacter_emits cursor)
    (.cons (lexDoubleEscape_emits cursor) .nil))
  have braces := lexDoubleQuotedBrace_emits cursor
  unfold Emits at rules braces
  by_cases quote : starts "\"" tail = true
  · have ended : doubleQuoteEnd (lexer.view front) tail = some ⟨.doubleQuoteEnd, ['"'], lexer.contexts.tail⟩ := by
      simp [doubleQuoteEnd, quote]
    simp [lexDoubleQuoted, startsWith_run cursor, quote, here_run, advance_run, push_fixed cursor quote 1 rfl,
      doubleQuoted, doubleQuotedRules, ended]
    rfl
  · have ended : doubleQuoteEnd (lexer.view front) tail = none := by simp [doubleQuoteEnd, quote]
    cases character : invalidSourceCharacter (lexer.view front) tail with
    | some =>
      simp [lexDoubleQuoted, startsWith_run cursor, quote, rules, character, doubleQuoted,
        doubleQuotedRules, ended]
    | none =>
      cases escape : doubleEscape (lexer.view front) tail with
      | some =>
        simp [lexDoubleQuoted, startsWith_run cursor, quote, rules, character, escape, doubleQuoted,
          doubleQuotedRules, ended]
      | none =>
        cases brace : doubleQuotedBrace (lexer.view front) tail with
        | some =>
          simp [lexDoubleQuoted, startsWith_run cursor, quote, rules, character, escape, braces, brace,
            doubleQuoted, doubleQuotedRules, ended]
        | none =>
          have missed : (doubleQuotedRules (lexer.view front)).findSome? (· tail) = none := by
            simp [doubleQuotedRules, ended, character, escape, brace]
          have text := lexDoubleText_run cursor nonempty (endsDoubleText_of_rules missed)
          simp [lexDoubleQuoted, startsWith_run cursor, quote, rules, character, escape, braces, brace,
            doubleQuoted, missed, text]

/-- One turn of the lexer: the next token is the one `Scan.next` names, and the
progress assertion holds. -/
theorem step_run (nonempty : tail ≠ []) :
    (step source).run lexer = some ((), emit source lexer (Scan.next (lexer.view front) tail)) := by
  have takes := next_takes (lexer.view front) nonempty
  have progress : ¬ (emit source lexer (Scan.next (lexer.view front) tail)).position ≤ lexer.position := by
    have positive := width_pos_of_ne_nil takes.nonempty
    simp only [emit]
    omega
  have quoted := lexDoubleQuoted_run cursor nonempty
  have plain := lexNormal_run cursor nonempty
  unfold Scan.next at progress ⊢
  simp only [view_contexts] at progress ⊢
  cases innermost : lexer.contexts.head?.getD .normal with
  | normal | interpolation =>
    simp only [innermost] at progress
    simp [step, here_run, innermost, plain, progress]
  | doubleQuoted =>
    simp only [innermost] at progress
    simp [step, here_run, innermost, quoted, progress]

/-- The cursor after a turn. -/
theorem At.emit {lexeme : Lexeme} (takes : Takes tail lexeme) :
    At source (emit source lexer lexeme) (front ++ lexeme.text) (tail.drop lexeme.text.length) := by
  have after := cursor.afterRun takes.leads
  exact ⟨after.text, after.position⟩

end

end Lexer

end Opaal.Syntax
