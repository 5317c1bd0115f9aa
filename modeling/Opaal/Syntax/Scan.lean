import Opaal.Syntax.Lexer

/-!
# What one lexer rule recognizes

The rules of the lexer as functions of the text that is left: which scalars the
next token takes, of which kind it is, and which contexts hold after it.  Offsets
and panics do not occur here; `LexerRefinement` shows that the byte-level rules
compute exactly these functions.
-/

namespace Opaal.Syntax

open Opaal.Text List

/-- One recognized token and the contexts after it. -/
structure Lexeme where
  kind : TokenKind
  text : List Char
  contexts : List Context
  deriving DecidableEq, Repr

namespace Scan

/-- The longest run of scalars before the first position that stops it. -/
def until_ (stops : List Char → Bool) : List Char → List Char
  | [] => []
  | c :: tail => if stops (c :: tail) then [] else c :: until_ stops tail

/-- The leading scalars whose bytes are all accepted. -/
def bytesWhile (accepts : UInt8 → Bool) (tail : List Char) : List Char := tail.takeWhile (onAscii accepts)

def digitsWhile (accepts : UInt8 → Bool) (tail : List Char) : List Char :=
  bytesWhile (fun byte => accepts byte || byte == '_'.toUInt8) tail

def starts (spelling : String) (tail : List Char) : Bool := spelling.toList.isPrefixOf tail

def loneCarriageReturn (tail : List Char) : Bool := starts "\r" tail && !starts "\r\n" tail

def headIs (accepts : UInt8 → Bool) : List Char → Bool
  | [] => false
  | c :: _ => onAscii accepts c

/-- What a rule can see besides the text that is left. -/
structure View where
  contexts : List Context
  /-- Nothing has been read. -/
  start : Bool
  /-- The last token ends a boundary. -/
  after : Bool
  /-- Only blanks stand before the cursor on its line. -/
  lineBlank : Bool
  deriving DecidableEq, Repr

/-- Whether `#` starts a comment at the cursor. -/
def View.boundary (view : View) : Bool := view.start || view.after

variable (view : View)

/-- A token that is one fixed spelling. -/
def fixed (kind : TokenKind) (spelling : String) : Lexeme := ⟨kind, spelling.toList, view.contexts⟩

def invalidSourceCharacter (tail : List Char) : Option Lexeme :=
  if starts "\x00" tail then some (fixed view (.invalid .nul) "\x00")
  else if loneCarriageReturn tail then some (fixed view (.invalid .loneCarriageReturn) "\r")
  else none

def horizontalTrivia (tail : List Char) : Option Lexeme :=
  if headIs isBlank tail then some ⟨.whitespace, bytesWhile isBlank tail, view.contexts⟩ else none

def newline (tail : List Char) : Option Lexeme :=
  if starts "\r\n" tail then some (fixed view .newline "\r\n")
  else if starts "\n" tail then some (fixed view .newline "\n")
  else none

/-- The scalar a backslash takes along, unless the source cannot hold it. -/
def escapedScalar (tail : List Char) : List Char :=
  if starts "\x00" tail || loneCarriageReturn tail then [] else tail.take 1

def bareEscape (tail : List Char) : Option Lexeme :=
  if starts "\\" tail then
    let more := tail.tail
    if starts "\r\n" more then some (fixed view .lineContinuation "\\\r\n")
    else if starts "\n" more then some (fixed view .lineContinuation "\\\n")
    else
      let kind := if starts "$" more then .invalid .dollarSyntax else .bareEscape
      some ⟨kind, '\\' :: escapedScalar more, view.contexts⟩
  else none

def endsComment (tail : List Char) : Bool :=
  starts "\n" tail || starts "\r\n" tail || loneCarriageReturn tail || starts "\x00" tail

def comment (tail : List Char) : Option Lexeme :=
  if starts "#" tail && view.boundary then
    let kind := if starts "##" tail && view.lineBlank then .documentationComment else .comment
    some ⟨kind, until_ endsComment tail, view.contexts⟩
  else none

def endsSingleQuoted (tail : List Char) : Bool :=
  starts "'" tail || starts "\x00" tail || loneCarriageReturn tail

/-- A closing spelling, when it is next. -/
def closing (spelling : String) (tail : List Char) : List Char := if starts spelling tail then spelling.toList else []

def singleQuoted (tail : List Char) : Option Lexeme :=
  if starts "'" tail then
    let body := until_ endsSingleQuoted tail.tail
    some ⟨.singleQuoted, '\'' :: body ++ closing "'" (tail.tail.drop body.length), view.contexts⟩
  else none

def doubleQuoteStart (tail : List Char) : Option Lexeme :=
  if starts "\"" tail then some ⟨.doubleQuoteStart, ['"'], .doubleQuoted :: view.contexts⟩ else none

def removedDollarSyntax (tail : List Char) : Option Lexeme :=
  if starts "$" tail then some (fixed view (.invalid .dollarSyntax) "$") else none

def closeInterpolation (tail : List Char) : Option Lexeme :=
  if view.contexts.head? == some (.interpolation 0) && starts "\x7d" tail then
    some ⟨.delimiter .rightBrace, ['}'], view.contexts.tail⟩
  else none

def operator (tail : List Char) : Option Lexeme :=
  (operators.find? (fun entry => starts entry.1 tail)).map fun entry => fixed view (.operator entry.2) entry.1

def delimiter : List Char → Option Lexeme
  | c :: _ =>
    if c.utf8Size = 1 then
      (delimiterOf c.toUInt8).map fun side => ⟨.delimiter side, [c], Lexer.noteNested side view.contexts⟩
    else none
  | [] => none

def identifier : List Char → Option Lexeme
  | c :: tail =>
    if onAscii isIdentifierStart c then
      let text := c :: bytesWhile isIdentifierContinue tail
      some ⟨(keyword text).elim .identifier .keyword, text, view.contexts⟩
    else none
  | [] => none

/-- Prefix and digit class of an integer with an explicit radix. -/
def radix (tail : List Char) : Option (String × (UInt8 → Bool)) :=
  if starts "0x" tail then some ("0x", isAsciiHexdigit)
  else if starts "0X" tail then some ("0X", isAsciiHexdigit)
  else if starts "0o" tail then some ("0o", isOctalDigit)
  else if starts "0O" tail then some ("0O", isOctalDigit)
  else if starts "0b" tail then some ("0b", isBinaryDigit)
  else if starts "0B" tail then some ("0B", isBinaryDigit)
  else none

def fraction (tail : List Char) : List Char :=
  if starts "." tail && headIs isAsciiDigit tail.tail then '.' :: digitsWhile isAsciiDigit tail.tail else []

def signOf (tail : List Char) : List Char := if headIs isSign tail then tail.take 1 else []

def exponent (tail : List Char) : List Char :=
  let sign := signOf tail.tail
  let after := tail.tail.drop sign.length
  if headIs isExponentMark tail && headIs isAsciiDigit after then
    tail.take 1 ++ sign ++ digitsWhile isAsciiDigit after
  else []

def decimal (tail : List Char) : TokenKind × List Char :=
  let whole := digitsWhile isAsciiDigit tail
  let part := fraction (tail.drop whole.length)
  let power := exponent (tail.drop (whole ++ part).length)
  (.number (if !part.isEmpty || !power.isEmpty then .float else .integer), whole ++ part ++ power)

def number (tail : List Char) : Option Lexeme :=
  if headIs isAsciiDigit tail then
    match radix tail with
    | some (spelling, accepts) =>
      some ⟨.number .integer, spelling.toList ++ digitsWhile accepts (tail.drop 2), view.contexts⟩
    | none => some ⟨(decimal tail).1, (decimal tail).2, view.contexts⟩
  else none

def endsWord (boundary : Bool) (tail : List Char) : Bool :=
  headIs Lexer.endsWordText tail || (starts "#" tail && boundary)

/-- The fallback rule.  Past its first scalar a word is no longer at the start of
the source, so only the last token can make `#` end it. -/
def wordText (tail : List Char) : Lexeme :=
  match tail with
  | [] => ⟨.wordText, [], view.contexts⟩
  | c :: more =>
    let text := if endsWord view.boundary tail then [c] else c :: until_ (endsWord view.after) more
    ⟨.wordText, text, view.contexts⟩

def normalRules : List (List Char → Option Lexeme) :=
  [invalidSourceCharacter view, horizontalTrivia view, newline view, bareEscape view, comment view,
   singleQuoted view, doubleQuoteStart view, removedDollarSyntax view, closeInterpolation view,
   operator view, delimiter view, identifier view, number view]

def normal (tail : List Char) : Lexeme := ((normalRules view).findSome? (· tail)).getD (wordText view tail)

def doubleQuoteEnd (tail : List Char) : Option Lexeme :=
  if starts "\"" tail then some ⟨.doubleQuoteEnd, ['"'], view.contexts.tail⟩ else none

def unicodeEscape (tail : List Char) : List Char :=
  let digits := bytesWhile isAsciiHexdigit tail
  digits ++ closing "\x7d" (tail.drop digits.length)

def doubleEscape (tail : List Char) : Option Lexeme :=
  if starts "\\" tail then
    let more := tail.tail
    if starts "\r\n" more then some (fixed view .lineContinuation "\\\r\n")
    else if starts "\n" more then some (fixed view .lineContinuation "\\\n")
    else if starts "u\x7b" more then
      let text := '\\' :: 'u' :: '{' :: unicodeEscape (more.drop 2)
      some ⟨(unicodeEscapeError text).elim .doubleEscape .invalid, text, view.contexts⟩
    else
      let kind := if headIs isSimpleEscape more then .doubleEscape else .invalid .unknownDoubleEscape
      some ⟨kind, '\\' :: more.take 1, view.contexts⟩
  else none

def doubleQuotedBrace (tail : List Char) : Option Lexeme :=
  if starts "\x7b\x7b" tail then some (fixed view .escapedBrace "\x7b\x7b")
  else if starts "\x7d\x7d" tail then some (fixed view .escapedBrace "\x7d\x7d")
  else if starts "\x7b" tail then some ⟨.interpolationStart, ['{'], .interpolation 0 :: view.contexts⟩
  else if starts "\x7d" tail then some (fixed view (.invalid .unmatchedInterpolationBrace) "\x7d")
  else none

def endsDoubleText (tail : List Char) : Bool :=
  starts "\"" tail || starts "\\" tail || starts "\x7b" tail || starts "\x7d" tail || starts "\x00" tail
    || loneCarriageReturn tail

def doubleText (tail : List Char) : Lexeme := ⟨.doubleText, until_ endsDoubleText tail, view.contexts⟩

def doubleQuotedRules : List (List Char → Option Lexeme) :=
  [doubleQuoteEnd view, invalidSourceCharacter view, doubleEscape view, doubleQuotedBrace view]

def doubleQuoted (tail : List Char) : Lexeme :=
  ((doubleQuotedRules view).findSome? (· tail)).getD (doubleText view tail)

/-- The next token in the innermost context. -/
def next (tail : List Char) : Lexeme :=
  match view.contexts.head?.getD .normal with
  | .doubleQuoted => doubleQuoted view tail
  | .normal | .interpolation _ => normal view tail

/-! ## What a rule takes -/

section Takes

variable {tail : List Char}

variable {spelling : String} {more : List Char} {accepts : UInt8 → Bool} {kind : TokenKind} {contexts : List Context}

theorem starts_iff : starts spelling tail = true ↔ ∃ more, tail = spelling.toList ++ more := by
  rw [starts, isPrefixOf_iff_prefix]
  exact ⟨fun ⟨more, eq⟩ => ⟨more, eq.symm⟩, fun ⟨more, eq⟩ => ⟨more, eq.symm⟩⟩

/-- A spelled first character, in the form the rules continue with. -/
theorem starts_one (c : Char) (spelled : spelling.toList = [c]) (found : starts spelling tail = true) : ∃ more, tail = c :: more := by
  obtain ⟨more, rfl⟩ := starts_iff.mp found
  exact ⟨more, by rw [spelled]; rfl⟩

/-- Two pieces of text one after the other. -/
theorem append_leads {piece : List Char} (first : piece <+: tail) (second : more <+: tail.drop piece.length) :
    piece ++ more <+: tail := by
  obtain ⟨_, rfl⟩ := first
  rw [drop_left] at second
  exact (prefix_append_right_inj piece).mpr second

theorem bytesWhile_leads (accepts : UInt8 → Bool) (tail : List Char) : bytesWhile accepts tail <+: tail :=
  takeWhile_prefix _

theorem until_leads (stops : List Char → Bool) (tail : List Char) : until_ stops tail <+: tail := by
  induction tail with
  | nil => exact prefix_refl _
  | cons c more ih =>
    by_cases stopped : stops (c :: more) = true
    · simp [until_, stopped]
    · simpa [until_, stopped] using ih

theorem closing_leads (spelling : String) (tail : List Char) : closing spelling tail <+: tail := by
  by_cases found : starts spelling tail = true
  · simpa [closing, found] using isPrefixOf_iff_prefix.mp found
  · simp [closing, found]

theorem digitsWhile_leads (accepts : UInt8 → Bool) (tail : List Char) : digitsWhile accepts tail <+: tail :=
  bytesWhile_leads _ tail

theorem headIs_split (first : headIs accepts tail = true) :
    ∃ c more, tail = c :: more ∧ c.utf8Size = 1 := by
  cases tail with
  | nil => simp [headIs] at first
  | cons c more => exact ⟨c, more, rfl, onAscii_width first⟩

theorem signOf_leads (tail : List Char) : signOf tail <+: tail := by
  by_cases signed : headIs isSign tail = true
  · simpa [signOf, signed] using take_prefix 1 tail
  · simp [signOf, signed]

theorem fraction_leads (tail : List Char) : fraction tail <+: tail := by
  simp only [fraction]
  split
  · next present =>
    simp only [Bool.and_eq_true] at present
    obtain ⟨_, rfl⟩ := starts_one '.' rfl present.1
    exact cons_prefix_cons.mpr ⟨rfl, digitsWhile_leads _ _⟩
  · exact nil_prefix

theorem exponent_leads (tail : List Char) : exponent tail <+: tail := by
  simp only [exponent]
  split
  · next present =>
    simp only [Bool.and_eq_true] at present
    obtain ⟨_, more, rfl, _⟩ := headIs_split present.1
    have digits := append_leads (signOf_leads more) (digitsWhile_leads isAsciiDigit _)
    simpa using digits
  · exact nil_prefix

theorem radix_some (found : radix tail = some (spelling, accepts)) :
    starts spelling tail = true ∧ width spelling.toList = 2 ∧ spelling.toList.length = 2 := by
  simp only [radix] at found
  split_ifs at found <;> cases found <;> exact ⟨by assumption, rfl, rfl⟩

theorem decimal_leads (tail : List Char) : (decimal tail).2 <+: tail :=
  append_leads (append_leads (digitsWhile_leads _ _) (fraction_leads _)) (exponent_leads _)

theorem decimal_ne_nil (digit : headIs isAsciiDigit tail = true) : (decimal tail).2 ≠ [] := by
  obtain ⟨c, _, rfl, _⟩ := headIs_split digit
  have first : onAscii (fun byte => isAsciiDigit byte || byte == '_'.toUInt8) c = true := by
    simp only [headIs, onAscii, Bool.and_eq_true] at digit ⊢
    exact ⟨digit.1, by simp [digit.2]⟩
  simp [decimal, digitsWhile, bytesWhile, first]

/-- A lexeme is a nonempty piece of the text that is left, at its start. -/
structure Takes (tail : List Char) (lexeme : Lexeme) : Prop where
  nonempty : lexeme.text ≠ []
  leads : lexeme.text <+: tail

variable {view : View} {lexeme : Lexeme}

theorem takes_spelling {text : List Char} (found : starts spelling tail = true) (spelled : text = spelling.toList)
    (nonempty : text ≠ []) :
    Takes tail ⟨kind, text, contexts⟩ := by
  subst spelled
  obtain ⟨_, rfl⟩ := starts_iff.mp found
  exact ⟨nonempty, prefix_append _ _⟩

theorem invalidSourceCharacter_takes (found : invalidSourceCharacter view tail = some lexeme) :
    Takes tail lexeme := by
  simp only [invalidSourceCharacter] at found
  split_ifs at found with nul lone
  · cases found
    exact takes_spelling nul rfl (by simp)
  · cases found
    simp only [loneCarriageReturn, Bool.and_eq_true] at lone
    exact takes_spelling lone.1 rfl (by simp)

theorem horizontalTrivia_takes (found : horizontalTrivia view tail = some lexeme) : Takes tail lexeme := by
  simp only [horizontalTrivia] at found
  split_ifs at found with blank
  cases found
  refine ⟨?_, bytesWhile_leads _ _⟩
  cases tail with
  | nil => simp [headIs] at blank
  | cons c => simp [bytesWhile, show onAscii isBlank c = true from blank]

theorem newline_takes (found : newline view tail = some lexeme) : Takes tail lexeme := by
  simp only [newline] at found
  split_ifs at found with pair feed
  · cases found
    exact takes_spelling pair rfl (by simp)
  · cases found
    exact takes_spelling feed rfl (by simp)

theorem escapedScalar_leads (tail : List Char) : escapedScalar tail <+: tail := by
  by_cases held : (starts "\x00" tail || loneCarriageReturn tail) = true
  · simp [escapedScalar, held]
  · simpa [escapedScalar, held] using take_prefix 1 tail

/-- A backslash, a line break and what else a continuation takes. -/
theorem continuation_takes {whole : String} (found : starts spelling more = true)
    (spelled : whole.toList = '\\' :: spelling.toList) : Takes ('\\' :: more) ⟨kind, whole.toList, contexts⟩ := by
  obtain ⟨_, rfl⟩ := starts_iff.mp found
  simp only [spelled]
  exact ⟨by simp, by simp⟩

theorem bareEscape_takes (found : bareEscape view tail = some lexeme) : Takes tail lexeme := by
  simp only [bareEscape] at found
  split_ifs at found with escape pair feed
  · cases found
    obtain ⟨more, rfl⟩ := starts_one '\\' rfl escape
    exact continuation_takes pair rfl
  · cases found
    obtain ⟨more, rfl⟩ := starts_one '\\' rfl escape
    exact continuation_takes feed rfl
  all_goals
    cases found
    obtain ⟨_, rfl⟩ := starts_one '\\' rfl escape
    exact ⟨by simp, cons_prefix_cons.mpr ⟨rfl, escapedScalar_leads _⟩⟩

theorem comment_takes (found : comment view tail = some lexeme) : Takes tail lexeme := by
  simp only [comment] at found
  split_ifs at found with opened
  all_goals
    cases found
    simp only [Bool.and_eq_true] at opened
    obtain ⟨_, rfl⟩ := starts_one '#' rfl opened.1
    refine ⟨?_, until_leads _ _⟩
    simp [until_, endsComment, starts, loneCarriageReturn]

theorem singleQuoted_takes (found : singleQuoted view tail = some lexeme) : Takes tail lexeme := by
  simp only [singleQuoted] at found
  split_ifs at found with quote
  cases found
  obtain ⟨_, rfl⟩ := starts_one '\'' rfl quote
  exact ⟨by simp, cons_prefix_cons.mpr ⟨rfl, append_leads (until_leads _ _) (closing_leads _ _)⟩⟩

theorem doubleQuoteStart_takes (found : doubleQuoteStart view tail = some lexeme) : Takes tail lexeme := by
  simp only [doubleQuoteStart] at found
  split_ifs at found with quote
  cases found
  exact takes_spelling quote rfl (by simp)

theorem removedDollarSyntax_takes (found : removedDollarSyntax view tail = some lexeme) : Takes tail lexeme := by
  simp only [removedDollarSyntax] at found
  split_ifs at found with dollar
  cases found
  exact takes_spelling dollar rfl (by simp)

theorem closeInterpolation_takes (found : closeInterpolation view tail = some lexeme) : Takes tail lexeme := by
  simp only [closeInterpolation] at found
  split_ifs at found with closes
  cases found
  simp only [Bool.and_eq_true] at closes
  exact takes_spelling closes.2 rfl (by simp)

theorem operators_nonempty : ∀ entry ∈ operators, entry.1.toList ≠ [] := by decide

theorem operator_takes (found : operator view tail = some lexeme) : Takes tail lexeme := by
  simp only [operator, Option.map_eq_some_iff] at found
  obtain ⟨entry, listed, rfl⟩ := found
  have spelled : starts entry.1 tail = true := by simpa using List.find?_some listed
  exact takes_spelling spelled rfl (operators_nonempty entry (mem_of_find?_eq_some listed))

theorem takes_one {c : Char} :
    Takes (c :: more) ⟨kind, [c], contexts⟩ :=
  ⟨by simp, by simp⟩

theorem delimiter_takes (found : delimiter view tail = some lexeme) : Takes tail lexeme := by
  cases tail with
  | nil => simp [delimiter] at found
  | cons =>
    simp only [delimiter] at found
    split_ifs at found with ascii
    obtain ⟨_, _, rfl⟩ := Option.map_eq_some_iff.mp found
    exact takes_one

theorem identifier_takes (found : identifier view tail = some lexeme) : Takes tail lexeme := by
  cases tail with
  | nil => simp [identifier] at found
  | cons =>
    simp only [identifier] at found
    split_ifs at found with first
    cases found
    exact ⟨by simp, cons_prefix_cons.mpr ⟨rfl, bytesWhile_leads _ _⟩⟩

theorem number_takes (found : number view tail = some lexeme) : Takes tail lexeme := by
  simp only [number] at found
  split_ifs at found with digit
  cases prefixed : radix tail with
  | some entry =>
    simp only [prefixed] at found
    cases found
    obtain ⟨spelled, _, long⟩ := radix_some prefixed
    obtain ⟨_, rfl⟩ := starts_iff.mp spelled
    refine ⟨?_, append_leads (prefix_append _ _) (by rw [long]; exact digitsWhile_leads _ _)⟩
    intro empty
    simp only [append_eq_nil_iff] at empty
    rw [empty.1] at long
    exact absurd long (by simp)
  | none =>
    simp only [prefixed] at found
    cases found
    exact ⟨decimal_ne_nil digit, decimal_leads tail⟩

theorem wordText_takes (nonempty : tail ≠ []) : Takes tail (wordText view tail) := by
  obtain ⟨_, _, rfl⟩ := exists_cons_of_ne_nil nonempty
  simp only [wordText]
  split_ifs with ended
  · exact takes_one
  · exact ⟨by simp, cons_prefix_cons.mpr ⟨rfl, until_leads _ _⟩⟩

theorem normalRules_take {rule : List Char → Option Lexeme} (listed : rule ∈ normalRules view)
    (found : rule tail = some lexeme) : Takes tail lexeme := by
  simp only [normalRules, mem_cons, not_mem_nil, or_false] at listed
  rcases listed with rfl | rfl | rfl | rfl | rfl | rfl | rfl | rfl | rfl | rfl | rfl | rfl | rfl
  · exact invalidSourceCharacter_takes found
  · exact horizontalTrivia_takes found
  · exact newline_takes found
  · exact bareEscape_takes found
  · exact comment_takes found
  · exact singleQuoted_takes found
  · exact doubleQuoteStart_takes found
  · exact removedDollarSyntax_takes found
  · exact closeInterpolation_takes found
  · exact operator_takes found
  · exact delimiter_takes found
  · exact identifier_takes found
  · exact number_takes found

theorem normal_takes (view : View) (nonempty : tail ≠ []) : Takes tail (normal view tail) := by
  simp only [normal]
  cases found : (normalRules view).findSome? (· tail) with
  | none => exact wordText_takes nonempty
  | some =>
    obtain ⟨_, listed, spelled⟩ := exists_of_findSome?_eq_some found
    exact normalRules_take listed spelled

theorem doubleQuoteEnd_takes (found : doubleQuoteEnd view tail = some lexeme) : Takes tail lexeme := by
  simp only [doubleQuoteEnd] at found
  split_ifs at found with quote
  cases found
  exact takes_spelling quote rfl (by simp)

theorem unicodeEscape_leads (tail : List Char) : unicodeEscape tail <+: tail :=
  append_leads (bytesWhile_leads _ _) (closing_leads _ _)

theorem doubleEscape_takes (found : doubleEscape view tail = some lexeme) : Takes tail lexeme := by
  simp only [doubleEscape] at found
  split_ifs at found with escape pair feed unicode
  · cases found
    obtain ⟨more, rfl⟩ := starts_one '\\' rfl escape
    exact continuation_takes pair rfl
  · cases found
    obtain ⟨more, rfl⟩ := starts_one '\\' rfl escape
    exact continuation_takes feed rfl
  · cases found
    obtain ⟨more, rfl⟩ := starts_one '\\' rfl escape
    obtain ⟨back, split⟩ := starts_iff.mp unicode
    subst split
    refine ⟨by simp, ?_⟩
    simpa using unicodeEscape_leads back
  all_goals
    cases found
    obtain ⟨more, rfl⟩ := starts_one '\\' rfl escape
    exact ⟨by simp, cons_prefix_cons.mpr ⟨rfl, take_prefix 1 more⟩⟩

theorem doubleQuotedBrace_takes (found : doubleQuotedBrace view tail = some lexeme) : Takes tail lexeme := by
  simp only [doubleQuotedBrace] at found
  split_ifs at found with left right opened closed
  · cases found
    exact takes_spelling left rfl (by simp)
  · cases found
    exact takes_spelling right rfl (by simp)
  · cases found
    exact takes_spelling opened rfl (by simp)
  · cases found
    exact takes_spelling closed rfl (by simp)

/-- Text of a string that no other rule takes does not end at once. -/
theorem endsDoubleText_of_rules (missed : (doubleQuotedRules view).findSome? (· tail) = none) :
    endsDoubleText tail = false := by
  simp only [doubleQuotedRules, List.findSome?_eq_none_iff, mem_cons, not_mem_nil, or_false,
    forall_eq_or_imp, forall_eq] at missed
  obtain ⟨quote, character, escape, brace⟩ := missed
  simp only [doubleQuoteEnd, ite_eq_right_iff, reduceCtorEq, imp_false, Bool.not_eq_true] at quote
  simp only [invalidSourceCharacter] at character
  simp only [doubleEscape] at escape
  simp only [doubleQuotedBrace] at brace
  split_ifs at character escape brace
  simp_all [endsDoubleText]

theorem doubleText_takes (nonempty : tail ≠ []) (inside : endsDoubleText tail = false) :
    Takes tail (doubleText view tail) := by
  obtain ⟨_, _, rfl⟩ := exists_cons_of_ne_nil nonempty
  exact ⟨by simp [doubleText, until_, inside], until_leads _ _⟩

theorem doubleQuoted_takes (view : View) (nonempty : tail ≠ []) : Takes tail (doubleQuoted view tail) := by
  simp only [doubleQuoted]
  cases found : (doubleQuotedRules view).findSome? (· tail) with
  | none => exact doubleText_takes nonempty (endsDoubleText_of_rules found)
  | some =>
    obtain ⟨_, listed, spelled⟩ := exists_of_findSome?_eq_some found
    simp only [doubleQuotedRules, mem_cons, not_mem_nil, or_false] at listed
    rcases listed with rfl | rfl | rfl | rfl
    · exact doubleQuoteEnd_takes spelled
    · exact invalidSourceCharacter_takes spelled
    · exact doubleEscape_takes spelled
    · exact doubleQuotedBrace_takes spelled

/-- The next token is never empty and never leaves the text. -/
theorem next_takes (view : View) (nonempty : tail ≠ []) : Takes tail (next view tail) := by
  simp only [next]
  split
  · exact doubleQuoted_takes view nonempty
  all_goals exact normal_takes view nonempty

end Takes

end Scan

end Opaal.Syntax
