import Opaal.Syntax.Token

/-!
# The lexer

`lexer.rs`, rule by rule and in the order the rules are tried.  The cursor is a
byte offset.  A computation is `none` where the source panics: a string slice
off a scalar boundary, a failed assertion, an `expect`.  The loops of the source
are bounded here by the bytes that are left; running out of that bound is
`none` as well.

Tokens are kept newest first and contexts innermost first.
-/

namespace Opaal.Syntax

open Opaal.Text

inductive Context where
  | normal
  | doubleQuoted
  | interpolation (nested : Nat)
  deriving DecidableEq, Repr

structure Lexer where
  position : Nat
  tokens : List Token
  contexts : List Context
  deriving DecidableEq, Repr

abbrev LexM := StateT Lexer Option

def isAsciiDigit (byte : UInt8) : Bool := '0'.toUInt8 ≤ byte && byte ≤ '9'.toUInt8

def isAsciiAlphabetic (byte : UInt8) : Bool :=
  ('a'.toUInt8 ≤ byte && byte ≤ 'z'.toUInt8) || ('A'.toUInt8 ≤ byte && byte ≤ 'Z'.toUInt8)

def isAsciiHexdigit (byte : UInt8) : Bool :=
  isAsciiDigit byte || ('a'.toUInt8 ≤ byte && byte ≤ 'f'.toUInt8) || ('A'.toUInt8 ≤ byte && byte ≤ 'F'.toUInt8)

def isOctalDigit (byte : UInt8) : Bool := '0'.toUInt8 ≤ byte && byte ≤ '7'.toUInt8

def isBinaryDigit (byte : UInt8) : Bool := byte == '0'.toUInt8 || byte == '1'.toUInt8

def isIdentifierStart (byte : UInt8) : Bool := isAsciiAlphabetic byte || byte == '_'.toUInt8

def isIdentifierContinue (byte : UInt8) : Bool := isIdentifierStart byte || isAsciiDigit byte

def isSign (byte : UInt8) : Bool := byte == '+'.toUInt8 || byte == '-'.toUInt8

def isExponentMark (byte : UInt8) : Bool := byte == 'e'.toUInt8 || byte == 'E'.toUInt8

/-- The escapes of a double-quoted string that take one more byte. -/
def isSimpleEscape (byte : UInt8) : Bool := ['\\', '"', 'n', 'r', 't', '0'].any (fun c => byte == c.toUInt8)

def isBlank (byte : UInt8) : Bool := byte == ' '.toUInt8 || byte == '\t'.toUInt8

def keywords : List (String × Keyword) :=
  [("action", .action), ("break", .break_), ("catch", .catch_), ("continue", .continue_), ("def", .def_),
   ("else", .else_), ("enum", .enum), ("export", .export_), ("false", .false_), ("for", .for_), ("if", .if_),
   ("import", .import_), ("in", .in_), ("let", .let_), ("match", .match_), ("mut", .mut_), ("null", .null),
   ("return", .return_), ("task", .task), ("throw", .throw), ("true", .true_), ("try", .try_), ("type", .type),
   ("unset", .unset), ("while", .while_)]

def keyword (text : List Char) : Option Keyword :=
  (keywords.find? (fun entry => entry.1.toList == text)).map (·.2)

/-- Longest spellings first, as the source lists them. -/
def operators : List (String × Operator) :=
  [("...", .spread), ("..=", .rangeInclusive), ("&&", .and), ("||", .or), ("|&", .pipeBoth), (">>", .append),
   (">&", .duplicate), ("->", .arrow), ("=>", .matchArrow), ("==", .equal), ("!=", .notEqual),
   ("<=", .lessEqual), (">=", .greaterEqual), ("+=", .addAssign), ("-=", .subtractAssign),
   ("*=", .multiplyAssign), ("/=", .divideAssign), ("%=", .remainderAssign), ("..", .range),
   (";", .semicolon), ("|", .pipe), ("&", .background), ("<", .less), (">", .greater), ("=", .assign),
   ("+", .plus), ("-", .minus), ("*", .star), ("/", .slash), ("%", .percent), ("!", .bang), (".", .dot),
   (",", .comma), (":", .colon), ("^", .caret)]

def operatorOrDelimiterBytes : List Char :=
  [';', '|', '&', '<', '>', '(', ')', '{', '}', '[', ']', '=', '+', '-', '*', '/', '%', '!', '.', ',', ':', '^']

def delimiterOf (byte : UInt8) : Option Delimiter :=
  if byte == '('.toUInt8 then some .leftParenthesis
  else if byte == ')'.toUInt8 then some .rightParenthesis
  else if byte == '{'.toUInt8 then some .leftBrace
  else if byte == '}'.toUInt8 then some .rightBrace
  else if byte == '['.toUInt8 then some .leftBracket
  else if byte == ']'.toUInt8 then some .rightBracket
  else none

def hexValue (c : Char) : Nat :=
  if c.isDigit then c.toNat - '0'.toNat
  else if 'a' ≤ c && c ≤ 'f' then c.toNat - 'a'.toNat + 10
  else c.toNat - 'A'.toNat + 10

/-- `u32::from_str_radix(hexadecimal, 16)`: at most six digits reach it, all of
them hexadecimal, so it cannot fail. -/
def fromHexadecimal (digits : List Char) : Nat := digits.foldl (fun value c => value * 16 + hexValue c) 0

def stripUnicodeEscape (spelling : List Char) : Option (List Char) :=
  match spelling with
  | '\\' :: 'u' :: '{' :: body => if body.getLast? == some '}' then some body.dropLast else none
  | _ => none

def unicodeEscapeError (spelling : List Char) : Option InvalidTokenKind :=
  match stripUnicodeEscape spelling with
  | none => some .malformedUnicodeEscape
  | some hexadecimal =>
    if hexadecimal.isEmpty then some .emptyUnicodeEscape
    else if hexadecimal.length > 6 then some .malformedUnicodeEscape
    else
      let value := fromHexadecimal hexadecimal
      if value > 0x10FFFF then some .unicodeOutOfRange
      else if 0xD800 ≤ value && value ≤ 0xDFFF then some .unicodeSurrogate
      else none

/-- The kinds after which `#` starts a comment. -/
def endsTokenBoundary : TokenKind → Bool
  | .whitespace | .newline | .operator .semicolon | .operator .pipe | .operator .pipeBoth
  | .operator .background | .operator .and | .operator .or | .operator .less | .operator .greater
  | .operator .append | .operator .duplicate | .interpolationStart | .delimiter _ => true
  | _ => false

namespace Lexer

def new : Lexer := { position := 0, tokens := [], contexts := [.normal] }

variable (source : SourceFile)

/-- `self.source.text()[self.position..]`. -/
def rest : LexM (List Char) := do
  let lexer ← get
  tailAt source.text lexer.position

def startsWith (spelling : String) : LexM Bool := do
  return spelling.toList.isPrefixOf (← rest source)

def currentByte : LexM (Option UInt8) := do
  return (bytes source.text)[(← get).position]?

def peekByte (offset : Nat) : LexM (Option UInt8) := do
  return (bytes source.text)[(← get).position + offset]?

def currentByteIs (accepts : UInt8 → Bool) : LexM Bool := do
  return (← currentByte source).any accepts

/-- `&self.source.text()[start..self.position]`. -/
def textFrom (start : Nat) : LexM (List Char) := do
  let tail ← (tailAt source.text start : Option (List Char))
  let lexer ← get
  headAt tail (lexer.position - start)

def advance (count : Nat) : LexM Unit := modify fun lexer => { lexer with position := lexer.position + count }

def advanceScalar : LexM Unit := do
  match ← rest source with
  | [] => failure
  | c :: _ => advance c.utf8Size

def here : LexM Nat := return (← get).position

def push (kind : TokenKind) (start : Nat) : LexM Unit := do
  let lexer ← get
  match source.span start lexer.position with
  | .error _ => failure
  | .ok span =>
    -- the source's `debug_assert!(!span.is_empty())`
    if span.isEmpty then failure
    set { lexer with tokens := { kind, span } :: lexer.tokens }

def isLoneCarriageReturn : LexM Bool := do
  return (← startsWith source "\r") && !(← startsWith source "\r\n")

def isTokenBoundary : LexM Bool := do
  let lexer ← get
  return lexer.position == 0 || lexer.tokens.head?.any (endsTokenBoundary ·.kind)

/-- `while continues { advance }`. -/
def advanceWhile (continues : LexM Bool) (step : LexM Unit) : Nat → LexM Unit
  | 0 => failure
  | bound + 1 => do
    if ← continues then
      step
      advanceWhile continues step bound

/-- One more iteration than there are bytes in the source. -/
def loopBound : Nat := source.len + 1

/-- `while byte test { position += 1 }`. -/
def skipBytes (accepts : UInt8 → Bool) : LexM Unit :=
  advanceWhile (currentByteIs source accepts) (advance 1) (loopBound source)

/-- `while position < len { if stop { break }; advance_scalar() }`. -/
def skipScalarsUntil (stops : LexM Bool) : LexM Unit :=
  advanceWhile (do if (← here) < source.len then return !(← stops) else return false)
    (advanceScalar source) (loopBound source)

def consumeDigits (accepts : UInt8 → Bool) : LexM Unit :=
  skipBytes source (fun byte => accepts byte || byte == '_'.toUInt8)

def lexInvalidSourceCharacter : LexM Bool := do
  let start ← here
  if ← startsWith source "\x00" then
    advance 1
    push source (.invalid .nul) start
    return true
  else if ← isLoneCarriageReturn source then
    advance 1
    push source (.invalid .loneCarriageReturn) start
    return true
  else return false

def lexHorizontalTrivia : LexM Bool := do
  if !(← currentByteIs source isBlank) then return false
  let start ← here
  skipBytes source isBlank
  push source .whitespace start
  return true

def lexNewline : LexM Bool := do
  let start ← here
  if ← startsWith source "\r\n" then
    advance 2
    push source .newline start
    return true
  else if ← startsWith source "\n" then
    advance 1
    push source .newline start
    return true
  else return false

def lexBareEscape : LexM Bool := do
  if !(← startsWith source "\\") then return false
  let start ← here
  advance 1
  if ← startsWith source "\r\n" then
    advance 2
    push source .lineContinuation start
  else if ← startsWith source "\n" then
    advance 1
    push source .lineContinuation start
  else
    let dollar ← startsWith source "$"
    if (← here) < source.len then
      if !(← startsWith source "\x00") then
        if !(← isLoneCarriageReturn source) then
          advanceScalar source
    push source (if dollar then .invalid .dollarSyntax else .bareEscape) start
  return true

/-- `text[start..]` begins with `##` and only blanks stand before it on its line. -/
def startsDocumentationComment (start : Nat) : LexM Bool := do
  let tail ← (tailAt source.text start : Option (List Char))
  if !("##".toList.isPrefixOf tail) then return false
  let before ← (headAt source.text start : Option (List Char))
  let line := before.reverse.takeWhile (· != '\n')
  return line.all (onAscii isBlank)

def atCommentEnd : LexM Bool := do
  return (← startsWith source "\n") || (← startsWith source "\r\n") || (← isLoneCarriageReturn source)
    || (← startsWith source "\x00")

def lexComment : LexM Bool := do
  if !(← startsWith source "#") then return false
  if !(← isTokenBoundary) then return false
  let start ← here
  skipScalarsUntil source (atCommentEnd source)
  let documentation ← startsDocumentationComment source start
  push source (if documentation then .documentationComment else .comment) start
  return true

/-- `if self.starts_with(spelling) { self.position += 1 }`. -/
def skipIfNext (spelling : String) : LexM Unit := do
  if ← startsWith source spelling then advance 1

def atSingleQuotedEnd : LexM Bool := do
  return (← startsWith source "'") || (← startsWith source "\x00") || (← isLoneCarriageReturn source)

def lexSingleQuoted : LexM Bool := do
  if !(← startsWith source "'") then return false
  let start ← here
  advance 1
  skipScalarsUntil source (atSingleQuotedEnd source)
  skipIfNext source "'"
  push source .singleQuoted start
  return true

def lexDoubleQuoteStart : LexM Bool := do
  if !(← startsWith source "\"") then return false
  let start ← here
  advance 1
  push source .doubleQuoteStart start
  modify fun lexer => { lexer with contexts := .doubleQuoted :: lexer.contexts }
  return true

def lexDoubleEscape : LexM Bool := do
  if !(← startsWith source "\\") then return false
  let start ← here
  advance 1
  if ← startsWith source "\r\n" then
    advance 2
    push source .lineContinuation start
  else if ← startsWith source "\n" then
    advance 1
    push source .lineContinuation start
  else if ← startsWith source "u\x7b" then
    advance 2
    skipBytes source isAsciiHexdigit
    skipIfNext source "\x7d"
    let spelling ← textFrom source start
    push source ((unicodeEscapeError spelling).elim .doubleEscape .invalid) start
  else
    match ← currentByte source with
    | some byte =>
      if isSimpleEscape byte then
        advance 1
        push source .doubleEscape start
      else
        advanceScalar source
        push source (.invalid .unknownDoubleEscape) start
    | none => push source (.invalid .unknownDoubleEscape) start
  return true

def lexRemovedDollarSyntax : LexM Bool := do
  if !(← startsWith source "$") then return false
  let start ← here
  advance 1
  push source (.invalid .dollarSyntax) start
  return true

def lexDoubleQuotedBrace : LexM Bool := do
  let start ← here
  if (← startsWith source "\x7b\x7b") || (← startsWith source "\x7d\x7d") then
    advance 2
    push source .escapedBrace start
    return true
  else if ← startsWith source "\x7b" then
    advance 1
    push source .interpolationStart start
    modify fun lexer => { lexer with contexts := .interpolation 0 :: lexer.contexts }
    return true
  else if ← startsWith source "\x7d" then
    advance 1
    push source (.invalid .unmatchedInterpolationBrace) start
    return true
  else return false

def closeInterpolationIfNeeded : LexM Bool := do
  let innermost := (← get).contexts.head?
  if innermost == some (.interpolation 0) && (← currentByteIs source (· == '}'.toUInt8)) then
    let start ← here
    advance 1
    push source (.delimiter .rightBrace) start
    modify fun lexer => { lexer with contexts := lexer.contexts.tail }
    return true
  else return false

def noteNested (side : Delimiter) : List Context → List Context
  | .interpolation nested :: outer =>
    match side with
    | .leftBrace => .interpolation (nested + 1) :: outer
    | .rightBrace => if nested > 0 then .interpolation (nested - 1) :: outer else .interpolation nested :: outer
    | _ => .interpolation nested :: outer
  | contexts => contexts

def noteNestedInterpolation (side : Delimiter) : LexM Unit :=
  modify fun lexer => { lexer with contexts := noteNested side lexer.contexts }

/-- `OPERATORS.iter().find(|(spelling, _)| self.starts_with(spelling))`. -/
def findOperator : List (String × Operator) → LexM (Option (String × Operator))
  | [] => return none
  | entry :: entries => do
    if ← startsWith source entry.1 then return some entry
    findOperator entries

def lexOperatorOrDelimiter : LexM Bool := do
  if ← closeInterpolationIfNeeded source then return true
  let start ← here
  match ← findOperator source operators with
  | some (spelling, operator) =>
    advance (width spelling.toList)
    push source (.operator operator) start
    return true
  | none =>
    match (← currentByte source).bind delimiterOf with
    | none => return false
    | some side =>
      noteNestedInterpolation side
      advance 1
      push source (.delimiter side) start
      return true

def lexIdentifier : LexM Bool := do
  if !(← currentByteIs source isIdentifierStart) then return false
  let start ← here
  advance 1
  skipBytes source isIdentifierContinue
  let text ← textFrom source start
  push source ((keyword text).elim .identifier .keyword) start
  return true

def exponentHasDigits : LexM Bool := do
  let offset := if (← peekByte source 1).any isSign then 2 else 1
  return (← peekByte source offset).any isAsciiDigit

def lexRadix (accepts : UInt8 → Bool) (start : Nat) : LexM Unit := do
  advance 2
  consumeDigits source accepts
  push source (.number .integer) start

def lexFraction : LexM Bool := do
  if (← currentByteIs source (· == '.'.toUInt8)) && (← peekByte source 1).any isAsciiDigit then
    advance 1
    consumeDigits source isAsciiDigit
    return true
  else return false

/-- `if matches!(self.current_byte(), Some(b'+' | b'-')) { self.position += 1 }`. -/
def skipSign : LexM Unit := do
  if ← currentByteIs source isSign then advance 1

def lexExponent : LexM Bool := do
  if (← currentByteIs source isExponentMark) && (← exponentHasDigits source) then
    advance 1
    skipSign source
    consumeDigits source isAsciiDigit
    return true
  else return false

def lexDecimal (start : Nat) : LexM Unit := do
  consumeDigits source isAsciiDigit
  let fraction ← lexFraction source
  let exponent ← lexExponent source
  push source (.number (if fraction || exponent then .float else .integer)) start

def lexNumber : LexM Bool := do
  if !(← currentByteIs source isAsciiDigit) then return false
  let start ← here
  if (← startsWith source "0x") || (← startsWith source "0X") then
    lexRadix source isAsciiHexdigit start
  else if (← startsWith source "0o") || (← startsWith source "0O") then
    lexRadix source isOctalDigit start
  else if (← startsWith source "0b") || (← startsWith source "0B") then
    lexRadix source isBinaryDigit start
  else
    lexDecimal source start
  return true

def operatorOrDelimiterStartsHere (byte : UInt8) : Bool := operatorOrDelimiterBytes.any (fun c => byte == c.toUInt8)

def endsWordText (byte : UInt8) : Bool :=
  [' ', '\t', '\n', '\r', '\\', '\'', '"'].any (fun c => byte == c.toUInt8)
    || operatorOrDelimiterStartsHere byte || byte == 0

def atWordEnd : LexM Bool := do
  match ← currentByte source with
  | none => failure
  | some byte => return endsWordText byte || (byte == '#'.toUInt8 && (← isTokenBoundary))

def lexWordText : LexM Unit := do
  let start ← here
  skipScalarsUntil source (atWordEnd source)
  if (← here) == start then advanceScalar source
  push source .wordText start

/-- The rules of `lex_normal` before its fallback, in the order they are tried. -/
def normalRules : List (LexM Bool) :=
  [lexInvalidSourceCharacter source, lexHorizontalTrivia source, lexNewline source, lexBareEscape source,
   lexComment source, lexSingleQuoted source, lexDoubleQuoteStart source, lexRemovedDollarSyntax source,
   lexOperatorOrDelimiter source, lexIdentifier source, lexNumber source]

/-- `rule || rule || ...`. -/
def firstOf : List (LexM Bool) → LexM Bool
  | [] => return false
  | rule :: rules => do
    if ← rule then return true
    firstOf rules

def lexNormal : LexM Unit := do
  if ← firstOf (normalRules source) then return
  lexWordText source

def atDoubleTextEnd : LexM Bool := do
  return (← startsWith source "\"") || (← startsWith source "\\") || (← startsWith source "\x7b")
    || (← startsWith source "\x7d") || (← startsWith source "\x00") || (← isLoneCarriageReturn source)

def lexDoubleText : LexM Unit := do
  let start ← here
  skipScalarsUntil source (atDoubleTextEnd source)
  push source .doubleText start

def lexDoubleQuoted : LexM Unit := do
  if ← startsWith source "\"" then
    let start ← here
    advance 1
    push source .doubleQuoteEnd start
    modify fun lexer => { lexer with contexts := lexer.contexts.tail }
    return
  if ← firstOf [lexInvalidSourceCharacter source, lexDoubleEscape source] then return
  if ← lexDoubleQuotedBrace source then return
  lexDoubleText source

/-- One turn of the run loop, with its progress assertion. -/
def step : LexM Unit := do
  let before ← here
  match (← get).contexts.head?.getD .normal with
  | .doubleQuoted => lexDoubleQuoted source
  | .normal | .interpolation _ => lexNormal source
  if ¬ (← here) > before then failure

def run : Nat → LexM Unit
  | 0 => failure
  | bound + 1 => do
    if (← here) < source.len then
      step source
      run bound

end Lexer

/-- Converts a source file into nonempty, ordered, lossless tokens.  `none` is a
panic of the source. -/
def lexOpaal (source : SourceFile) : Option (List Token) :=
  (Lexer.run source (Lexer.loopBound source) Lexer.new).map (·.2.tokens.reverse)

end Opaal.Syntax
