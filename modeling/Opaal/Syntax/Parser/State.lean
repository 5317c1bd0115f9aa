import Opaal.Machine.Action
import Opaal.Syntax.Ast
import Opaal.Syntax.Classification
import Opaal.Syntax.Lexer

/-!
# The parser's state and its primitive operations

The end of `parser.rs`: looking at tokens, taking them, skipping trivia, error
recovery.  Errors keep the state they were raised in, as the source does, since
statement lists go on after one.

`panicked` stands for every panic of the source: an `expect`, an `unreachable!`,
an index out of range, a depth counter below zero.  `exhausted` is not in the
source: loops and recursion are bounded here, by the number of tokens.

Cancellation is polled as in the source; the predicate is asked with the number
of polls before.
-/

namespace Opaal.Syntax

open Opaal.Machine

inductive ParseError (source : SourceFile) where
  | incomplete (input : IncompleteInput source.Region)
  | invalid (diagnostic : Diagnostic source.Region)
  | invalidMany (diagnostics : List (Diagnostic source.Region))
  | cancelled
  | panicked
  | exhausted
  deriving DecidableEq, Repr

/-- What a parse reads. -/
structure ParserInput (source : SourceFile) where
  tokens : List (PlacedToken source)
  isCancelled : Nat → Bool

/-- What a parse changes. -/
structure Parser (source : SourceFile) where
  position : Nat
  bracketEnds : List Nat
  continuationDepth : Nat
  controlConditionDepth : Nat
  blockHeaderDepth : Option Nat
  valueChainDepth : Nat
  diagnostics : List (Diagnostic source.Region)
  interpolationSpans : List source.Region
  polls : Nat
  deriving DecidableEq, Repr

abbrev ParseM (source : SourceFile) := Action (ParserInput source) (ParseError source) (Parser source)

namespace Parser

variable {source : SourceFile} {α : Type}

def new (input : ParserInput source) : Parser source where
  position := 0
  bracketEnds := List.replicate input.tokens.length 0
  continuationDepth := 0
  controlConditionDepth := 0
  blockHeaderDepth := none
  valueChainDepth := 0
  diagnostics := []
  interpolationSpans := []
  polls := 0

/-! ## Looking at tokens -/

def current : ParseM source (Option (PlacedToken source)) := fun input parser =>
  .ok input.tokens[parser.position]? parser

def currentKind : ParseM source (Option TokenKind) := fun input parser =>
  .ok (input.tokens[parser.position]?.map (·.kind)) parser

/-- `self.tokens.get(self.position + offset)`. -/
def peek (offset : Nat) : ParseM source (Option (PlacedToken source)) := fun input parser =>
  .ok input.tokens[parser.position + offset]? parser

def isEnd : ParseM source Bool := fun input parser =>
  .ok (decide (parser.position ≥ input.tokens.length)) parser

def atKind (kind : TokenKind) : ParseM source Bool := do
  return (← currentKind) == some kind

def atDelimiter (side : Option Delimiter) : ParseM source Bool := do
  let kind ← currentKind
  return side.any fun side => kind == some (.delimiter side)

def atKeyword (word : Keyword) : ParseM source Bool := atKind (.keyword word)

def atStatementSeparator : ParseM source Bool := do
  let kind ← currentKind
  return kind == some .newline || kind == some (.operator .semicolon)

/-- `self.source.slice(span).ok() == Some(spelling)`. -/
def spells (span : source.Region) (spelling : String) : Bool :=
  match source.slice span.toSpan with
  | .ok text => text == spelling.toList
  | .error _ => false

/-- The current token is an identifier with this spelling. -/
def atContextual (spelling : String) : ParseM source Bool := do
  return (← current).any fun token => token.kind == .identifier && spells token.span spelling

/-! ## Spans and errors -/

def panic {α : Type} : ParseM source α := throw .panicked

/-- `.expect(..)`. -/
def expect : Option α → ParseM source α
  | some value => return value
  | none => panic

/-- `self.span(start, end)`. -/
def span (start stop : Nat) : ParseM source source.Region :=
  match source.region start stop with
  | .ok region => return region
  | .error _ => panic

/-- The current token, or the end of the source. -/
def hereSpan : ParseM source source.Region := do
  match ← current with
  | some token => return token.span
  | none => span source.len source.len

def incompleteAt {α : Type} (reason : IncompleteReason) (span : source.Region) : ParseM source α :=
  throw (.incomplete ⟨reason, span⟩)

def incompleteHere {α : Type} (reason : IncompleteReason) : ParseM source α := do
  incompleteAt reason (← hereSpan)

def diagnosticAt (span : source.Region) (message : String) : Diagnostic source.Region :=
  (Diagnostic.new source.Region .error "OP1000" message).withPrimary span message

def invalidAt {α : Type} (span : source.Region) (message : String) : ParseM source α :=
  throw (.invalid (diagnosticAt span message))

/-- The error of `invalid_here`, which some rules keep as a diagnostic. -/
def invalidErrorHere (message : String) : ParseM source (ParseError source) := do
  return .invalid (diagnosticAt (← hereSpan) message)

def invalidHere {α : Type} (message : String) : ParseM source α := do
  throw (← invalidErrorHere message)

def expected {α : Type} (message : String) (reason : IncompleteReason) : ParseM source α := do
  if ← isEnd then incompleteHere reason else invalidHere message

def pushDiagnostic (diagnostic : Diagnostic source.Region) : ParseM source Unit :=
  modify fun parser => { parser with diagnostics := parser.diagnostics ++ [diagnostic] }

/-- `let ParseError::Invalid(diagnostic) = self.invalid_here(..) else { unreachable!(..) }`. -/
def reportHere (message : String) : ParseM source Unit := do
  match ← invalidErrorHere message with
  | .invalid diagnostic => pushDiagnostic diagnostic
  | _ => panic

def currentSpan : ParseM source source.Region := do
  match ← current with
  | some token => return token.span
  | none => incompleteHere .expression

/-! ## Cancellation -/

def isCancelled : ParseM source Bool := fun input parser =>
  .ok (input.isCancelled parser.polls) { parser with polls := parser.polls + 1 }

def checkCancelled : ParseM source Unit := do
  if ← isCancelled then throw .cancelled

/-! ## Moving -/

/-- `self.position += count`. -/
def advance (count : Nat) : ParseM source Unit :=
  modify fun parser => { parser with position := parser.position + count }

def restore (position : Nat) : ParseM source Unit :=
  modify fun parser => { parser with position := position }

def take : ParseM source (Option (PlacedToken source)) := do
  match ← current with
  | some token =>
    advance 1
    return some token
  | none => return none

def takeIf (accepts : TokenKind → Bool) : ParseM source (Option (PlacedToken source)) := do
  if (← currentKind).any accepts then take else return none

def takeKeyword (word : Keyword) : ParseM source (Option (PlacedToken source)) := takeIf (· == .keyword word)

def takeOperator (operator : Operator) : ParseM source (Option (PlacedToken source)) :=
  takeIf (· == .operator operator)

def takeDelimiter (side : Delimiter) : ParseM source (Option (PlacedToken source)) :=
  takeIf (· == .delimiter side)

/-- `.ok_or_else(|| self.expected(message, IncompleteReason::Expression))`. -/
def required (message : String) : Option (PlacedToken source) → ParseM source (PlacedToken source)
  | some token => return token
  | none => expected message .expression

def expectKeyword (word : Keyword) (message : String) : ParseM source (PlacedToken source) := do
  required message (← takeKeyword word)

def expectOperator (operator : Operator) (message : String) : ParseM source (PlacedToken source) := do
  required message (← takeOperator operator)

def expectDelimiter (side : Delimiter) (message : String) : ParseM source (PlacedToken source) := do
  required message (← takeDelimiter side)

def expectContextualIdentifier (spelling message : String) : ParseM source (PlacedToken source) := do
  if ← atContextual spelling then expect (← take) else expected message .expression

/-- `self.tokens.get(self.position.saturating_sub(1)).map_or(0, |token| token.span().end())`. -/
def previousEnd : ParseM source Nat := fun input parser =>
  .ok (input.tokens[parser.position - 1]?.elim 0 (·.span.stop)) parser

/-! ## Loops -/

/-- A loop of the source, bounded by the number of tokens: every pass but the last
takes one. -/
def iterate {β : Type} (body : α → ParseM source (Turn α β)) (first : α) : ParseM source β := fun input parser =>
  repeatFrom .exhausted body (input.tokens.length + 1) first input parser

def isInline : TokenKind → Bool
  | .whitespace | .comment | .documentationComment | .lineContinuation => true
  | _ => false

def isLayout (kind : TokenKind) : Bool := isInline kind || kind == .newline

def isSeparator (kind : TokenKind) : Bool := isLayout kind || kind == .operator .semicolon

def skipTurn (accepts : TokenKind → Bool) (_ : Unit) : ParseM source (Turn Unit Unit) := do
  if (← currentKind).any accepts then
    if ← isCancelled then return .done ()
    advance 1
    return .again ()
  else return .done ()

/-- `while matches!(self.current_kind(), ..) { .. self.position += 1; }`. -/
def skipWhile (accepts : TokenKind → Bool) : ParseM source Unit := iterate (skipTurn accepts) ()

/-- Newlines are skipped too while a continuation is open. -/
def isInlineIn (continuationDepth : Nat) (kind : TokenKind) : Bool :=
  isInline kind || (continuationDepth > 0 && kind == .newline)

def skipInline : ParseM source Unit := do
  skipWhile (isInlineIn (← get).continuationDepth)

def skipLayout : ParseM source Unit := skipWhile isLayout

def skipSeparators : ParseM source Unit := skipWhile isSeparator

/-- Documentation lines seen so far and the newlines after the last one. -/
structure PendingDocumentation (source : SourceFile) where
  lines : List source.Region
  newlines : Nat

def PendingDocumentation.step (pending : PendingDocumentation source) (token : PlacedToken source) :
    Option (PendingDocumentation source) :=
  match token.kind with
  | .documentationComment =>
    let lines := if !pending.lines.isEmpty && pending.newlines != 1 then [] else pending.lines
    some { lines := lines ++ [token.span], newlines := 0 }
  | .newline =>
    if pending.lines.isEmpty then some pending
    else if pending.newlines + 1 > 1 then some { lines := [], newlines := 0 }
    else some { pending with newlines := pending.newlines + 1 }
  | .whitespace => some pending
  | .comment | .lineContinuation | .operator .semicolon => some { lines := [], newlines := 0 }
  | _ => none

def PendingDocumentation.block (pending : PendingDocumentation source) :
    Option (DocumentationBlock source.Region) :=
  if !pending.lines.isEmpty && pending.newlines == 1 then some { lines := pending.lines } else none

def documentationTurn (pending : PendingDocumentation source) :
    ParseM source (Turn (PendingDocumentation source) (Option (DocumentationBlock source.Region))) := do
  match ← current with
  | none => return .done pending.block
  | some token =>
    if ← isCancelled then return .done pending.block
    match pending.step token with
    | some next =>
      advance 1
      return .again next
    | none => return .done pending.block

def skipSeparatorsWithDocumentation : ParseM source (Option (DocumentationBlock source.Region)) :=
  iterate documentationTurn { lines := [], newlines := 0 }

def isOpening : Delimiter → Bool
  | .leftParenthesis | .leftBracket | .leftBrace => true
  | _ => false

/-- The opening delimiters that are pending after a skipped token. -/
def pendingAfter (delimiters : List Delimiter) (kind : TokenKind) : List Delimiter :=
  match kind with
  | .delimiter side => if isOpening side then side :: delimiters else delimiters.tail
  | _ => delimiters

def synchronizeTurn (closing : Option Delimiter) (delimiters : List Delimiter) :
    ParseM source (Turn (List Delimiter) Unit) := do
  match ← current with
  | none => return .done ()
  | some token =>
    if ← isCancelled then return .done ()
    if delimiters.isEmpty && closing.any (fun side => token.kind == .delimiter side) then return .done ()
    if delimiters.isEmpty && (token.kind == .newline || token.kind == .operator .semicolon
        || token.kind == .operator .background) then
      advance 1
      return .done ()
    advance 1
    return .again (pendingAfter delimiters token.kind)

/-- Skips to the next statement boundary, or up to the closing delimiter. -/
def synchronize (closing : Option Delimiter) : ParseM source Unit := iterate (synchronizeTurn closing) []

/-- Items with commas between them.  Rules differ in whether they look for the end
before an item and whether they look again after a comma. -/
def separated (looksFirst looksAgain : Bool) (atEnd : ParseM source Bool) (item : ParseM source α) :
    ParseM source (List α) :=
  iterate (fun items => do
    if looksFirst && (← atEnd) then return .done items
    let value ← item
    let items := items ++ [value]
    skipLayout
    if (← takeOperator .comma).isNone then return .done items
    skipLayout
    if looksAgain && (← atEnd) then return .done items
    return .again items) []

/-! ## Looking ahead -/

/-- `next_non_inline_position` and `next_non_layout_position`: the first token from
a position on that is not skipped.  `left` is what the tokens from there on are. -/
def nextUnskipped (skipped : TokenKind → Bool) (position : Nat) : List (PlacedToken source) → Option Nat
  | [] => none
  | token :: more => if skipped token.kind then nextUnskipped skipped (position + 1) more else some position

def nextNonInlinePosition (position : Nat) : ParseM source (Option Nat) := fun input parser =>
  .ok (nextUnskipped isInline position (input.tokens.drop position)) parser

def nextNonLayoutPosition (position : Nat) : ParseM source (Option Nat) := fun input parser =>
  .ok (nextUnskipped isLayout position (input.tokens.drop position)) parser

/-- `self.tokens.get(position)`. -/
def tokenAt (position : Nat) : ParseM source (Option (PlacedToken source)) := fun input parser =>
  .ok input.tokens[position]? parser

/-- `self.tokens[position]`. -/
def tokenIndexed (position : Nat) : ParseM source (PlacedToken source) := do
  expect (← tokenAt position)

def nextNonInline (position : Nat) : ParseM source (Option (PlacedToken source)) := do
  match ← nextNonInlinePosition position with
  | some position => tokenAt position
  | none => return none

/-- `self.bracket_ends[position]`. -/
def bracketEnd (position : Nat) : ParseM source Nat := do
  expect (← get).bracketEnds[position]?

/-! ## Depths -/

def enterContinuation : ParseM source Unit :=
  modify fun parser => { parser with continuationDepth := parser.continuationDepth + 1 }

def leaveContinuation : ParseM source Unit := do
  let parser ← get
  if parser.continuationDepth = 0 then panic
  set { parser with continuationDepth := parser.continuationDepth - 1 }

/-- A part of a rule that stands between an increment and a decrement of the
continuation depth.  An error leaves the depth as it is. -/
def continued (part : ParseM source α) : ParseM source α := do
  enterContinuation
  let result ← part
  leaveContinuation
  return result

/-- The same, with the decrement on every way out. -/
def continuedAlways (part : ParseM source α) : ParseM source α := do
  enterContinuation
  let result ← observed part
  leaveContinuation
  replay result

end Parser

end Opaal.Syntax
