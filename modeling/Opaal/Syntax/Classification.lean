import Opaal.Syntax.Token

/-!
# Structural classification of a token stream

`classification.rs`, with the parts of `diagnostic.rs` it builds.  The
classifier walks the tokens of a source with a stack of open frames, before any
parsing.  Tokens carry spans that are known to address the source, as the
first pass of the classifier establishes for the tokens it is given.
-/

namespace Opaal.Syntax

inductive Severity where
  | error | warning | note
  deriving DecidableEq, Repr

inductive LabelStyle where
  | primary | secondary
  deriving DecidableEq, Repr

structure Label (σ : Type) where
  style : LabelStyle
  span : σ
  message : String
  deriving DecidableEq, Repr

structure Diagnostic (σ : Type) where
  severity : Severity
  code : String
  message : String
  labels : List (Label σ)
  notes : List String
  deriving DecidableEq, Repr

def Diagnostic.new (σ : Type) (severity : Severity) (code message : String) : Diagnostic σ :=
  { severity, code, message, labels := [], notes := [] }

def Diagnostic.withPrimary {σ : Type} (diagnostic : Diagnostic σ) (span : σ) (message : String) : Diagnostic σ :=
  { diagnostic with labels := diagnostic.labels ++ [{ style := .primary, span, message }] }

/-- Why otherwise valid input requires another token or closing delimiter. -/
inductive IncompleteReason where
  | unmatchedSingleQuote | unmatchedDoubleQuote | trailingBackslash | unmatchedInterpolation | pipelineStage
  | redirectionTarget | functionBlock | closureBody | call | parenthesis | bracket | brace | expression
  | typeReference | conditionalOperand
  deriving DecidableEq, Repr

/-- Valid source that requires more input to finish its current construct. -/
structure IncompleteInput (σ : Type) where
  reason : IncompleteReason
  span : σ
  deriving DecidableEq, Repr

inductive SyntaxClassification (σ : Type) where
  | complete
  | incomplete (input : IncompleteInput σ)
  | invalid (diagnostic : Diagnostic σ)
  deriving DecidableEq, Repr

/-- A token whose span addresses the source. -/
structure PlacedToken (source : SourceFile) where
  kind : TokenKind
  span : source.Region
  deriving DecidableEq, Repr

def PlacedToken.text {source : SourceFile} (token : PlacedToken source) : Except SpanError (List Char) :=
  source.slice token.span.toSpan

def PlacedToken.isAdjacentTo {source : SourceFile} (token next : PlacedToken source) : Bool :=
  token.span.sourceId == next.span.sourceId && token.span.stop == next.span.start

/-- The check of a token's span against the source. -/
def Token.placed (source : SourceFile) (token : Token) : Except SpanError (PlacedToken source) :=
  match valid : source.validateSpan token.span with
  | .ok () => .ok ⟨token.kind, ⟨token.span, SourceFile.covers_of_validateSpan valid⟩⟩
  | .error error => .error error

inductive FrameKind where
  | doubleQuote
  | interpolation
  | parenthesis (call : Bool)
  | bracket
  | brace (closure function : Bool)
  deriving DecidableEq, Repr

structure Frame (σ : Type) where
  kind : FrameKind
  span : σ
  deriving DecidableEq, Repr

def canEndCallee : TokenKind → Bool
  | .identifier | .delimiter .rightParenthesis | .delimiter .rightBracket => true
  | _ => false

def isSignificant : TokenKind → Bool
  | .whitespace | .newline | .comment | .documentationComment => false
  | _ => true

def closedByParenthesis : FrameKind → Bool
  | .parenthesis _ => true
  | _ => false

def closedByBrace : FrameKind → Bool
  | .brace _ _ | .interpolation => true
  | _ => false

def frameReason : FrameKind → IncompleteReason
  | .doubleQuote => .unmatchedDoubleQuote
  | .interpolation => .unmatchedInterpolation
  | .parenthesis true => .call
  | .parenthesis false => .parenthesis
  | .bracket => .bracket
  | .brace true _ => .closureBody
  | .brace false true => .functionBlock
  | .brace false false => .brace

def invalidTokenMessage : InvalidTokenKind → String
  | .nul => "NUL byte is not valid source"
  | .loneCarriageReturn => "lone carriage return is not a valid line ending"
  | .unknownDoubleEscape => "unknown double-quoted escape"
  | .emptyUnicodeEscape => "Unicode escape requires hexadecimal digits"
  | .unicodeSurrogate => "Unicode escape cannot encode a surrogate"
  | .unicodeOutOfRange => "Unicode escape exceeds the scalar range"
  | .malformedUnicodeEscape => "malformed Unicode escape"
  | .dollarSyntax => "dollar syntax is unsupported; use a bare name or `\x7bexpression\x7d` interpolation"
  | .unmatchedInterpolationBrace => "unmatched interpolation brace; use `\x7d\x7d` for a literal brace"

section Classifier

variable {source : SourceFile}

def invalidTokenDiagnostic (token : PlacedToken source) (kind : InvalidTokenKind) : Diagnostic source.Region :=
  (Diagnostic.new source.Region .error "OP0001" (invalidTokenMessage kind)).withPrimary token.span
    (invalidTokenMessage kind)

def unexpectedCloser (span : source.Region) : SyntaxClassification source.Region :=
  .invalid ((Diagnostic.new source.Region .error "OP0002" "unexpected closing delimiter").withPrimary span
    "unexpected closing delimiter")

/-- The first pass: every token's text is read, and the first invalid token
decides. -/
def firstInvalid : List (PlacedToken source) → Except SpanError (Option (Diagnostic source.Region))
  | [] => return none
  | token :: more => do
    let _ ← token.text
    match token.kind with
    | .invalid kind => return some (invalidTokenDiagnostic token kind)
    | _ => firstInvalid more

/-- `pop_where`: the frames below the innermost one when it is accepted. -/
def popWhere (frames : List (Frame source.Region)) (accepts : FrameKind → Bool) :
    Option (List (Frame source.Region)) :=
  match frames with
  | frame :: outer => if accepts frame.kind then some outer else none
  | [] => none

def endsStatement (token : PlacedToken source) : Bool :=
  token.kind == .newline || token.kind == .operator .semicolon

/-- `passed` holds the tokens before the brace, newest first. -/
def statementContainsKeyword (passed : List (PlacedToken source)) (word : Keyword) : Bool :=
  (passed.takeWhile (!endsStatement ·)).any (·.kind == .keyword word)

/-- Where the second pass stands. -/
structure Walk (source : SourceFile) where
  frames : List (Frame source.Region)
  previousSignificant : Option (PlacedToken source)
  passed : List (PlacedToken source)

/-- The frames after a delimiter, or the closer that matches none. -/
def classifyDelimiter (walk : Walk source) (token : PlacedToken source) (next : Option (PlacedToken source))
    (side : Delimiter) : Option (List (Frame source.Region)) :=
  match side with
  | .leftParenthesis =>
    let call := walk.previousSignificant.any (canEndCallee ·.kind)
    some (⟨.parenthesis call, token.span⟩ :: walk.frames)
  | .leftBracket => some (⟨.bracket, token.span⟩ :: walk.frames)
  | .leftBrace =>
    let closure := next.any fun next =>
      token.isAdjacentTo next && (next.kind == .operator .pipe || next.kind == .operator .or)
    let function := statementContainsKeyword walk.passed .def_
    some (⟨.brace closure function, token.span⟩ :: walk.frames)
  | .rightParenthesis => popWhere walk.frames closedByParenthesis
  | .rightBracket => popWhere walk.frames (· == .bracket)
  | .rightBrace => popWhere walk.frames closedByBrace

/-- One token of the second pass: the frames after it, or the verdict it forces. -/
def classifyToken (walk : Walk source) (token : PlacedToken source) (next : Option (PlacedToken source)) :
    Except SpanError (Except (SyntaxClassification source.Region) (List (Frame source.Region))) := do
  match token.kind with
  | .singleQuoted =>
    let text ← token.text
    if Text.width text < 2 || text.getLast? != some '\'' then
      return .error (.incomplete ⟨.unmatchedSingleQuote, token.span⟩)
    else return .ok walk.frames
  | .doubleQuoteStart => return .ok (⟨.doubleQuote, token.span⟩ :: walk.frames)
  | .doubleQuoteEnd =>
    match popWhere walk.frames (· == .doubleQuote) with
    | some frames => return .ok frames
    | none => return .error (unexpectedCloser token.span)
  | .interpolationStart => return .ok (⟨.interpolation, token.span⟩ :: walk.frames)
  | .delimiter side =>
    match classifyDelimiter walk token next side with
    | some frames => return .ok frames
    | none => return .error (unexpectedCloser token.span)
  | _ => return .ok walk.frames

def trailingRequirement (token : PlacedToken source) : Except SpanError (Option IncompleteReason) := do
  match token.kind with
  | .bareEscape => return if (← token.text) == ['\\'] then some .trailingBackslash else none
  | .lineContinuation => return if token.span.stop == source.len then some .trailingBackslash else none
  | .operator .pipe | .operator .pipeBoth => return some .pipelineStage
  | .operator .less | .operator .greater | .operator .append | .operator .duplicate =>
    return some .redirectionTarget
  | _ => return none

/-- What the end of the tokens decides. -/
def classifyEnd (walk : Walk source) : Except SpanError (SyntaxClassification source.Region) := do
  match walk.frames with
  | frame :: _ => return .incomplete ⟨frameReason frame.kind, frame.span⟩
  | [] =>
    match walk.previousSignificant with
    | none => return .complete
    | some token =>
      match ← trailingRequirement token with
      | some reason => return .incomplete ⟨reason, token.span⟩
      | none => return .complete

/-- The walk after a token that left `frames` open. -/
def Walk.past (walk : Walk source) (token : PlacedToken source) (frames : List (Frame source.Region)) :
    Walk source where
  frames := frames
  previousSignificant := if isSignificant token.kind then some token else walk.previousSignificant
  passed := token :: walk.passed

/-- The second pass. -/
def classifyFrom : Walk source → List (PlacedToken source) → Except SpanError (SyntaxClassification source.Region)
  | walk, [] => classifyEnd walk
  | walk, token :: more => do
    match ← classifyToken walk token more.head? with
    | .error classification => return classification
    | .ok frames => classifyFrom (walk.past token frames) more

def classifyOpaalTokens (tokens : List (PlacedToken source)) :
    Except SpanError (SyntaxClassification source.Region) := do
  match ← firstInvalid tokens with
  | some diagnostic => return .invalid diagnostic
  | none => classifyFrom { frames := [], previousSignificant := none, passed := [] } tokens

end Classifier

end Opaal.Syntax
