import Opaal.Syntax.Parser.State

/-!
# Names, type references and patterns

The rules of the grammar refer to each other.  A rule that is entered again only
after at least one more token was taken is called through `Grammar`; the knot is
tied in `Script`, by the number of tokens.
-/

namespace Opaal.Syntax

open Opaal.Machine

/-- The rules that are entered recursively. -/
structure Grammar (source : SourceFile) where
  expression : ParseM source (Expression source.Region)
  unary : ParseM source (Expression source.Region)
  conditionalChain : ParseM source (ConditionalChain source.Region)
  pattern : ParseM source (Pattern source.Region)
  typeReference : ParseM source (TypeReference source.Region)
  statementList : Option Delimiter → ParseM source (List (Statement source.Region))
  ifNode : ParseM source (IfStatement source.Region × source.Region)

namespace Parser

variable {source : SourceFile}

def parseIdentifier : ParseM source (Identifier source.Region) := do
  match ← take with
  | some token =>
    if token.kind == .identifier then return ⟨token.span⟩ else invalidAt token.span "expected an identifier"
  | none => incompleteHere .expression

def parseNameReference : ParseM source (NameReference source.Region) := do
  let name ← parseIdentifier
  return { name, span := name.span }

/-- `::` with inline trivia before it, or nothing taken. -/
def takePathSeparator : ParseM source Bool := do
  let checkpoint := (← get).position
  skipInline
  if (← takeOperator .colon).isNone then
    restore checkpoint
    return false
  if (← takeOperator .colon).isNone then
    restore checkpoint
    return false
  return true

def parseQualifiedName : ParseM source (QualifiedName source.Region) := do
  let first ← parseIdentifier
  let (more, stop) ← iterate (fun (more, stop) => do
    if ← takePathSeparator then
      skipInline
      let segment ← parseIdentifier
      return .again (more ++ [segment], segment.span.stop)
    else return .done (more, stop)) (([] : List (Identifier source.Region)), first.span.stop)
  let span ← span first.span.start stop
  return { segments := first :: more, span, nonempty := by simp }

variable (grammar : Grammar source)

def parseTypeArguments : ParseM source (List (TypeReference source.Region)) :=
  separated false true (atDelimiter (some .rightBracket)) grammar.typeReference

def parseTypeReference : ParseM source (TypeReference source.Region) := do
  if ← isEnd then incompleteHere .typeReference
  let qualified ← parseQualifiedName
  let name := qualified.segments.getLast qualified.nonempty
  skipInline
  let mut arguments := []
  let mut stop := name.span.stop
  if (← takeDelimiter .leftBracket).isSome then
    skipLayout
    arguments ← parseTypeArguments grammar
    let close ← expectDelimiter .rightBracket "type arguments are not closed"
    stop := close.span.stop
  return .mk name arguments (← span qualified.span.start stop)

/-- A type after an introducing operator. -/
def parseOptionalType (introducer : Operator) (skip : ParseM source Unit) :
    ParseM source (Option (TypeReference source.Region)) := do
  if (← takeOperator introducer).isNone then return none
  skip
  return some (← grammar.typeReference)

/-! ## Double-quoted strings and literals -/

def parseInterpolation : ParseM source (WordPart source.Region) := do
  let opened ← expect (← take)
  let (expression, close) ← continued do
    skipLayout
    let expression ← grammar.expression
    skipLayout
    let close ← expectDelimiter .rightBrace "interpolation is not closed"
    return (expression, close)
  let span ← span opened.span.start close.span.stop
  modify fun parser => { parser with interpolationSpans := parser.interpolationSpans ++ [span] }
  return .mk (.interpolation expression) span

def parseDoubleQuoted : ParseM source (WordPart source.Region) := do
  checkCancelled
  let opened ← expect (← take)
  let parts ← iterate (fun parts => do
    if ← atKind .doubleQuoteEnd then return .done parts
    checkCancelled
    match ← current with
    | none => incompleteAt .unmatchedDoubleQuote opened.span
    | some token =>
      match token.kind with
      | .doubleText =>
        advance 1
        return .again (parts ++ [.mk .doubleText token.span])
      | .doubleEscape | .lineContinuation =>
        advance 1
        return .again (parts ++ [.mk .doubleEscape token.span])
      | .escapedBrace =>
        advance 1
        return .again (parts ++ [.mk .escapedBrace token.span])
      | .interpolationStart =>
        let part ← parseInterpolation grammar
        return .again (parts ++ [part])
      | _ => invalidHere "invalid double-quoted word part") ([] : List (WordPart source.Region))
  let close ← expect (← take)
  return .mk (.doubleQuoted parts) (← span opened.span.start close.span.stop)

def parseLiteral : ParseM source (Literal source.Region) := do
  match ← current with
  | none => incompleteHere .expression
  | some token =>
    match token.kind with
    | .keyword .null =>
      advance 1
      return .mk .null token.span
    | .keyword .true_ =>
      advance 1
      return .mk (.boolean true) token.span
    | .keyword .false_ =>
      advance 1
      return .mk (.boolean false) token.span
    | .number .integer =>
      advance 1
      return .mk .integer token.span
    | .number .float =>
      advance 1
      return .mk .float token.span
    | .singleQuoted =>
      advance 1
      return .mk .singleQuoted token.span
    | .doubleQuoteStart =>
      let part ← parseDoubleQuoted grammar
      match part.kind with
      | .doubleQuoted parts => return .mk (.doubleQuoted parts) part.span
      | _ => panic
    | _ => invalidHere "expected a literal"

/-- The kinds a literal starts with. -/
def startsLiteral : TokenKind → Bool
  | .keyword .null | .keyword .true_ | .keyword .false_ | .number _ | .singleQuoted | .doubleQuoteStart => true
  | _ => false

/-! ## Patterns -/

def atShorthandEnd : ParseM source Bool := do
  match ← nextNonLayoutPosition (← get).position with
  | some position =>
    let token ← tokenIndexed position
    return token.kind == .operator .comma || token.kind == .delimiter .rightBrace
  | none => return false

def parsePatternField : ParseM source (PatternField source.Region) := do
  checkCancelled
  let field ← parseIdentifier
  skipInline
  let pattern ← if ← atShorthandEnd then
      pure (if spells field.span "_" then .wildcard field.span else .binding field)
    else do
      let _ ← expectOperator .colon "record pattern field requires `:`"
      skipLayout
      grammar.pattern
  let span ← span field.span.start pattern.span.stop
  return .mk field pattern span

def parseNominalRecordPattern (name : QualifiedName source.Region) : ParseM source (Pattern source.Region) := do
  let _ ← take
  skipLayout
  let fields ← separated true false (atDelimiter (some .rightBrace)) (parsePatternField grammar)
  let close ← expectDelimiter .rightBrace "record pattern is not closed"
  return .nominalRecord name fields (← span name.span.start close.span.stop)

def parseVariantPattern (name : QualifiedName source.Region) : ParseM source (Pattern source.Region) := do
  let _ ← take
  skipLayout
  let payload ← separated true false (atDelimiter (some .rightParenthesis)) grammar.pattern
  let close ← expectDelimiter .rightParenthesis "variant pattern is not closed"
  return .variant name payload (← span name.span.start close.span.stop)

def parseListPattern : ParseM source (Pattern source.Region) := do
  let opened ← expect (← take)
  skipLayout
  let (elements, rest) ← iterate (fun (elements, rest) => do
    if ← atDelimiter (some .rightBracket) then return .done (elements, rest)
    if (← takeOperator .spread).isSome then
      if Option.isSome rest then invalidHere "list pattern has more than one rest binding"
      let name ← parseIdentifier
      skipLayout
      if !(← atDelimiter (some .rightBracket)) then invalidHere "list rest binding must be last"
      return .done (elements, some name)
    let pattern ← grammar.pattern
    let elements := elements ++ [pattern]
    skipLayout
    if (← takeOperator .comma).isNone then return .done (elements, rest)
    skipLayout
    return .again (elements, rest)) (([] : List (Pattern source.Region)), none)
  let close ← expectDelimiter .rightBracket "list pattern is not closed"
  return .list elements rest (← span opened.span.start close.span.stop)

/-- A pattern that starts with a name. -/
def parseNamePattern : ParseM source (Pattern source.Region) := do
  let name ← parseQualifiedName
  skipInline
  let first := name.segments.head name.nonempty
  if name.segments.length == 1 && spells first.span "_" then return .wildcard name.span
  if ← atDelimiter (some .leftBrace) then return ← parseNominalRecordPattern grammar name
  if ← atDelimiter (some .leftParenthesis) then return ← parseVariantPattern grammar name
  if name.segments.length > 1 then return .variant name [] name.span
  return .binding first

def parsePattern : ParseM source (Pattern source.Region) := do
  match ← currentKind with
  | some .identifier => parseNamePattern grammar
  | some (.delimiter .leftBracket) => parseListPattern grammar
  | some kind =>
    if startsLiteral kind then return .literal (← parseLiteral grammar)
    else invalidHere "expected a match pattern"
  | none => incompleteHere .expression

end Parser

mutual

/-- `pattern_primary_binding`: the first name a pattern binds. -/
def Pattern.primaryBinding {σ : Type} : Pattern σ → Option (Identifier σ)
  | .binding name => some name
  | .list elements rest _ => (Pattern.firstBinding elements).or rest
  | .nominalRecord _ fields _ => PatternField.firstBinding fields
  | .variant _ payload _ => Pattern.firstBinding payload
  | .wildcard _ | .literal _ => none

def Pattern.firstBinding {σ : Type} : List (Pattern σ) → Option (Identifier σ)
  | [] => none
  | pattern :: more => (Pattern.primaryBinding pattern).or (Pattern.firstBinding more)

def PatternField.firstBinding {σ : Type} : List (PatternField σ) → Option (Identifier σ)
  | [] => none
  | .mk _ pattern _ :: more => (Pattern.primaryBinding pattern).or (PatternField.firstBinding more)

end

end Opaal.Syntax
