import Opaal.Syntax.Parser.Names

/-!
# Expressions, words and commands

The operator ladder, postfix forms and primaries, words and command stages, and
the chains that join them.
-/

namespace Opaal.Syntax

open Opaal.Machine

namespace Parser

variable {source : SourceFile}

/-! ## Lookahead -/

def isBareWordToken : TokenKind → Bool
  | .identifier | .keyword _ | .number _ | .wordText => true
  | .operator spelled =>
    [.assign, .addAssign, .subtractAssign, .multiplyAssign, .divideAssign, .remainderAssign, .equal, .notEqual,
      .plus, .minus, .star, .slash, .percent, .bang, .range, .rangeInclusive, .arrow, .matchArrow, .dot, .comma,
      .colon, .caret].contains spelled
  | _ => false

def canStartWord (kind : TokenKind) : Bool :=
  (match kind with
    | .identifier | .keyword _ | .number _ | .wordText | .bareEscape | .singleQuoted | .doubleQuoteStart
    | .interpolationStart => true
    | _ => false) || isBareWordToken kind

def isAssignment : TokenKind → Bool
  | .operator spelled =>
    [.assign, .addAssign, .subtractAssign, .multiplyAssign, .divideAssign, .remainderAssign].contains spelled
  | _ => false

def nameIsAssignment : ParseM source Bool := do
  return (← nextNonInline ((← get).position + 1)).any (isAssignment ·.kind)

def nameIsIndexedAssignment : ParseM source Bool := do
  match ← nextNonInlinePosition ((← get).position + 1) with
  | none => return false
  | some opened =>
    let close ← bracketEnd opened
    return close > opened && (← nextNonInline (close + 1)).any (·.kind == .operator .assign)

/-- What ends a command, but for the end of the tokens and closures. -/
def isCommandEnd : TokenKind → Bool
  | .newline | .operator .semicolon | .operator .pipe | .operator .pipeBoth | .operator .and | .operator .or
  | .operator .background | .delimiter .rightParenthesis | .delimiter .rightBracket | .delimiter .rightBrace => true
  | _ => false

def isExpressionEnd (kind : TokenKind) : Bool :=
  isCommandEnd kind || kind == .operator .comma || kind == .operator .matchArrow || kind == .delimiter .leftBrace

def startsClosure : ParseM source Bool := do
  match ← current with
  | none => return false
  | some opened =>
    return opened.kind == .delimiter .leftBrace && (← peek 1).any fun marker =>
      opened.isAdjacentTo marker && (marker.kind == .operator .pipe || marker.kind == .operator .or)

def startsForcedCommand : ParseM source Bool := do
  match ← current with
  | none => return false
  | some marker =>
    return marker.kind == .operator .caret && (← peek 1).any fun next =>
      marker.isAdjacentTo next && canStartWord next.kind

def isRedirection : TokenKind → Bool
  | .operator .less | .operator .greater | .operator .append | .operator .duplicate => true
  | _ => false

def ioNumberBeforeRedirection : ParseM source Bool := do
  match ← current with
  | none => return false
  | some number =>
    return number.kind == .number .integer && (← peek 1).any fun operator =>
      number.isAdjacentTo operator && isRedirection operator.kind

def startsRedirection : ParseM source Bool := do
  return (← currentKind).any isRedirection || (← ioNumberBeforeRedirection)

def atCommandEnd : ParseM source Bool := do
  if ← startsClosure then return false
  match ← currentKind with
  | none => return true
  | some kind => return isCommandEnd kind

def atExpressionEnd : ParseM source Bool := do
  match ← currentKind with
  | none => return true
  | some kind => return isExpressionEnd kind

/-- The tokens after a name that make it an operand. -/
def continuesName : TokenKind → Bool
  | .delimiter .leftParenthesis | .delimiter .leftBracket => true
  | .operator spelled =>
    [.colon, .dot, .equal, .notEqual, .less, .lessEqual, .greater, .greaterEqual, .plus, .minus, .star, .slash,
      .percent, .range, .rangeInclusive].contains spelled
  | _ => false

/-- The tokens an expression can start with, but for names. -/
def startsOperand : TokenKind → Bool
  | .delimiter .leftParenthesis | .delimiter .leftBracket | .delimiter .leftBrace | .operator .bang
  | .operator .plus | .operator .minus => true
  | kind => startsLiteral kind

/-- ` --`: a long option after a command name, not a subtraction. -/
def startsLongOption (name : Option (PlacedToken source)) (next second : Option (PlacedToken source)) : Bool :=
  next.any fun next => next.kind == .operator .minus && !name.any (·.isAdjacentTo next) &&
    second.any fun second => second.kind == .operator .minus && next.isAdjacentTo second

/-- Whether a name starts an expression, from what follows it. -/
def nameStartsExpression : ParseM source Bool := do
  let parser ← get
  let name ← current
  let nextPosition ← nextNonInlinePosition (parser.position + 1)
  let next ← nextPosition.elim (pure none) tokenAt
  if parser.valueChainDepth > 0 && next.all (isCommandEnd ·.kind) then return true
  if parser.controlConditionDepth > 0 && next.any (·.kind == .delimiter .leftBrace) then return true
  let second ← nextPosition.elim (pure none) (fun position => tokenAt (position + 1))
  if startsLongOption name next second then return false
  return next.any (continuesName ·.kind) || (next.any (·.kind == .operator .colon)
    && (← nextNonInline (parser.position + 2)).any (·.kind == .operator .colon))

def startsExpressionStage : ParseM source Bool := do
  match ← currentKind with
  | some .identifier => nameStartsExpression
  | some kind => return startsOperand kind
  | none => return false

def startsNominalRecord : ParseM source Bool := do
  if !(← atKind (.delimiter .leftBrace)) then return false
  let parser ← get
  match ← nextNonLayoutPosition (parser.position + 1) with
  | none => return false
  | some first =>
    match (← tokenIndexed first).kind with
    | .delimiter .rightBrace => return true
    | .identifier =>
      match ← nextNonLayoutPosition (first + 1) with
      | none => return false
      | some position =>
        let colon ← tokenIndexed position
        let second ← tokenAt (position + 1)
        return (colon.kind == .operator .colon && !second.any fun second =>
            second.kind == .operator .colon && colon.isAdjacentTo second)
          || (parser.blockHeaderDepth != some parser.continuationDepth
            && (colon.kind == .operator .comma || colon.kind == .delimiter .rightBrace))
    | _ => return false

def bracketIsFollowedByCall : ParseM source Bool := do
  let parser ← get
  let close ← bracketEnd parser.position
  if close ≤ parser.position then return false
  let tokens := (← read).tokens
  match nextUnskipped (isInlineIn parser.continuationDepth) (close + 1) (tokens.drop (close + 1)) with
  | some position => return tokens[position]?.any (·.kind == .delimiter .leftParenthesis)
  | none => return false

variable (grammar : Grammar source)

/-! ## Parameters and closures -/

/-- One parameter of a function or a closure. -/
def parseParameter : ParseM source (Parameter source.Region) := do
  let start ← currentSpan
  let pattern ← grammar.pattern
  match pattern.primaryBinding with
  | none => invalidAt pattern.span "parameter pattern must bind a name"
  | some name =>
    skipInline
    let annotatedType ← parseOptionalType grammar .colon skipLayout
    let stop := annotatedType.elim name.span.stop (·.span.stop)
    return .mk pattern name annotatedType (← span start.start stop)

def parseParameters (closing : Delimiter) : ParseM source (List (Parameter source.Region)) := do
  skipLayout
  separated true true (atDelimiter (some closing)) (parseParameter grammar)

def parseClosureParameters : ParseM source (List (Parameter source.Region)) := do
  skipLayout
  separated true false (atKind (.operator .pipe)) (parseParameter grammar)

/-- A chain in value position; the depth is restored on every way out. -/
def parseValueChain : ParseM source (ConditionalChain source.Region) := do
  modify fun parser => { parser with valueChainDepth := parser.valueChainDepth + 1 }
  let chain ← observed grammar.conditionalChain
  let parser ← get
  if parser.valueChainDepth = 0 then panic
  set { parser with valueChainDepth := parser.valueChainDepth - 1 }
  replay chain

/-- The parameters after the first `|`; `||` has none. -/
def parseClosureHead (marker : PlacedToken source) : ParseM source (List (Parameter source.Region)) := do
  if marker.kind == .operator .or then return []
  let parameters ← parseClosureParameters grammar
  let _ ← expectOperator .pipe "closure parameters require a closing `|`"
  return parameters

def parseClosure : ParseM source (Closure source.Region) := do
  let opened ← expectDelimiter .leftBrace "expected a closure"
  let marker ← expect (← take)
  let (parameters, resultType, body, close) ← continued do
    let parameters ← parseClosureHead grammar marker
    skipLayout
    let resultType ← parseOptionalType grammar .arrow skipLayout
    skipLayout
    let body ← parseValueChain grammar
    skipLayout
    let close ← expectDelimiter .rightBrace "closure body is not closed"
    return (parameters, resultType, body, close)
  return .mk parameters resultType body (← span opened.span.start close.span.stop)

/-! ## Words -/

/-- The end of the bare tokens that stand without a gap from `stop` on. -/
def takeBareTokens (stop : Nat) : ParseM source Nat :=
  iterate (fun stop => do
    match ← current with
    | some next =>
      if next.span.start == stop && isBareWordToken next.kind then
        checkCancelled
        advance 1
        return .again next.span.stop
      else return .done stop
    | none => return .done stop) stop

def isBrace : TokenKind → Bool
  | .delimiter .leftBrace | .delimiter .rightBrace => true
  | _ => false

/-- A part that is the current token alone. -/
def takePart (kind : WordPartKind source.Region) (token : PlacedToken source) :
    ParseM source (Option (WordPart source.Region)) := do
  advance 1
  return some (.mk kind token.span)

/-- A part that is a brace written twice. -/
def takeDoubledBrace (token next : PlacedToken source) : ParseM source (Option (WordPart source.Region)) := do
  advance 2
  return some (.mk .escapedBrace (← span token.span.start next.span.stop))

def parseWordPart : ParseM source (Option (WordPart source.Region)) := do
  checkCancelled
  match ← current with
  | none => return none
  | some token =>
    let next ← peek 1
    if isBrace token.kind && next.any (fun next => next.kind == token.kind && token.isAdjacentTo next) then
      return ← takeDoubledBrace token (← expect next)
    match token.kind with
    | .bareEscape => takePart .bareEscape token
    | .singleQuoted => takePart .singleQuoted token
    | .doubleQuoteStart => return some (← parseDoubleQuoted grammar)
    | .interpolationStart | .delimiter .leftBrace => return some (← parseInterpolation grammar)
    | .escapedBrace => takePart .escapedBrace token
    | kind =>
      if isBareWordToken kind then
        advance 1
        let stop ← takeBareTokens token.span.stop
        return some (.mk .bare (← span token.span.start stop))
      else return none

def parseWord : ParseM source (Word source.Region) := do
  checkCancelled
  let start ← currentSpan
  let (parts, stop) ← iterate (fun (parts, stop) => do
    checkCancelled
    if !parts.isEmpty && (← current).any (fun token => token.span.start != stop) then return .done (parts, stop)
    match ← parseWordPart grammar with
    | none => return .done (parts, stop)
    | some part => return .again (parts ++ [part], part.span.stop)) (([] : List (WordPart source.Region)), start.start)
  if parts.isEmpty then invalidHere "expected a command word"
  return .mk parts (← span start.start stop)

/-! ## Command items -/

def parseSpreadItem : ParseM source (CommandItem source.Region) := do
  let spread ← expect (← take)
  match ← current with
  | none => incompleteAt .expression spread.span
  | some opened =>
    if opened.kind != .delimiter .leftBrace || spread.span.stop != opened.span.start then
      invalidAt spread.span "spread requires an adjacent `\x7bexpression\x7d`"
    let interpolation ← parseInterpolation grammar
    let span ← span spread.span.start interpolation.span.stop
    match interpolation.kind with
    | .interpolation expression => return .mk (.spread expression) span
    | _ => panic

def parseRedirectionTarget (operator : source.Region) : ParseM source (Word source.Region) := do
  if (← isEnd) || (← atCommandEnd) then incompleteAt .redirectionTarget operator
  parseWord grammar

/-- What follows `>&`. -/
def parseDuplicate (descriptor : IoNumber source.Region) (operatorSpan : source.Region) :
    ParseM source (RedirectionKind source.Region × Nat) := do
  skipInline
  match ← currentKind with
  | some (.number .integer) =>
    let target ← expect (← take)
    return (.duplicate descriptor operatorSpan ⟨target.span⟩, target.span.stop)
  | some (.operator .minus) =>
    let target ← expect (← take)
    return (.close descriptor operatorSpan target.span, target.span.stop)
  | some _ => invalidHere "descriptor duplication requires a decimal descriptor or `-`"
  | none => incompleteAt .redirectionTarget operatorSpan

/-- The redirection after its operator, and where it ends. -/
def parseRedirectionKind (descriptor : Option (IoNumber source.Region)) (operator : PlacedToken source) :
    ParseM source (RedirectionKind source.Region × Nat) := do
  match operator.kind with
  | .operator .less =>
    skipInline
    let target ← parseRedirectionTarget grammar operator.span
    return (.input descriptor operator.span target, target.span.stop)
  | .operator .greater =>
    skipInline
    let target ← parseRedirectionTarget grammar operator.span
    return (.file descriptor .truncate operator.span target, target.span.stop)
  | .operator .append =>
    skipInline
    let target ← parseRedirectionTarget grammar operator.span
    return (.file descriptor .append operator.span target, target.span.stop)
  | .operator .duplicate =>
    match descriptor with
    | none => invalidAt operator.span "descriptor duplication requires a source descriptor"
    | some descriptor => parseDuplicate descriptor operator.span
  | _ => invalidAt operator.span "expected a redirection operator"

/-- The descriptor before a redirection operator. -/
def takeIoNumber : ParseM source (Option (IoNumber source.Region)) := do
  if ← ioNumberBeforeRedirection then
    let number ← expect (← take)
    return some ⟨number.span⟩
  else return none

def parseRedirectionItem : ParseM source (CommandItem source.Region) := do
  let start ← currentSpan
  let descriptor ← takeIoNumber
  match ← take with
  | none => incompleteHere .redirectionTarget
  | some operator =>
    let (kind, stop) ← parseRedirectionKind grammar descriptor operator
    let span ← span start.start stop
    return .mk (.redirection kind span) span

def parseCommandItem : ParseM source (CommandItem source.Region) := do
  if ← startsRedirection then return ← parseRedirectionItem grammar
  if ← atKind (.operator .spread) then return ← parseSpreadItem grammar
  if ← startsClosure then
    let closure ← parseClosure grammar
    return .mk (.closure closure) closure.span
  let word ← parseWord grammar
  return .mk (.word word) word.span

/-! ## Primaries -/

def parseListItem : ParseM source (ListItem source.Region) := do
  let marker ← takeOperator .spread
  let operand ← grammar.expression
  match marker with
  | some marker => return .spread marker.span operand
  | none => return .element operand

def parseList : ParseM source (Expression source.Region) := do
  let opened ← expect (← take)
  let (values, close) ← continued do
    skipLayout
    let values ← separated true true (atDelimiter (some .rightBracket)) (parseListItem grammar)
    let close ← expectDelimiter .rightBracket "list is not closed"
    return (values, close)
  return .mk (.list values) (← span opened.span.start close.span.stop)

def parseRecordFieldValue (name : Identifier source.Region) (message : String) :
    ParseM source (Expression source.Region) := do
  checkCancelled
  if ← atShorthandEnd then return .mk (.name { name, span := name.span }) name.span
  let _ ← expectOperator .colon message
  skipLayout
  grammar.expression

def parseRecordKey : ParseM source (RecordKey source.Region) := do
  match ← currentKind with
  | some .identifier => return .identifier (← parseIdentifier)
  | some .singleQuoted => return .singleQuoted (← expect (← take)).span
  | some .doubleQuoteStart => return .doubleQuoted (← parseDoubleQuoted grammar)
  | some _ => invalidHere "expected a record key"
  | none => incompleteHere .expression

def parseRecordEntry : ParseM source (RecordEntry source.Region) := do
  let start ← currentSpan
  let key ← parseRecordKey grammar
  skipInline
  let value ← match key with
    | .identifier name => parseRecordFieldValue grammar name "record entry requires `:`"
    | _ => do
      let _ ← expectOperator .colon "record entry requires `:`"
      skipLayout
      grammar.expression
  return .mk key value (← span start.start value.span.stop)

def parseRecord : ParseM source (Expression source.Region) := do
  let opened ← expect (← take)
  let (entries, close) ← continued do
    skipLayout
    let entries ← separated true true (atDelimiter (some .rightBrace)) (parseRecordEntry grammar)
    let close ← expectDelimiter .rightBrace "record is not closed"
    return (entries, close)
  return .mk (.record entries) (← span opened.span.start close.span.stop)

/-- A compound assignment cannot stand where an expression is parsed. -/
def forbidCompoundAssignment : ParseM source Unit := do
  if (← atKind .identifier) && (← nameIsAssignment) then
    match ← nextNonInline ((← get).position + 1) with
    | some token =>
      if token.kind != .operator .assign then
        invalidAt token.span "compound assignment requires a statement"
    | none => return ()

def parseGroupedJob : ParseM source (Expression source.Region) := do
  let opened ← expect (← take)
  let (chain, close) ← continued do
    skipLayout
    forbidCompoundAssignment
    let chain ← grammar.conditionalChain
    skipLayout
    if ← atKind (.operator .background) then invalidHere "backgrounding is forbidden inside a grouped job"
    let close ← expectDelimiter .rightParenthesis "grouped job is not closed"
    return (chain, close)
  return .mk (.groupedJob chain) (← span opened.span.start close.span.stop)

def parsePrimary : ParseM source (Expression source.Region) := do
  checkCancelled
  skipInline
  match ← currentKind with
  | none => incompleteHere .expression
  | some kind =>
    if startsLiteral kind then
      let literal ← parseLiteral grammar
      return .mk (.literal literal) literal.span
    match kind with
    | .identifier =>
      let name ← parseNameReference
      return .mk (.name name) name.span
    | .delimiter .leftBracket => parseList grammar
    | .delimiter .leftBrace =>
      if ← startsClosure then
        let closure ← parseClosure grammar
        return .mk (.closure closure) closure.span
      else parseRecord grammar
    | .delimiter .leftParenthesis => parseGroupedJob grammar
    | _ => invalidHere "expected an expression"

/-! ## Postfix forms -/

def isNamed (expression : Expression source.Region) : Bool :=
  match expression.kind with
  | .name _ | .qualified _ => true
  | _ => false

/-- The path a name or a qualified name spells. -/
def qualifiedOf (expression : Expression source.Region) : Option (QualifiedName source.Region) :=
  match expression.kind with
  | .name reference => some { segments := [reference.name], span := reference.span, nonempty := by simp }
  | .qualified name => some name
  | _ => none

/-- `::segment` after a name, or nothing when only one colon is there. -/
def parseQualifiedPostfix (expression : Expression source.Region) :
    ParseM source (Turn (Expression source.Region) (Expression source.Region)) := do
  let checkpoint := (← get).position
  advance 1
  if (← takeOperator .colon).isNone then
    restore checkpoint
    return .done expression
  skipInline
  let segment ← parseIdentifier
  let name ← expect (qualifiedOf expression)
  let start := name.first.span.start
  let span ← span start segment.span.stop
  return .again (.mk (.qualified { segments := name.segments ++ [segment], span, nonempty := by simp }) span)

def parseNominalField : ParseM source (NominalRecordFieldExpression source.Region) := do
  let field ← parseIdentifier
  skipInline
  let value ← parseRecordFieldValue grammar field "nominal field requires `:`"
  return .mk field value (← span field.span.start value.span.stop)

def parseNominalRecord (expression : Expression source.Region) : ParseM source (Expression source.Region) := do
  let name ← expect (qualifiedOf expression)
  advance 1
  let (fields, close) ← continued do
    skipLayout
    let fields ← separated true false (atDelimiter (some .rightBrace)) (parseNominalField grammar)
    let close ← expectDelimiter .rightBrace "nominal record construction is not closed"
    return (fields, close)
  return .mk (.nominalRecord name fields) (← span name.span.start close.span.stop)

/-- The arguments of a call after its parenthesis.  A call without type arguments
looks for the closing parenthesis once more after a comma. -/
def parseCall (callee : Expression source.Region) (typeArguments : List (TypeReference source.Region))
    (looksAgain : Bool) : ParseM source (Expression source.Region) := do
  advance 1
  let (arguments, close) ← continued do
    skipLayout
    let arguments ← separated true looksAgain (atDelimiter (some .rightParenthesis)) grammar.expression
    let close ← expectDelimiter .rightParenthesis "call is not closed"
    return (arguments, close)
  return .mk (.call callee typeArguments arguments) (← span callee.span.start close.span.stop)

def parseIndex (target : Expression source.Region) : ParseM source (Expression source.Region) := do
  advance 1
  let (index, close) ← continued do
    skipLayout
    let index ← grammar.expression
    skipLayout
    let close ← expectDelimiter .rightBracket "index is not closed"
    return (index, close)
  return .mk (.index target index) (← span target.span.start close.span.stop)

/-- `[types]` before a call. -/
def parseExplicitTypeArguments : ParseM source (List (TypeReference source.Region)) := do
  advance 1
  continued do
    skipLayout
    let typeArguments ← separated true false (atDelimiter (some .rightBracket)) grammar.typeReference
    let _ ← expectDelimiter .rightBracket "explicit type arguments are not closed"
    return typeArguments

def parseBracketPostfix (expression : Expression source.Region) : ParseM source (Expression source.Region) := do
  if isNamed expression && (← bracketIsFollowedByCall) then
    let typeArguments ← parseExplicitTypeArguments grammar
    skipInline
    if ← atDelimiter (some .leftParenthesis) then return ← parseCall grammar expression typeArguments false
  parseIndex grammar expression

def parseMember (target : Expression source.Region) : ParseM source (Expression source.Region) := do
  advance 1
  skipInline
  let member ← parseIdentifier
  return .mk (.member target member) (← span target.span.start member.span.stop)

/-- One postfix form, or the end of them. -/
def parsePostfixStep (expression : Expression source.Region) :
    ParseM source (Turn (Expression source.Region) (Expression source.Region)) := do
  checkCancelled
  skipInline
  match ← currentKind with
  | some (.operator .colon) =>
    if isNamed expression then parseQualifiedPostfix expression else return .done expression
  | some (.delimiter .leftBrace) =>
    if isNamed expression && (← startsNominalRecord) then return .again (← parseNominalRecord grammar expression)
    else return .done expression
  | some (.delimiter .leftParenthesis) => return .again (← parseCall grammar expression [] true)
  | some (.delimiter .leftBracket) => return .again (← parseBracketPostfix grammar expression)
  | some (.operator .dot) => return .again (← parseMember expression)
  | _ => return .done expression

def parsePostfix : ParseM source (Expression source.Region) := do
  checkCancelled
  let expression ← parsePrimary grammar
  iterate (parsePostfixStep grammar) expression

/-! ## Operators -/

def unaryOperator : TokenKind → Option UnaryOperator
  | .operator .bang => some .not
  | .operator .plus => some .positive
  | .operator .minus => some .negative
  | _ => none

def parseUnary : ParseM source (Expression source.Region) := do
  checkCancelled
  match (← currentKind).bind unaryOperator with
  | none => parsePostfix grammar
  | some operator =>
    let token ← expect (← take)
    skipLayout
    let operand ← grammar.unary
    return .mk (.unary ⟨operator, token.span⟩ operand) (← span token.span.start operand.span.stop)

def binary (left : Expression source.Region) (operator : BinaryOperator) (operatorSpan : source.Region)
    (right : Expression source.Region) : ParseM source (Expression source.Region) := do
  return .mk (.binary left ⟨operator, operatorSpan⟩ right) (← span left.span.start right.span.stop)

/-- A left-associative level of the operator ladder. -/
def leftAssociative (operators : TokenKind → Option BinaryOperator)
    (operand : ParseM source (Expression source.Region)) : ParseM source (Expression source.Region) := do
  let first ← operand
  iterate (fun expression => do
    checkCancelled
    skipInline
    match (← currentKind).bind operators with
    | none => return .done expression
    | some operator =>
      let token ← expect (← take)
      skipLayout
      let right ← operand
      return .again (← binary expression operator token.span right)) first

/-- A level whose operators do not chain. -/
def nonAssociative (operators : TokenKind → Option BinaryOperator) (message : String)
    (operand : ParseM source (Expression source.Region)) : ParseM source (Expression source.Region) := do
  let left ← operand
  skipInline
  match (← currentKind).bind operators with
  | none => return left
  | some operator =>
    let token ← expect (← take)
    skipLayout
    let right ← operand
    let expression ← binary left operator token.span right
    skipInline
    if ((← currentKind).bind operators).isSome then invalidHere message
    return expression

def multiplicativeOperator : TokenKind → Option BinaryOperator
  | .operator .star => some .multiply
  | .operator .slash => some .divide
  | .operator .percent => some .remainder
  | _ => none

def additiveOperator : TokenKind → Option BinaryOperator
  | .operator .plus => some .add
  | .operator .minus => some .subtract
  | _ => none

def rangeOperator : TokenKind → Option BinaryOperator
  | .operator .range => some .range
  | .operator .rangeInclusive => some .rangeInclusive
  | _ => none

def comparisonOperator : TokenKind → Option BinaryOperator
  | .operator .less => some .less
  | .operator .lessEqual => some .lessEqual
  | .operator .greater => some .greater
  | .operator .greaterEqual => some .greaterEqual
  | .keyword .in_ => some .in_
  | _ => none

def equalityOperator : TokenKind → Option BinaryOperator
  | .operator .equal => some .equal
  | .operator .notEqual => some .notEqual
  | _ => none

def parseMultiplicative : ParseM source (Expression source.Region) :=
  leftAssociative multiplicativeOperator (parseUnary grammar)

def parseAdditive : ParseM source (Expression source.Region) :=
  leftAssociative additiveOperator (parseMultiplicative grammar)

def parseRange : ParseM source (Expression source.Region) :=
  nonAssociative rangeOperator "range operators are non-associative" (parseAdditive grammar)

def parseComparison : ParseM source (Expression source.Region) :=
  nonAssociative comparisonOperator "comparison operators are non-associative" (parseRange grammar)

def parseEquality : ParseM source (Expression source.Region) :=
  nonAssociative equalityOperator "equality operators are non-associative" (parseComparison grammar)

def parseExpression : ParseM source (Expression source.Region) := do
  checkCancelled
  parseEquality grammar

/-! ## Stages and chains -/

/-- The items of a command, and where the last one ends. -/
def parseCommandItems (stop : Nat) : ParseM source (List (CommandItem source.Region) × Nat) :=
  iterate (fun (items, stop) => do
    skipInline
    if ← atCommandEnd then return .done (items, stop)
    let item ← parseCommandItem grammar
    return .again (items ++ [item], item.span.stop)) ([], stop)

/-- The `^` of a forced external command. -/
def takeForcedMarker : ParseM source (Option (PlacedToken source)) := do
  if ← startsForcedCommand then return some (← expect (← take)) else return none

def requireAdjacent (marker : Option (PlacedToken source)) (word : Word source.Region) : ParseM source Unit := do
  match marker with
  | some token =>
    if token.span.stop != word.span.start then invalidAt token.span "`^` must be adjacent to a command name"
  | none => return ()

def parseCommandStage : ParseM source (Stage source.Region) := do
  let marker ← takeForcedMarker
  let word ← parseWord grammar
  requireAdjacent marker word
  let headStart := marker.elim word.span.start (·.span.start)
  let headSpan ← span headStart (← previousEnd)
  let head : CommandHead source.Region := .mk (if marker.isSome then .forcedExternal else .bare) word headSpan
  let (items, stop) ← parseCommandItems grammar headSpan.stop
  return .mk (.command head items) (← span headSpan.start stop)

/-- A keyword that cannot start a command. -/
def isReserved : TokenKind → Bool
  | .keyword .null | .keyword .true_ | .keyword .false_ => false
  | .keyword _ => true
  | _ => false

/-- Rejects what no stage can start with. -/
def checkStageStart : ParseM source Unit := do
  let kind ← currentKind
  if kind == some (.operator .pipe) || kind == some (.operator .pipeBoth) then
    invalidHere "pipeline operator cannot begin a stage"
  if kind.any isReserved then invalidHere "reserved words cannot start a command stage without `^`"
  if kind == some (.operator .caret) && !(← startsForcedCommand) then
    if (← peek 1).isNone then incompleteHere .expression
    else invalidHere "`^` must be adjacent to a command name"

def parseStage : ParseM source (Stage source.Region) := do
  skipInline
  checkStageStart
  if (← startsForcedCommand) || !(← startsExpressionStage) then parseCommandStage grammar
  else
    let expression ← parseExpression grammar
    return .mk (.expression expression) expression.span

def pipeOperator : TokenKind → Option PipeOperator
  | .operator .pipe => some .stdout
  | .operator .pipeBoth => some .stdoutAndStderr
  | _ => none

/-- Operands of type `α` joined by operators of one level, each followed by
another operand: the operands, the operators, where they start and end. -/
def joined {α ω : Type} (operators : TokenKind → Option ω) (reason : IncompleteReason)
    (operand : ParseM source α) (spanOf : α → source.Region) :
    ParseM source (List α × List (AstNode source.Region ω) × source.Region) := do
  let first ← operand
  let (terms, found, stop) ← iterate (fun (terms, found, stop) => do
    checkCancelled
    skipInline
    match (← currentKind).bind operators with
    | none => return .done (terms, found, stop)
    | some operator =>
      let token ← expect (← take)
      skipLayout
      if ← isEnd then incompleteAt reason token.span
      let term ← operand
      return .again (terms ++ [term], found ++ [⟨operator, token.span⟩], (spanOf term).stop))
    ([first], [], (spanOf first).stop)
  return (terms, found, ← span (spanOf first).start stop)

def parsePipeline : ParseM source (Pipeline source.Region) := do
  checkCancelled
  let (stages, operators, span) ← joined pipeOperator .pipelineStage (parseStage grammar) Stage.span
  return .mk stages operators span

def andOperator : TokenKind → Option AndOperator
  | .operator .and => some .and
  | _ => none

def parseAndChain : ParseM source (AndChain source.Region) := do
  checkCancelled
  let (terms, operators, span) ← joined andOperator .conditionalOperand (parsePipeline grammar) Pipeline.span
  return .mk terms operators span

def conditionalOperator : TokenKind → Option ConditionalOperator
  | .operator .or => some .or
  | _ => none

def parseConditionalChain : ParseM source (ConditionalChain source.Region) := do
  checkCancelled
  let (terms, operators, span) ← joined conditionalOperator .conditionalOperand (parseAndChain grammar) AndChain.span
  return .mk terms operators span

end Parser

end Opaal.Syntax
