import Opaal.Syntax.Parser.Expressions

/-!
# Statements and scripts

Every statement form, statement lists with error recovery, and the entry points
that run the lexer, the classifier and the parser on a source.
-/

namespace Opaal.Syntax

open Opaal.Machine
open Opaal.Text

namespace Parser

variable {source : SourceFile}

/-! ## Module imports and exports -/

def entryEnd : ModuleImportEntry source.Region → Nat
  | .alias_ entry => max entry.source.span.stop entry.alias_.span.stop
  | .members entry => entry.span.stop

def entryStatementKind : ModuleImportEntry source.Region → StatementKind source.Region
  | .alias_ entry => .moduleImport entry
  | .members entry => .moduleMemberImport entry

/-- `crate::lexer::is_identifier`. -/
def isIdentifier (text : List Char) : Bool :=
  (bytes text).head?.any isIdentifierStart && (bytes text).all isIdentifierContinue && (keyword text).isNone

/-- `rsplit('/').next()`: what follows the last slash. -/
def lastComponent (path : List Char) : List Char := (path.reverse.takeWhile (· != '/')).reverse

/-- `strip_suffix(".opaal").unwrap_or(component)`. -/
def stemOf (component : List Char) : List Char :=
  if ".opaal".toList.isSuffixOf component then component.take (component.length - ".opaal".toList.length)
  else component

/-- `literal[1..literal.len() - 1]`. -/
def unquoted (literal : List Char) : Option (List Char) := do
  let tail ← tailAt literal 1
  headAt tail (width literal - 1 - 1)

/-- The name a local path gives its module. -/
def parseLocalAlias (path : source.Region) : ParseM source (Identifier source.Region) := do
  match source.slice path.toSpan with
  | .error _ => panic
  | .ok literal =>
    let body ← expect (unquoted literal)
    let component := lastComponent body
    let stem := stemOf component
    let start := path.stop - 1 - width component
    let span ← span start (start + width stem)
    if !isIdentifier stem then invalidAt span "local module name requires an explicit `as alias`"
    return ⟨span⟩

def parseModuleMember : ParseM source (ModuleMemberSelector source.Region) := do
  checkCancelled
  let member ← parseIdentifier
  skipLayout
  let localName ← if ← atContextual "as" then do
      let _ ← take
      skipLayout
      parseIdentifier
    else pure member
  return { member, localName, span := ← span member.span.start localName.span.stop }

def parseModuleMembers (from_ : ModuleImportSource source.Region) (opened : source.Region) :
    ParseM source (ModuleImportEntry source.Region) := do
  skipLayout
  let (members, close) ← iterate (fun members => do
    let member ← parseModuleMember
    let members := members ++ [member]
    skipLayout
    if let some close ← takeDelimiter .rightBrace then return .done (members, close)
    let _ ← expectOperator .comma "member selectors require `,`"
    skipLayout
    if let some close ← takeDelimiter .rightBrace then return .done (members, close)
    return .again members) []
  return .members { source := from_, members, span := ← span opened.start close.span.stop }

def projectModules : List String := ["context", "tools", "endpoints", "secrets", "targets"]

/-- `std::name` or `project::name`. -/
def parseQualifiedModule : ParseM source (ModuleImportSource source.Region) := do
  let namespace_ ← parseIdentifier
  if !(spells namespace_.span "std" || spells namespace_.span "project") then
    invalidAt namespace_.span "opaal module imports require a local path, `std::name`, or `project::name`"
  let _ ← expectOperator .colon "qualified module requires `::`"
  let _ ← expectOperator .colon "qualified module requires `::`"
  let module ← parseIdentifier
  let span ← span namespace_.span.start module.span.stop
  if spells namespace_.span "project" then
    if !projectModules.any (spells module.span) then
      invalidAt module.span
        "project module must be `context`, `tools`, `endpoints`, `secrets`, or `targets`"
    return .project module namespace_ span
  else return .standard module namespace_ span

def parseModuleImportSource : ParseM source (ModuleImportSource source.Region) := do
  match ← currentKind with
  | some .singleQuoted =>
    let path ← expect (← take)
    if path.span.len == 2 then invalidAt path.span "module import path cannot be empty"
    return .local_ path.span
  | some .identifier => parseQualifiedModule
  | _ => expected "opaal import requires a local path or qualified standard module" .expression

def parseModuleImportEntry : ParseM source (ModuleImportEntry source.Region) := do
  checkCancelled
  let from_ ← parseModuleImportSource
  skipInline
  if (← takeOperator .colon).isSome then
    let _ ← expectOperator .colon "member selector requires `::`"
    skipInline
    let opened ← expectDelimiter .leftBrace "member selector requires `\x7b`"
    return ← continuedAlways (parseModuleMembers from_ opened.span)
  if ← atContextual "as" then
    let _ ← take
    skipInline
    let alias_ ← parseIdentifier
    return .alias_ { source := from_, alias_ }
  match from_ with
  | .standard module _ _ => return .alias_ { source := from_, alias_ := module }
  | .project module _ _ => return .alias_ { source := from_, alias_ := module }
  | .local_ path => return .alias_ { source := from_, alias_ := ← parseLocalAlias path }

def parseModuleImportGroup (start : source.Region) : ParseM source (Statement source.Region) := do
  skipLayout
  let first ← parseModuleImportEntry
  let (entries, close) ← iterate (fun entries => do
    skipLayout
    if let some close ← takeDelimiter .rightBrace then return .done (entries, close)
    let _ ← expectOperator .comma "import entries require `,`"
    skipLayout
    if let some close ← takeDelimiter .rightBrace then return .done (entries, close)
    let entry ← parseModuleImportEntry
    return .again (entries ++ [entry])) [first]
  return .mk (.moduleImportGroup entries) (← span start.start close.span.stop)

def parseModuleImport : ParseM source (Statement source.Region) := do
  let start ← expect (← take)
  skipInline
  if (← takeDelimiter .leftBrace).isSome then
    return ← continuedAlways (parseModuleImportGroup start.span)
  let entry ← parseModuleImportEntry
  return .mk (entryStatementKind entry) (← span start.span.start (entryEnd entry))

def parseModuleExportSelector : ParseM source (ModuleExportSelector source.Region) := do
  let name ← parseIdentifier
  skipWhile (· == .whitespace)
  match ← takeOperator .star with
  | some star => return .prefix_ name star.span
  | none => return .name name

def parseModuleNameList (emptyMessage : String) :
    ParseM source (List (ModuleExportSelector source.Region) × PlacedToken source) := do
  let _ ← expectDelimiter .leftBrace "module name list requires `\x7b`"
  skipLayout
  if ← atDelimiter (some .rightBrace) then invalidHere emptyMessage
  let names ← separated false true (atDelimiter (some .rightBrace)) parseModuleExportSelector
  let close ← expectDelimiter .rightBrace "module name list is not closed"
  return (names, close)

variable (grammar : Grammar source)

/-! ## Types -/

def constraintOf (span : source.Region) : Option TypeConstraint :=
  if spells span "Equal" then some .equal else if spells span "Ordered" then some .ordered else none

/-- The constraints of a type parameter, and where the last one ends. -/
def parseTypeConstraints (stop : Nat) : ParseM source (List TypeConstraint × Nat) :=
  iterate (fun (constraints, _) => do
    skipInline
    let constraint ← parseIdentifier
    match constraintOf constraint.span with
    | none => invalidAt constraint.span "generic constraints are `Equal` or `Ordered`"
    | some value =>
      if constraints.contains value then
        invalidAt constraint.span "generic constraint cannot be repeated"
      let constraints := constraints ++ [value]
      skipInline
      if (← takeOperator .plus).isNone then return .done (constraints, constraint.span.stop)
      return .again (constraints, constraint.span.stop)) (([] : List TypeConstraint), stop)

def parseTypeParameter : ParseM source (TypeParameter source.Region) := do
  let name ← parseIdentifier
  skipInline
  let mut constraints := []
  let mut stop := name.span.stop
  if (← takeOperator .colon).isSome then
    (constraints, stop) ← parseTypeConstraints stop
  return { name, constraints, span := ← span name.span.start stop }

def parseTypeParameters : ParseM source (List (TypeParameter source.Region)) := do
  skipInline
  if (← takeDelimiter .leftBracket).isNone then return []
  skipLayout
  if ← atDelimiter (some .rightBracket) then invalidHere "generic parameter list cannot be empty"
  let parameters ← separated true false (atDelimiter (some .rightBracket)) parseTypeParameter
  let _ ← expectDelimiter .rightBracket "generic parameter list is not closed"
  return parameters

def parseNominalTypeField : ParseM source (NominalTypeField source.Region) := do
  let name ← parseIdentifier
  skipInline
  let _ ← expectOperator .colon "nominal field requires `:`"
  skipInline
  let valueType ← parseTypeReference grammar
  return { name, valueType, span := ← span name.span.start valueType.span.stop }

def parseNominalType (topLevel : Bool) : ParseM source (Statement source.Region) := do
  if !topLevel then invalidHere "nominal types are allowed only at module top level"
  let start ← expect (← take)
  skipInline
  let name ← parseIdentifier
  let typeParameters ← parseTypeParameters
  skipInline
  let _ ← expectOperator .assign "type declaration requires `=`"
  skipLayout
  let _ ← expectDelimiter .leftBrace "nominal record declaration requires `\x7b`"
  skipLayout
  let fields ← separated true false (atDelimiter (some .rightBrace)) (parseNominalTypeField grammar)
  let close ← expectDelimiter .rightBrace "nominal record declaration is not closed"
  return .mk (.nominalType name typeParameters fields) (← span start.span.start close.span.stop)

def parseVariantPayload : ParseM source (List (TypeReference source.Region)) :=
  separated true false (atDelimiter (some .rightParenthesis)) (parseTypeReference grammar)

def parseVariantDeclaration : ParseM source (VariantDeclaration source.Region) := do
  let name ← parseIdentifier
  skipInline
  let mut payload := []
  let mut stop := name.span.stop
  if (← takeDelimiter .leftParenthesis).isSome then
    skipLayout
    payload ← parseVariantPayload grammar
    let close ← expectDelimiter .rightParenthesis "variant payload is not closed"
    stop := close.span.stop
  return { name, payload, span := ← span name.span.start stop }

def parseVariantType (topLevel : Bool) : ParseM source (Statement source.Region) := do
  if !topLevel then invalidHere "variant types are allowed only at module top level"
  let start ← expect (← take)
  skipInline
  let name ← parseIdentifier
  let typeParameters ← parseTypeParameters
  skipLayout
  let _ ← expectDelimiter .leftBrace "variant declaration requires `\x7b`"
  skipLayout
  let variants ← separated true false (atDelimiter (some .rightBrace)) (parseVariantDeclaration grammar)
  if variants.isEmpty then invalidHere "variant declaration cannot be empty"
  let close ← expectDelimiter .rightBrace "variant declaration is not closed"
  return .mk (.variantType name typeParameters variants) (← span start.span.start close.span.stop)

/-! ## Bindings -/

def parseDeclaration (mutable_ : Bool) : ParseM source (Statement source.Region) := do
  let start ← expect (← take)
  skipInline
  let pattern ← parsePattern grammar
  match pattern.primaryBinding with
  | none => invalidAt pattern.span "declaration pattern must bind a name"
  | some name =>
    skipInline
    let annotatedType ← parseOptionalType grammar .colon skipInline
    skipInline
    let _ ← expectOperator .assign "declaration requires `=`"
    skipLayout
    let value ← parseExpression grammar
    return .mk (.declaration mutable_ pattern name annotatedType value) (← span start.span.start value.span.stop)

/-- The operator an assignment folds into its value. -/
def compoundOperator : TokenKind → Option (Option BinaryOperator)
  | .operator .assign => some none
  | .operator .addAssign => some (some .add)
  | .operator .subtractAssign => some (some .subtract)
  | .operator .multiplyAssign => some (some .multiply)
  | .operator .divideAssign => some (some .divide)
  | .operator .remainderAssign => some (some .remainder)
  | _ => none

def parseAssignment : ParseM source (Statement source.Region) := do
  let target ← parseNameReference
  skipInline
  let token ← expect (← take)
  let operator ← expect (compoundOperator token.kind)
  skipLayout
  let value ← parseExpression grammar
  let value ← match operator with
    | some operator => binary (.mk (.name target) target.span) operator token.span value
    | none => pure value
  return .mk (.assignment target value) (← span target.span.start value.span.stop)

def parseIndexedAssignment : ParseM source (Statement source.Region) := do
  let target ← parseNameReference
  skipInline
  let opened ← expectDelimiter .leftBracket "index requires `[` "
  let (index, close) ← continued do
    skipLayout
    let index ← parseExpression grammar
    skipLayout
    let close ← expectDelimiter .rightBracket "index is not closed"
    return (index, close)
  skipInline
  let operator ← expectOperator .assign "indexed assignment requires `=`"
  skipLayout
  let value ← parseExpression grammar
  let whole ← span target.span.start value.span.stop
  let brackets ← span opened.span.start close.span.stop
  return .mk (.indexedAssignment target index brackets operator.span value) whole

def parseExport (topLevel : Bool) : ParseM source (Statement source.Region) := do
  let start ← expect (← take)
  skipInline
  if ← atDelimiter (some .leftBrace) then
    if !topLevel then invalidHere "module exports are allowed only at module top level"
    let (names, close) ← parseModuleNameList "module export list cannot be empty"
    return .mk (.moduleExport names) (← span start.span.start close.span.stop)
  let name ← parseIdentifier
  skipInline
  let _ ← expectOperator .assign "export requires `=`"
  skipLayout
  let value ← parseExpression grammar
  return .mk (.export_ name value) (← span start.span.start value.span.stop)

def parseUnset : ParseM source (Statement source.Region) := do
  let start ← expect (← take)
  skipInline
  let name ← parseIdentifier
  return .mk (.unset name) (← span start.span.start name.span.stop)

/-! ## Callables -/

def parseBlock : ParseM source (Block source.Region) := do
  let opened ← expectDelimiter .leftBrace "expected a block"
  let statements ← grammar.statementList (some .rightBrace)
  let close ← expectDelimiter .rightBrace "block is not closed"
  return .mk statements (← span opened.span.start close.span.stop)

def parseFunction (documentation : Option (DocumentationBlock source.Region)) :
    ParseM source (Statement source.Region) := do
  let start ← expect (← take)
  skipInline
  let name ← parseIdentifier
  let typeParameters ← parseTypeParameters
  skipInline
  let _ ← expectDelimiter .leftParenthesis "function requires parameters"
  let parameters ← parseParameters grammar .rightParenthesis
  let _ ← expectDelimiter .rightParenthesis "function parameters are not closed"
  skipInline
  let returnType ← parseOptionalType grammar .arrow skipLayout
  skipLayout
  let body ← parseBlock grammar
  return .mk (.function documentation name typeParameters parameters returnType body)
    (← span start.span.start body.span.stop)

def parseEffectArgument : ParseM source (StaticEffectArgument source.Region) := do
  match ← currentKind with
  | some .identifier => return .qualified (← parseQualifiedName)
  | some kind =>
    if startsLiteral kind then return .literal (← parseLiteral grammar)
    else invalidHere "effect arguments must be literals or qualified project identities"
  | none => invalidHere "effect arguments must be literals or qualified project identities"

def parseEffectArguments : ParseM source (List (StaticEffectArgument source.Region)) :=
  separated true false (atDelimiter (some .rightParenthesis)) (parseEffectArgument grammar)

def parseEffectRequest : ParseM source (EffectRequest source.Region) := do
  let family ← parseIdentifier
  let _ ← expectOperator .dot "capability requires `family.operation`"
  let operation ← parseIdentifier
  let capabilitySpan ← span family.span.start operation.span.stop
  skipInline
  let mut arguments := []
  let mut stop := capabilitySpan.stop
  if (← takeDelimiter .leftParenthesis).isSome then
    skipLayout
    arguments ← parseEffectArguments grammar
    let close ← expectDelimiter .rightParenthesis "effect arguments are not closed"
    stop := close.span.stop
    skipInline
  return {
    capability := { family, operation, span := capabilitySpan }
    arguments
    span := ← span family.span.start stop }

def parseEffectBlock : ParseM source (List (EffectRequest source.Region) × source.Region) := do
  let left ← expectDelimiter .leftBrace "effects block requires `\x7b`"
  skipLayout
  let requests ← iterate (fun requests => do
    if ← atDelimiter (some .rightBrace) then return .done requests
    let request ← parseEffectRequest grammar
    let requests := requests ++ [request]
    skipLayout
    if ← atDelimiter (some .rightBrace) then return .done requests
    let _ ← expectOperator .comma "effect requests require `,` instead of `;`"
    skipLayout
    return .again requests) []
  let right ← expectDelimiter .rightBrace "effects block is not closed"
  return (requests, ← span left.span.start right.span.stop)

/-- The block of an action: its effects, then its statements. -/
def parseActionBody (opened : PlacedToken source) :
    ParseM source (List (EffectRequest source.Region) × source.Region × Block source.Region) := do
  skipLayout
  let effectsKeyword ← expectContextualIdentifier "effects" "action requires a first `effects \x7b\x7d` prologue"
  skipLayout
  let (effects, effectsBlockSpan) ← parseEffectBlock grammar
  let effectsSpan ← span effectsKeyword.span.start effectsBlockSpan.stop
  let statements ← grammar.statementList (some .rightBrace)
  let close ← expectDelimiter .rightBrace "action block is not closed"
  let body : Block source.Region := .mk statements (← span opened.span.start close.span.stop)
  return (effects, effectsSpan, body)

def parseAction (topLevel : Bool) (documentation : Option (DocumentationBlock source.Region)) :
    ParseM source (Statement source.Region) := do
  if !topLevel then invalidHere "actions are allowed only at module top level"
  let start ← expect (← take)
  skipInline
  let name ← parseIdentifier
  let typeParameters ← parseTypeParameters
  skipInline
  let _ ← expectDelimiter .leftParenthesis "action requires parameters"
  let parameters ← parseParameters grammar .rightParenthesis
  let _ ← expectDelimiter .rightParenthesis "action parameters are not closed"
  skipInline
  let _ ← expectOperator .arrow "action requires an explicit result type"
  skipLayout
  let returnType ← parseTypeReference grammar
  skipLayout
  let opened ← expectDelimiter .leftBrace
    "action requires `\x7b` before its `effects \x7b\x7d` prologue; move effects inside the action block"
  let (effects, effectsSpan, body) ← parseActionBody grammar opened
  return .mk (.action documentation name typeParameters parameters returnType effects effectsSpan body)
    (← span start.span.start body.span.stop)

def parseTask (topLevel : Bool) (documentation : Option (DocumentationBlock source.Region)) :
    ParseM source (Statement source.Region) := do
  if !topLevel then invalidHere "tasks are allowed only at module top level"
  let start ← expect (← take)
  skipInline
  let name ← parseIdentifier
  skipInline
  let _ ← expectOperator .assign "task requires `=`"
  skipLayout
  let action ← parseQualifiedName
  return .mk (.task documentation name action) (← span start.span.start action.span.stop)

/-! ## Control flow -/

/-- A condition before a block.  Both depths are restored on every way out. -/
def parseControlCondition : ParseM source (ConditionalChain source.Region) := do
  let previous := (← get).blockHeaderDepth
  modify fun parser => { parser with
    controlConditionDepth := parser.controlConditionDepth + 1
    blockHeaderDepth := some parser.continuationDepth }
  let condition ← observed (parseConditionalChain grammar)
  let parser ← get
  if parser.controlConditionDepth = 0 then panic
  set { parser with
    controlConditionDepth := parser.controlConditionDepth - 1
    blockHeaderDepth := previous }
  replay condition

def parseBlockHeaderExpression : ParseM source (Expression source.Region) := do
  let previous := (← get).blockHeaderDepth
  modify fun parser => { parser with blockHeaderDepth := some parser.continuationDepth }
  let expression ← observed (parseExpression grammar)
  modify fun parser => { parser with blockHeaderDepth := previous }
  replay expression

def parseTry : ParseM source (Statement source.Region) := do
  let start ← expect (← take)
  skipInline
  let tryBlock ← parseBlock grammar
  skipInline
  let _ ← expectKeyword .catch_ "try statement requires `catch`"
  skipInline
  let catchBinding ← parseIdentifier
  skipInline
  let catchBlock ← parseBlock grammar
  return .mk (.try_ tryBlock catchBinding catchBlock) (← span start.span.start catchBlock.span.stop)

def parseThrow : ParseM source (Statement source.Region) := do
  let start ← expect (← take)
  skipLayout
  let expression ← parseExpression grammar
  return .mk (.throw expression) (← span start.span.start expression.span.stop)

/-- The branch after `else`, and where it ends. -/
def parseElseBranch : ParseM source (ElseBranch source.Region × Nat) := do
  skipInline
  if ← atKeyword .if_ then
    let (node, span) ← grammar.ifNode
    return (.if_ node span, span.stop)
  else
    let block ← parseBlock grammar
    return (.block block, block.span.stop)

def parseIfNode : ParseM source (IfStatement source.Region × source.Region) := do
  let start ← expect (← take)
  skipInline
  let condition ← parseControlCondition grammar
  skipInline
  let thenBlock ← parseBlock grammar
  let mut elseBranch := none
  let mut stop := thenBlock.span.stop
  skipInline
  if (← takeKeyword .else_).isSome then
    let (branch, branchStop) ← parseElseBranch grammar
    elseBranch := some branch
    stop := branchStop
  return (.mk condition thenBlock elseBranch, ← span start.span.start stop)

def parseWhile : ParseM source (Statement source.Region) := do
  let start ← expect (← take)
  skipInline
  let condition ← parseControlCondition grammar
  skipInline
  let body ← parseBlock grammar
  return .mk (.while_ condition body) (← span start.span.start body.span.stop)

def parseFor : ParseM source (Statement source.Region) := do
  let start ← expect (← take)
  skipInline
  let binding ← parseIdentifier
  skipInline
  let _ ← expectKeyword .in_ "for binding requires `in`"
  skipLayout
  let iterable ← parseBlockHeaderExpression grammar
  skipInline
  let body ← parseBlock grammar
  return .mk (.for_ binding iterable body) (← span start.span.start body.span.stop)

def parseGuard : ParseM source (Option (Expression source.Region)) := do
  if (← takeKeyword .if_).isNone then return none
  skipInline
  return some (← parseExpression grammar)

def parseMatchArm : ParseM source (MatchArm source.Region) := do
  let start ← currentSpan
  let pattern ← parsePattern grammar
  skipInline
  let guard ← parseGuard grammar
  skipInline
  let _ ← expectOperator .matchArrow "match arm requires `=>`"
  skipLayout
  let body ← parseBlock grammar
  return .mk pattern guard body (← span start.start body.span.stop)

/-- The arms of a match up to its closing brace, with recovery at separators. -/
def parseMatchArms : ParseM source (List (MatchArm source.Region)) :=
  iterate (fun arms => do
    if ← atDelimiter (some .rightBrace) then return .done arms
    match ← observed (parseMatchArm grammar) with
    | .error (.invalid diagnostic) =>
      pushDiagnostic diagnostic
      synchronize (some .rightBrace)
      skipSeparators
      return .again arms
    | .error error => throw error
    | .ok arm =>
      let arms := arms ++ [arm]
      skipInline
      if ← atDelimiter (some .rightBrace) then return .done arms
      if !(← atStatementSeparator) then
        reportHere "match arms require a separator"
        synchronize (some .rightBrace)
        skipSeparators
        return .again arms
      skipSeparators
      return .again arms) []

def parseMatch : ParseM source (Statement source.Region) := do
  let start ← expect (← take)
  skipInline
  let value ← parseBlockHeaderExpression grammar
  skipInline
  let _ ← expectDelimiter .leftBrace "match requires an arm block"
  skipSeparators
  let arms ← parseMatchArms grammar
  let close ← expectDelimiter .rightBrace "match block is not closed"
  return .mk (.match_ value arms) (← span start.span.start close.span.stop)

def parseControl (transfer : ControlTransfer source.Region) : ParseM source (Statement source.Region) := do
  let token ← expect (← take)
  return .mk (.control transfer) token.span

def parseReturn : ParseM source (Statement source.Region) := do
  let start ← expect (← take)
  skipInline
  if ← atExpressionEnd then
    return .mk (.control (.return_ none)) (← span start.span.start start.span.stop)
  let value ← parseExpression grammar
  return .mk (.control (.return_ (some value))) (← span start.span.start value.span.stop)

def parseJobStatement : ParseM source (Statement source.Region) := do
  let chain ← parseConditionalChain grammar
  skipInline
  let background ← takeOperator .background
  let stop := background.elim chain.span.stop (·.span.stop)
  return .mk (.job chain (background.map (·.span))) (← span chain.span.start stop)

/-! ## Statements -/

/-- `effects` before a brace, looked for and stepped back from. -/
def atEffectsBlock : ParseM source Bool := do
  if !(← atContextual "effects") then return false
  let position := (← get).position
  advance 1
  skipLayout
  let block ← atDelimiter (some .leftBrace)
  restore position
  return block

def parseStatement (topLevel : Bool) (documentation : Option (DocumentationBlock source.Region)) :
    ParseM source (Statement source.Region) := do
  checkCancelled
  skipInline
  if ← atEffectsBlock then invalidHere "effects block is allowed only as the first action prologue"
  match ← currentKind with
  | some (.keyword .import_) =>
    if topLevel then parseModuleImport else invalidHere "imports are allowed only at module top level"
  | some (.keyword .let_) => parseDeclaration grammar false
  | some (.keyword .mut_) => parseDeclaration grammar true
  | some (.keyword .export_) => parseExport grammar topLevel
  | some (.keyword .unset) => parseUnset
  | some (.keyword .def_) => parseFunction grammar documentation
  | some (.keyword .action) => parseAction grammar topLevel documentation
  | some (.keyword .task) => parseTask topLevel documentation
  | some (.keyword .type) => parseNominalType grammar topLevel
  | some (.keyword .enum) => parseVariantType grammar topLevel
  | some (.keyword .if_) =>
    let (node, span) ← parseIfNode grammar
    return .mk (.if_ node) span
  | some (.keyword .while_) => parseWhile grammar
  | some (.keyword .for_) => parseFor grammar
  | some (.keyword .match_) => parseMatch grammar
  | some (.keyword .try_) => parseTry grammar
  | some (.keyword .throw) => parseThrow grammar
  | some (.keyword .break_) => parseControl .break_
  | some (.keyword .continue_) => parseControl .continue_
  | some (.keyword .return_) => parseReturn grammar
  | some (.keyword .else_) => invalidHere "else requires a preceding if statement"
  | some (.keyword .catch_) => invalidHere "catch requires a preceding try statement"
  | some .identifier =>
    if ← nameIsAssignment then parseAssignment grammar
    else if ← nameIsIndexedAssignment then parseIndexedAssignment grammar
    else parseJobStatement grammar
  | some _ => parseJobStatement grammar
  | none => incompleteHere .expression

def isBackgrounded (statement : Statement source.Region) : Bool :=
  match statement.kind with
  | .job _ (some _) => true
  | _ => false

/-- Past a diagnostic, on to the next statement. -/
def recover (closing : Option Delimiter) : ParseM source (Option (DocumentationBlock source.Region)) := do
  synchronize closing
  skipSeparatorsWithDocumentation

/-- The statements so far and the documentation before the next one. -/
abbrev Listing (source : SourceFile) :=
  List (Statement source.Region) × Option (DocumentationBlock source.Region)

def statementTurn (closing : Option Delimiter) (listing : Listing source) :
    ParseM source (Turn (Listing source) (List (Statement source.Region))) := do
  let (statements, documentation) := listing
  if (← isEnd) || (← atDelimiter closing) then return .done statements
  checkCancelled
  match ← observed (parseStatement grammar closing.isNone documentation) with
  | .error (.invalid diagnostic) =>
    pushDiagnostic diagnostic
    return .again (statements, ← recover closing)
  | .error error => throw error
  | .ok statement =>
    let statements := statements ++ [statement]
    skipInline
    if isBackgrounded statement then return .again (statements, ← skipSeparatorsWithDocumentation)
    if (← atDelimiter closing) || (← isEnd) then return .done statements
    if ← atKind (.operator .background) then
      reportHere "background marker can terminate only a job statement"
      return .again (statements, ← recover closing)
    if !(← atStatementSeparator) then
      reportHere "expected a statement boundary"
      return .again (statements, ← recover closing)
    return .again (statements, ← skipSeparatorsWithDocumentation)

def parseStatementList (closing : Option Delimiter) : ParseM source (List (Statement source.Region)) := do
  checkCancelled
  let documentation ← skipSeparatorsWithDocumentation
  iterate (statementTurn grammar closing) ([], documentation)

/-! ## The knot -/

/-- The grammar with a limit on how deep rules may be entered again. -/
def grammarOf : Nat → Grammar source
  | 0 => {
      expression := throw .exhausted
      unary := throw .exhausted
      conditionalChain := throw .exhausted
      pattern := throw .exhausted
      typeReference := throw .exhausted
      statementList := fun _ => throw .exhausted
      ifNode := throw .exhausted }
  | depth + 1 => {
      expression := parseExpression (grammarOf depth)
      unary := parseUnary (grammarOf depth)
      conditionalChain := parseConditionalChain (grammarOf depth)
      pattern := parsePattern (grammarOf depth)
      typeReference := parseTypeReference (grammarOf depth)
      statementList := parseStatementList (grammarOf depth)
      ifNode := parseIfNode (grammarOf depth) }

/-- One linear census of the brackets, shared by the lookahead of index targets
and generic calls. -/
def censusBrackets : List (PlacedToken source) → Nat → List Nat → ParseM source Unit
  | [], _, _ => return ()
  | token :: more, position, brackets => do
    checkCancelled
    match token.kind with
    | .delimiter .leftBracket => censusBrackets more (position + 1) (position :: brackets)
    | .delimiter .rightBracket =>
      match brackets with
      | [] => censusBrackets more (position + 1) []
      | opened :: outer =>
        let parser ← get
        if parser.bracketEnds.length ≤ opened then panic
        set { parser with bracketEnds := parser.bracketEnds.set opened position }
        censusBrackets more (position + 1) outer
    | _ => censusBrackets more (position + 1) brackets

def parseScript : ParseM source (Script source.Region) := do
  checkCancelled
  let tokens := (← read).tokens
  censusBrackets tokens 0 []
  let statements ← parseStatementList (grammarOf (tokens.length + 1)) none
  skipSeparators
  if !(← isEnd) then reportHere "unexpected syntax after statement"
  let parser ← get
  if !parser.diagnostics.isEmpty then throw (.invalidMany parser.diagnostics)
  return { statements, span := ← span 0 source.len }

end Parser

/-! ## Entry points -/

/-- The result of parsing one source file. -/
inductive ParseOutcome (source : SourceFile) where
  | complete (script : Script source.Region)
  | incomplete (input : IncompleteInput source.Region)
  | invalid (diagnostics : List (Diagnostic source.Region))

/-- A parse of the source, or its cancellation; `none` where the source panics. -/
inductive ControlledParseOutcome (source : SourceFile) where
  | parsed (outcome : ParseOutcome source)
  | cancelled

/-- `parse_tokens`, with the spans of the interpolations it met. -/
def parseTokens (source : SourceFile) (tokens : List Token) (isCancelled : Nat → Bool) :
    Option (ControlledParseOutcome source × List source.Region) :=
  match tokens.mapM (Token.placed source) with
  | .error _ => none
  | .ok tokens =>
    match classifyOpaalTokens tokens with
    | .error _ => none
    | .ok (.incomplete input) => some (.parsed (.incomplete input), [])
    | .ok (.invalid diagnostic) => some (.parsed (.invalid [diagnostic]), [])
    | .ok .complete =>
      let input : ParserInput source := { tokens, isCancelled }
      match Parser.parseScript input (Parser.new input) with
      | .ok script parser => some (.parsed (.complete script), parser.interpolationSpans)
      | .error (.incomplete incomplete) parser => some (.parsed (.incomplete incomplete), parser.interpolationSpans)
      | .error (.invalid diagnostic) parser => some (.parsed (.invalid [diagnostic]), parser.interpolationSpans)
      | .error (.invalidMany diagnostics) parser =>
        some (.parsed (.invalid diagnostics), parser.interpolationSpans)
      | .error .cancelled parser => some (.cancelled, parser.interpolationSpans)
      | .error .panicked _ | .error .exhausted _ => none

/-- Parses one OPAAL source file through the shared lexer and structural
classifier.  `none` is a panic of the source; the predicate never cancels. -/
def parseOpaal (source : SourceFile) : Option (ParseOutcome source) := do
  let tokens ← lexOpaal source
  match ← parseTokens source tokens (fun _ => false) with
  | (.parsed outcome, _) => return outcome
  | (.cancelled, _) => none

end Opaal.Syntax
