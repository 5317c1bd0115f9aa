import Opaal.Syntax.Parser.Statements

/-!
# The parser with an eye on two of its rules

Skipping and recovery stop where the predicate cancels, and two rules of the
source do not reckon with that.  An assignment panics when skipping stopped before
the operator that was seen ahead; the arms of a match are started over without
end when an arm was refused, recovery stopped, and nothing was taken.

The rules below are the parser's own but for a flag: watched, they stumble in
these two places instead.  Unwatched, they are the rules of the source.
-/

namespace Opaal.Syntax.Parser

open Opaal.Machine

variable {source : SourceFile} {α β : Type}

/-- The error of a rule that stumbles: a script never ends with an empty list of
diagnostics otherwise. -/
def stumble : ParseM source α := throw (.invalidMany [])

/-- The operator of an assignment, taken. -/
def assignmentOperator (watched : Bool) (token : PlacedToken source) : ParseM source (Option BinaryOperator) :=
  match compoundOperator token.kind with
  | some operator => return operator
  | none => if watched then stumble else panic

/-- A pass of a loop; watched, it stumbles when it goes on and took nothing. -/
def heeded (watched : Bool) (turn : ParseM source (Turn α β)) : ParseM source (Turn α β) :=
  if watched then do
    let start := (← get).position
    match ← turn with
    | .again next =>
      if (← get).position = start then stumble
      return .again next
    | .done result => return .done result
  else turn

section Rules

variable (watched : Bool) (grammar : Grammar source)

def parseAssignmentIn : ParseM source (Statement source.Region) := do
  let target ← parseNameReference
  skipInline
  let token ← expect (← take)
  let operator ← assignmentOperator watched token
  skipLayout
  let value ← parseExpression grammar
  let value ← match operator with
    | some operator => binary (.mk (.name target) target.span) operator token.span value
    | none => pure value
  return .mk (.assignment target value) (← span target.span.start value.span.stop)

/-- What is skipped where an arm is refused. -/
def skipRefusedArm (arms : List (MatchArm source.Region)) (diagnostic : Diagnostic source.Region) :
    ParseM source (Turn (List (MatchArm source.Region)) (List (MatchArm source.Region))) := do
  pushDiagnostic diagnostic
  synchronize (some .rightBrace)
  skipSeparators
  return .again arms

/-- What stands behind an arm. -/
def closeArm (arms : List (MatchArm source.Region)) :
    ParseM source (Turn (List (MatchArm source.Region)) (List (MatchArm source.Region))) := do
  skipInline
  if ← atDelimiter (some .rightBrace) then return .done arms
  if !(← atStatementSeparator) then
    reportHere "match arms require a separator"
    synchronize (some .rightBrace)
    skipSeparators
    return .again arms
  skipSeparators
  return .again arms

def matchArmTurn (arms : List (MatchArm source.Region)) :
    ParseM source (Turn (List (MatchArm source.Region)) (List (MatchArm source.Region))) := do
  if ← atDelimiter (some .rightBrace) then return .done arms
  match ← observed (parseMatchArm grammar) with
  | .error (.invalid diagnostic) => skipRefusedArm arms diagnostic
  | .error error => throw error
  | .ok arm => closeArm (arms ++ [arm])

def parseMatchArmsIn : ParseM source (List (MatchArm source.Region)) :=
  iterate (fun arms => heeded watched (matchArmTurn grammar arms)) []

def parseMatchIn : ParseM source (Statement source.Region) := do
  let start ← expect (← take)
  skipInline
  let value ← parseBlockHeaderExpression grammar
  skipInline
  let _ ← expectDelimiter .leftBrace "match requires an arm block"
  skipSeparators
  let arms ← parseMatchArmsIn watched grammar
  let close ← expectDelimiter .rightBrace "match block is not closed"
  return .mk (.match_ value arms) (← span start.span.start close.span.stop)

def parseStatementIn (topLevel : Bool) (documentation : Option (DocumentationBlock source.Region)) :
    ParseM source (Statement source.Region) := do
  checkCancelled
  skipInline
  if ← atEffectsBlock then invalidHere "effects block is allowed only as the first action prologue"
  match ← currentKind with
  | some (.keyword .import_) =>
    if topLevel then parseModuleImport else invalidHere "imports are allowed only at module top level"
  | some (.keyword .let_) => parseDeclaration grammar false
  | some (.keyword .mut_) => parseDeclaration grammar true
  | some (.keyword .export_) => parseExport grammar topLevel
  | some (.keyword .unset) => parseUnset
  | some (.keyword .def_) => parseFunction grammar documentation
  | some (.keyword .action) => parseAction grammar topLevel documentation
  | some (.keyword .task) => parseTask topLevel documentation
  | some (.keyword .type) => parseNominalType grammar topLevel
  | some (.keyword .enum) => parseVariantType grammar topLevel
  | some (.keyword .if_) =>
    let (node, span) ← parseIfNode grammar
    return .mk (.if_ node) span
  | some (.keyword .while_) => parseWhile grammar
  | some (.keyword .for_) => parseFor grammar
  | some (.keyword .match_) => parseMatchIn watched grammar
  | some (.keyword .try_) => parseTry grammar
  | some (.keyword .throw) => parseThrow grammar
  | some (.keyword .break_) => parseControl .break_
  | some (.keyword .continue_) => parseControl .continue_
  | some (.keyword .return_) => parseReturn grammar
  | some (.keyword .else_) => invalidHere "else requires a preceding if statement"
  | some (.keyword .catch_) => invalidHere "catch requires a preceding try statement"
  | some .identifier =>
    if ← nameIsAssignment then parseAssignmentIn watched grammar
    else if ← nameIsIndexedAssignment then parseIndexedAssignment grammar
    else parseJobStatement grammar
  | some _ => parseJobStatement grammar
  | none => incompleteHere .expression

def statementTurnIn (closing : Option Delimiter) (listing : Listing source) :
    ParseM source (Turn (Listing source) (List (Statement source.Region))) := do
  let (statements, documentation) := listing
  if (← isEnd) || (← atDelimiter closing) then return .done statements
  checkCancelled
  match ← observed (parseStatementIn watched grammar closing.isNone documentation) with
  | .error (.invalid diagnostic) =>
    pushDiagnostic diagnostic
    return .again (statements, ← recover closing)
  | .error error => throw error
  | .ok statement =>
    let statements := statements ++ [statement]
    skipInline
    if isBackgrounded statement then return .again (statements, ← skipSeparatorsWithDocumentation)
    if (← atDelimiter closing) || (← isEnd) then return .done statements
    if ← atKind (.operator .background) then
      reportHere "background marker can terminate only a job statement"
      return .again (statements, ← recover closing)
    if !(← atStatementSeparator) then
      reportHere "expected a statement boundary"
      return .again (statements, ← recover closing)
    return .again (statements, ← skipSeparatorsWithDocumentation)

def parseStatementListIn (closing : Option Delimiter) : ParseM source (List (Statement source.Region)) := do
  checkCancelled
  let documentation ← skipSeparatorsWithDocumentation
  iterate (statementTurnIn watched grammar closing) ([], documentation)

end Rules

/-- The grammar over the rules above. -/
def grammarIn (watched : Bool) : Nat → Grammar source
  | 0 => grammarOf 0
  | depth + 1 => {
      expression := parseExpression (grammarIn watched depth)
      unary := parseUnary (grammarIn watched depth)
      conditionalChain := parseConditionalChain (grammarIn watched depth)
      pattern := parsePattern (grammarIn watched depth)
      typeReference := parseTypeReference (grammarIn watched depth)
      statementList := parseStatementListIn watched (grammarIn watched depth)
      ifNode := parseIfNode (grammarIn watched depth) }

def parseScriptIn (watched : Bool) : ParseM source (Script source.Region) := do
  checkCancelled
  let tokens := (← read).tokens
  censusBrackets tokens 0 []
  let statements ← parseStatementListIn watched (grammarIn watched (tokens.length + 1)) none
  skipSeparators
  if !(← isEnd) then reportHere "unexpected syntax after statement"
  let parser ← get
  if !parser.diagnostics.isEmpty then throw (.invalidMany parser.diagnostics)
  return { statements, span := ← span 0 source.len }

/-! ## Unwatched -/

section Unwatched

variable (grammar : Grammar source)

theorem parseAssignmentIn_false : parseAssignmentIn false grammar = parseAssignment grammar := by
  have operators : (assignmentOperator false : PlacedToken source → _) = fun token => expect (compoundOperator token.kind) := by
    funext token
    unfold assignmentOperator
    cases compoundOperator token.kind <;> rfl
  unfold parseAssignmentIn parseAssignment
  rewrite [operators]
  rfl

theorem parseMatchIn_false : parseMatchIn false grammar = parseMatch grammar := rfl

theorem parseStatementIn_false (topLevel : Bool) (documentation : Option (DocumentationBlock source.Region)) :
    parseStatementIn false grammar topLevel documentation = parseStatement grammar topLevel documentation := by
  unfold parseStatementIn parseStatement
  rewrite [parseAssignmentIn_false, parseMatchIn_false]
  rfl

theorem statementTurnIn_false (closing : Option Delimiter) (listing : Listing source) :
    statementTurnIn false grammar closing listing = statementTurn grammar closing listing := by
  unfold statementTurnIn statementTurn
  dsimp only
  rewrite [parseStatementIn_false]
  rfl

theorem parseStatementListIn_false (closing : Option Delimiter) :
    parseStatementListIn false grammar closing = parseStatementList grammar closing := by
  have turns : statementTurnIn false grammar closing = statementTurn grammar closing := by
    funext listing
    exact statementTurnIn_false grammar closing listing
  unfold parseStatementListIn parseStatementList
  rw [turns]

theorem grammarIn_false (depth : Nat) : (grammarIn false depth : Grammar source) = grammarOf depth := by
  induction depth with
  | zero => rfl
  | succ depth ih =>
    have lists : parseStatementListIn false (grammarOf depth : Grammar source) =
        parseStatementList (grammarOf depth) := by
      funext closing
      exact parseStatementListIn_false _ closing
    rw [grammarIn, grammarOf, ih, lists]

theorem parseScriptIn_false : (parseScriptIn false : ParseM source (Script source.Region)) = parseScript := by
  unfold parseScriptIn parseScript
  simp [grammarIn_false, parseStatementListIn_false]

end Unwatched

end Opaal.Syntax.Parser
