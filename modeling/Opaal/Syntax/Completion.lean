import Opaal.Syntax.LexerLossless

/-!
# Completion targets

`completion.rs`: the word around a cursor, what it is completed as, and the range that a
candidate replaces.  Only tokens are looked at, so incomplete sources have targets too.
Where a slice or an index of the source would panic there is no result.
-/

namespace Opaal.Syntax

open Opaal.Text

/-- Source spelling retained while inserting one path candidate. -/
inductive PathCompletionStyle where
  | bare | singleQuoted | doubleQuoted | doubleQuotedFragment
deriving DecidableEq

/-- The syntax-owned role of one completion replacement. -/
inductive CompletionContext where
  | command (forcedExternal : Bool)
  | expression
  | name
  | flag (command : List Char)
  | path (style : PathCompletionStyle) (globPattern interpolated : Bool)
  | none_
deriving DecidableEq

/-- One checked token and cursor target independent of candidate sources. -/
structure CompletionTarget where
  context : CompletionContext
  start : Nat
  stop : Nat
  prefix_ : List Char
deriving DecidableEq

structure ActiveWord where
  start : Nat
  stop : Nat
  text : List Char
  style : PathCompletionStyle
  interpolated : Bool

/-! ## Token kinds -/

def isWordComponent : TokenKind → Bool
  | .identifier | .keyword _ | .number _ | .wordText | .bareEscape | .singleQuoted | .doubleQuoteStart | .doubleText
  | .doubleEscape | .escapedBrace | .doubleQuoteEnd => true
  | .operator spelled =>
    match spelled with
    | .assign | .addAssign | .subtractAssign | .multiplyAssign | .divideAssign | .remainderAssign | .equal | .notEqual
    | .plus | .minus | .star | .slash | .percent | .bang | .range | .rangeInclusive | .arrow | .matchArrow | .dot | .comma
    | .colon => true
    | _ => false
  | _ => false

def isCommandBoundary : TokenKind → Bool
  | .newline | .interpolationStart => true
  | .operator spelled =>
    match spelled with
    | .semicolon | .pipe | .pipeBoth | .and | .or | .background => true
    | _ => false
  | .delimiter side => side == .leftBrace || side == .rightBrace
  | _ => false

def isFileRedirect (kind : TokenKind) : Bool :=
  kind == .operator .less || kind == .operator .greater || kind == .operator .append

def isAssignment : TokenKind → Bool
  | .operator spelled =>
    match spelled with
    | .assign | .addAssign | .subtractAssign | .multiplyAssign | .divideAssign | .remainderAssign => true
    | _ => false
  | _ => false

/-- Tokens that are skipped between others. -/
def isTrivia : TokenKind → Bool
  | .whitespace | .comment | .documentationComment | .lineContinuation => true
  | _ => false

/-- Import lists separate members by commas. -/
def isComponent (importGroup : Bool) (kind : TokenKind) : Bool :=
  isWordComponent kind && !(importGroup && kind == .operator .comma)

/-! ## Decoding -/

def stripFirst (c : Char) : List Char → Option (List Char)
  | [] => none
  | first :: rest => if first = c then some rest else none

def stripLast (c : Char) (text : List Char) : Option (List Char) :=
  if text.getLast? = some c then some text.dropLast else none

def decodeBare : List Char → Option (List Char)
  | [] => some []
  | ['\\'] => none
  | '\\' :: escaped :: rest => (decodeBare rest).map (escaped :: ·)
  | c :: rest => (decodeBare rest).map (c :: ·)

/-- A hexadecimal number of at most 32 bits; a plus sign may come first. -/
def parseHexadecimal (text : List Char) : Option Nat :=
  let digits := (stripFirst '+' text).getD text
  if digits ≠ [] ∧ (digits.all fun c => c.isDigit || ('a' ≤ c && c ≤ 'f') || ('A' ≤ c && c ≤ 'F')) ∧ fromHexadecimal digits < 2 ^ 32 then
    some (fromHexadecimal digits)
  else none

def scalar (code : Nat) : Option Char := if code.isValidChar then some (Char.ofNat code) else none

/-- The digits up to a closing brace, and what comes after it. -/
def bracedDigits : List Char → Option (List Char × List Char)
  | [] => none
  | '}' :: rest => some ([], rest)
  | c :: rest => (bracedDigits rest).map fun (digits, rest) => (c :: digits, rest)

/-- Escapes of double-quoted text, at most as many as there are characters. -/
def decodeEscapes : Nat → List Char → Option (List Char)
  | _, [] => some []
  | 0, _ => none
  | remaining + 1, '\\' :: escaped =>
    match escaped with
    | '\\' :: rest => (decodeEscapes remaining rest).map ('\\' :: ·)
    | '"' :: rest => (decodeEscapes remaining rest).map ('"' :: ·)
    | 'n' :: rest => (decodeEscapes remaining rest).map ('\n' :: ·)
    | 'r' :: rest => (decodeEscapes remaining rest).map ('\r' :: ·)
    | 't' :: rest => (decodeEscapes remaining rest).map ('\t' :: ·)
    | 'u' :: '{' :: rest => do
      let (digits, rest) ← bracedDigits rest
      let character ← (← parseHexadecimal digits) |> scalar
      (decodeEscapes remaining rest).map (character :: ·)
    | _ => none
  | remaining + 1, c :: rest => (decodeEscapes remaining rest).map (c :: ·)

def decodeDouble (raw : List Char) (closed : Bool) : Option (List Char) :=
  let content := (stripFirst '"' raw).getD raw
  let content := if closed then (stripLast '"' content).getD content else content
  decodeEscapes content.length content

def decodePathPrefix (raw : List Char) (style : PathCompletionStyle) (closedDouble : Bool) : Option (List Char) :=
  match style with
  | .bare => decodeBare raw
  | .singleQuoted =>
    let opened := (stripFirst '\'' raw).getD raw
    some ((stripLast '\'' opened).getD opened)
  | .doubleQuoted | .doubleQuotedFragment => decodeDouble raw closedDouble

/-! ## The word around the cursor -/

section Word

variable (tokens : List Token)

/-- Whether the tokens at an index and after it touch. -/
def touches (index : Nat) : Bool :=
  match tokens[index]?, tokens[index + 1]? with
  | some left, some right => left.span.stop == right.span.start
  | _, _ => false

def componentAt (importGroup : Bool) (index : Nat) : Bool := tokens[index]?.any (isComponent importGroup ·.kind)

def firstComponent (importGroup : Bool) : Nat → Nat
  | 0 => 0
  | first + 1 =>
    if touches tokens first && componentAt tokens importGroup first then firstComponent importGroup first else first + 1

/-- At most so many components more. -/
def lastComponent (importGroup : Bool) : Nat → Nat → Nat
  | 0, last => last
  | remaining + 1, last =>
    if touches tokens last && componentAt tokens importGroup (last + 1) then lastComponent importGroup remaining (last + 1)
    else last

def isQuotedPart : TokenKind → Bool
  | .doubleQuoteStart | .doubleText | .doubleEscape | .doubleQuoteEnd => true
  | _ => false

def wordStyle (first last : Nat) : PathCompletionStyle :=
  if tokens[first]?.any (·.kind == .singleQuoted) then .singleQuoted
  else if ((tokens.drop first).take (last + 1 - first)).any (isQuotedPart ·.kind) then .doubleQuoted
  else .bare

/-- The word that the token at an index belongs to. -/
def wordAt (source : List Char) (cursor : Nat) (importGroup : Bool) (index : Nat) : Option (Option ActiveWord) := do
  let first := firstComponent tokens importGroup index
  let last := lastComponent tokens importGroup tokens.length index
  let firstToken ← tokens[first]?
  let lastToken ← tokens[last]?
  let interpolated := first > 0 && (tokens[first - 1]?.any fun before =>
    before.span.stop = firstToken.span.start && before.kind = .delimiter .rightBrace)
  let style := wordStyle tokens first last
  let raw ← sliceAt source firstToken.span.start cursor
  let closedDouble := lastToken.kind = .doubleQuoteEnd && lastToken.span.stop ≤ cursor
  let style := if interpolated && style = .doubleQuoted && raw.head? ≠ some '"' then .doubleQuotedFragment else style
  return (decodePathPrefix raw style closedDouble).map fun text =>
    ⟨firstToken.span.start, lastToken.span.stop, text, style, interpolated⟩

def activeWordAt (source : List Char) (cursor : Nat) (importGroup : Bool) : Option (Option ActiveWord) :=
  match tokens.findIdx? fun token =>
    token.span.start ≤ cursor && cursor ≤ token.span.stop && isComponent importGroup token.kind with
  | some index => wordAt tokens source cursor importGroup index
  | none =>
    if tokens.any fun token =>
        token.span.start < cursor && cursor < token.span.stop && !(token.kind = .whitespace || token.kind = .newline) then
      some none
    else some (some ⟨cursor, cursor, [], .bare, false⟩)

end Word

/-! ## Contexts -/

def significantBefore (tokens : List Token) (offset : Nat) : List Token :=
  tokens.filter fun token => token.span.stop ≤ offset && !isTrivia token.kind

/-- What comes after the last boundary between commands. -/
def currentStage (tokens : List Token) : List Token :=
  (tokens.reverse.takeWhile fun token => !isCommandBoundary token.kind).reverse

/-- The end of the word that tokens begin with, as far as it goes from an end on. -/
def wordEnd : Nat → List Token → Nat
  | stop, [] => stop
  | stop, token :: tokens =>
    if token.span.start ≠ stop || !isWordComponent token.kind then stop else wordEnd token.span.stop tokens

def firstWordEnd : List Token → Option Nat
  | [] => none
  | first :: tokens => if isWordComponent first.kind then some (wordEnd first.span.stop tokens) else none

def containsGlobSyntax (text : List Char) : Bool := text.any fun c => c = '*' || c = '?' || c = '['

def isPathSpelling (active : ActiveWord) : Bool :=
  active.style ≠ .bare || active.text.contains '/' || active.text.head? = some '.' || active.text.head? = some '~' ||
    containsGlobSyntax active.text

/-- The token before the last opening parenthesis names `glob`. -/
def isGlobArgument (source : List Char) (tokens : List Token) (offset : Nat) : Bool :=
  let prior := tokens.filter fun token =>
    token.span.stop ≤ offset && !(token.kind = .whitespace || token.kind = .lineContinuation)
  match (prior.reverse.dropWhile fun token => token.kind ≠ .delimiter .leftParenthesis) with
  | _ :: callee :: _ => callee.kind = .identifier && sliceAt source callee.span.start callee.span.stop = some "glob".toList
  | _ => false

def pathContext (source : List Char) (tokens : List Token) (active : ActiveWord) : CompletionContext :=
  .path active.style (isGlobArgument source tokens active.start) active.interpolated

def headContext (source : List Char) (tokens : List Token) (active : ActiveWord) (forcedExternal : Bool) : CompletionContext :=
  if isPathSpelling active then pathContext source tokens active else .command forcedExternal

def classifyContext (source : List Char) (tokens stage : List Token) (active : ActiveWord) : Option CompletionContext :=
  if stage.getLast?.any (isFileRedirect ·.kind) then some (pathContext source tokens active)
  else
    let forcedExternal := stage.head?.any fun token => token.kind = .operator .caret && token.span.stop = active.start
    let headTokens := if forcedExternal then stage.drop 1 else stage
    match firstWordEnd headTokens with
    | none => some (headContext source tokens active forcedExternal)
    | some headEnd =>
      if active.start < headEnd then some (headContext source tokens active forcedExternal)
      else do
        let first ← headTokens.head?
        let command ← sliceAt source first.span.start headEnd
        if active.text.head? = some '-' then return .flag command
        else if isGlobArgument source tokens active.start || isPathSpelling active then return pathContext source tokens active
        else return .none_

/-- Whether the last import before the cursor has an open list of members. -/
def inImportGroup (before : List Token) : Bool :=
  match before.reverse.findIdx? fun token => token.kind = .keyword .import_ with
  | none => false
  | some back =>
    let afterImport := (before.drop (before.length - back)).filter fun token => !isTrivia token.kind
    match afterImport with
    | [] => false
    | next :: rest => next.kind = .delimiter .leftBrace && !rest.any fun token => token.kind = .delimiter .rightBrace

def targetContext (source : List Char) (tokens : List Token) (importGroup : Bool) (active : ActiveWord) : Option CompletionContext :=
  let prior := significantBefore tokens active.start
  if importGroup && isPathSpelling active then some (pathContext source tokens active)
  else if prior.getLast?.any fun token => token.kind = .interpolationStart || token.kind = .delimiter .leftBrace then some .name
  else if (prior.getLast?.any (isAssignment ·.kind)) ||
      tokens.any fun token => token.span.start = active.stop && token.kind = .delimiter .leftParenthesis then
    some .expression
  else classifyContext source tokens (currentStage prior) active

/-- The target at a cursor: the outer result is missing where the code panics, the inner one
where it has no target. -/
def completionTarget (source : List Char) (cursor : Nat) : Option (Option CompletionTarget) :=
  if IsBoundary source cursor then do
    let tokens ← lexOpaal ⟨0, source⟩
    let importGroup := inImportGroup (tokens.takeWhile fun token => token.span.start < cursor)
    match ← activeWordAt tokens source cursor importGroup with
    | none => return none
    | some active =>
      let context ← targetContext source tokens importGroup active
      return some ⟨context, active.start, active.stop, active.text⟩
  else some none

end Opaal.Syntax
