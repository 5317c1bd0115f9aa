import Opaal.Syntax.Source

/-!
# Tokens

The token alphabet of `lexer.rs`.
-/

namespace Opaal.Syntax

/-- A reserved source word; a trailing underscore keeps the words Lean reserves too. -/
inductive Keyword where
  | action | break_ | catch_ | continue_ | def_ | else_ | enum | export_ | false_ | for_ | if_
  | import_ | in_ | let_ | match_ | mut_ | null | return_ | task | throw | true_ | try_ | type
  | unset | while_
  deriving DecidableEq, Repr

/-- The lexical shape of a numeric literal. -/
inductive NumberKind where
  | integer | float
  deriving DecidableEq, Repr

/-- A source operator or punctuation token. -/
inductive Operator where
  | semicolon | pipe | pipeBoth | background | and | or | append | duplicate | assign | addAssign
  | subtractAssign | multiplyAssign | divideAssign | remainderAssign | equal | notEqual | less | lessEqual
  | greater | greaterEqual | plus | minus | star | slash | percent | bang | range | rangeInclusive | spread
  | arrow | matchArrow | dot | comma | colon | caret
  deriving DecidableEq, Repr

/-- A paired structural delimiter. -/
inductive Delimiter where
  | leftParenthesis | rightParenthesis | leftBrace | rightBrace | leftBracket | rightBracket
  deriving DecidableEq, Repr

/-- A locally recognizable source error retained in the lossless token stream. -/
inductive InvalidTokenKind where
  | nul | loneCarriageReturn | unknownDoubleEscape | emptyUnicodeEscape | unicodeSurrogate
  | unicodeOutOfRange | malformedUnicodeEscape | dollarSyntax | unmatchedInterpolationBrace
  deriving DecidableEq, Repr

/-- The lexical role of an exact source range. -/
inductive TokenKind where
  | whitespace | newline | lineContinuation | comment | documentationComment | identifier
  | keyword (word : Keyword)
  | number (shape : NumberKind)
  | wordText | bareEscape | singleQuoted | doubleQuoteStart | doubleText | doubleEscape | escapedBrace
  | doubleQuoteEnd | interpolationStart
  | operator (spelled : Operator)
  | delimiter (side : Delimiter)
  | invalid (reason : InvalidTokenKind)
  deriving DecidableEq, Repr

/-- One nonempty token referring to its exact bytes in a source file. -/
structure Token where
  kind : TokenKind
  span : Span
  deriving DecidableEq, Repr

def Token.text (token : Token) (source : SourceFile) : Except SpanError (List Char) := source.slice token.span

def Token.isAdjacentTo (token next : Token) : Bool :=
  token.span.sourceId == next.span.sourceId && token.span.stop == next.span.start

end Opaal.Syntax
