import Opaal.Syntax.Ast

/-!
# Reads of callables

The names that a body reads, as callees or as values, in the order of the source.  The
collector passes over patterns, whose literals may interpolate calls; `throughPatterns`
tells whether they are gone through as well.
-/

namespace Opaal.Runtime

open Opaal.Syntax

structure CallableRead (σ : Type) where
  span : σ
  isCallee : Bool

variable {σ : Type}

/-- Whether a callee is a name, which is read by its span. -/
def isNamed : Expression σ → Bool
  | .mk (.name _) _ => true
  | .mk (.qualified _) _ => true
  | _ => false

section Reads

variable (throughPatterns : Bool)

mutual

def literalReads : Literal σ → List (CallableRead σ)
  | .mk (.doubleQuoted parts) _ => wordPartReads parts
  | .mk _ _ => []

def wordPartReads : List (WordPart σ) → List (CallableRead σ)
  | [] => []
  | part :: parts => partReads part ++ wordPartReads parts

def partReads : WordPart σ → List (CallableRead σ)
  | .mk (.doubleQuoted parts) _ => wordPartReads parts
  | .mk (.interpolation expression) _ => expressionReads expression
  | .mk _ _ => []

def wordReads : Word σ → List (CallableRead σ)
  | .mk parts _ => wordPartReads parts

def patternReads : Pattern σ → List (CallableRead σ)
  | .literal literal => if throughPatterns then literalReads literal else []
  | .list elements _ _ => patternsReads elements
  | .nominalRecord _ fields _ => patternFieldReads fields
  | .variant _ payload _ => patternsReads payload
  | _ => []

def patternsReads : List (Pattern σ) → List (CallableRead σ)
  | [] => []
  | pattern :: patterns => patternReads pattern ++ patternsReads patterns

def patternFieldReads : List (PatternField σ) → List (CallableRead σ)
  | [] => []
  | .mk _ pattern _ :: fields => patternReads pattern ++ patternFieldReads fields

def parameterReads : List (Parameter σ) → List (CallableRead σ)
  | [] => []
  | .mk pattern _ _ _ :: parameters => patternReads pattern ++ parameterReads parameters

def closureReads : Closure σ → List (CallableRead σ)
  | .mk parameters _ body _ => parameterReads parameters ++ chainReads body

def listItemReads : List (ListItem σ) → List (CallableRead σ)
  | [] => []
  | .element expression :: items => expressionReads expression ++ listItemReads items
  | .spread _ operand :: items => expressionReads operand ++ listItemReads items

def recordEntryReads : List (RecordEntry σ) → List (CallableRead σ)
  | [] => []
  | .mk (.doubleQuoted part) value _ :: entries => partReads part ++ expressionReads value ++ recordEntryReads entries
  | .mk _ value _ :: entries => expressionReads value ++ recordEntryReads entries

def nominalFieldReads : List (NominalRecordFieldExpression σ) → List (CallableRead σ)
  | [] => []
  | .mk _ value _ :: fields => expressionReads value ++ nominalFieldReads fields

def expressionReads : Expression σ → List (CallableRead σ)
  | .mk (.literal literal) _ => literalReads literal
  | .mk (.name _) span => [⟨span, false⟩]
  | .mk (.qualified _) span => [⟨span, false⟩]
  | .mk (.list items) _ => listItemReads items
  | .mk (.record entries) _ => recordEntryReads entries
  | .mk (.nominalRecord _ fields) _ => nominalFieldReads fields
  | .mk (.closure closure) _ => closureReads closure
  | .mk (.groupedJob chain) _ => chainReads chain
  | .mk (.call callee _ arguments) _ =>
    (if isNamed callee then [⟨callee.span, true⟩] else expressionReads callee) ++ expressionsReads arguments
  | .mk (.index target index) _ => expressionReads target ++ expressionReads index
  | .mk (.member target _) _ => expressionReads target
  | .mk (.unary _ operand) _ => expressionReads operand
  | .mk (.binary left _ right) _ => expressionReads left ++ expressionReads right

def expressionsReads : List (Expression σ) → List (CallableRead σ)
  | [] => []
  | expression :: expressions => expressionReads expression ++ expressionsReads expressions

def chainReads : ConditionalChain σ → List (CallableRead σ)
  | .mk orTerms _ _ => andChainReads orTerms

def andChainReads : List (AndChain σ) → List (CallableRead σ)
  | [] => []
  | .mk andTerms _ _ :: chains => pipelineReads andTerms ++ andChainReads chains

def pipelineReads : List (Pipeline σ) → List (CallableRead σ)
  | [] => []
  | .mk stages _ _ :: pipelines => stageReads stages ++ pipelineReads pipelines

def stageReads : List (Stage σ) → List (CallableRead σ)
  | [] => []
  | .mk (.expression expression) _ :: stages => expressionReads expression ++ stageReads stages
  | .mk (.command (.mk _ word _) items) _ :: stages => wordReads word ++ itemReads items ++ stageReads stages

def itemReads : List (CommandItem σ) → List (CallableRead σ)
  | [] => []
  | .mk (.word word) _ :: items => wordReads word ++ itemReads items
  | .mk (.closure closure) _ :: items => closureReads closure ++ itemReads items
  | .mk (.redirection (.input _ _ target) _) _ :: items => wordReads target ++ itemReads items
  | .mk (.redirection (.file _ _ _ target) _) _ :: items => wordReads target ++ itemReads items
  | .mk (.redirection _ _) _ :: items => itemReads items
  | .mk (.spread expression) _ :: items => expressionReads expression ++ itemReads items

end

mutual

def statementReads : Statement σ → List (CallableRead σ)
  | .mk (.declaration _ pattern _ _ value) _ => patternReads throughPatterns pattern ++ expressionReads throughPatterns value
  | .mk (.indexedAssignment _ index _ _ value) _ => expressionReads throughPatterns index ++ expressionReads throughPatterns value
  | .mk (.assignment _ value) _ => expressionReads throughPatterns value
  | .mk (.export_ _ value) _ => expressionReads throughPatterns value
  | .mk (.if_ statement) _ => ifReads statement
  | .mk (.while_ condition body) _ => chainReads throughPatterns condition ++ blockReads body
  | .mk (.for_ _ iterable body) _ => expressionReads throughPatterns iterable ++ blockReads body
  | .mk (.match_ value arms) _ => expressionReads throughPatterns value ++ armReads arms
  | .mk (.try_ tryBlock _ catchBlock) _ => blockReads tryBlock ++ blockReads catchBlock
  | .mk (.throw value) _ => expressionReads throughPatterns value
  | .mk (.control (.return_ (some value))) _ => expressionReads throughPatterns value
  | .mk (.job chain _) _ => chainReads throughPatterns chain
  | .mk _ _ => []

def statementsReads : List (Statement σ) → List (CallableRead σ)
  | [] => []
  | statement :: statements => statementReads statement ++ statementsReads statements

def blockReads : Block σ → List (CallableRead σ)
  | .mk statements _ => statementsReads statements

def ifReads : IfStatement σ → List (CallableRead σ)
  | .mk condition thenBlock none => chainReads throughPatterns condition ++ blockReads thenBlock
  | .mk condition thenBlock (some branch) => chainReads throughPatterns condition ++ blockReads thenBlock ++ elseReads branch

def elseReads : ElseBranch σ → List (CallableRead σ)
  | .block block => blockReads block
  | .if_ node _ => ifReads node

def armReads : List (MatchArm σ) → List (CallableRead σ)
  | [] => []
  | .mk pattern none body _ :: arms => patternReads throughPatterns pattern ++ blockReads body ++ armReads arms
  | .mk pattern (some guard) body _ :: arms =>
    patternReads throughPatterns pattern ++ expressionReads throughPatterns guard ++ blockReads body ++ armReads arms

end

end Reads

/-- What the collector finds in a body. -/
def collectReads (statements : List (Statement σ)) : List (CallableRead σ) := statementsReads false statements

/-- All that a body reads. -/
def allReads (statements : List (Statement σ)) : List (CallableRead σ) := statementsReads true statements

end Opaal.Runtime
