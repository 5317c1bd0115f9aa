/-!
# The syntax tree

`ast.rs`.  Every type is generic in the spans `σ` it is built with: the parser
builds trees whose spans are known to address their source, so a tree with a
span off the source cannot be built.  A struct that occurs in one variant only
is written as the fields of that variant.
-/

namespace Opaal.Syntax

/-- A node kind paired with the source range it came from. -/
structure AstNode (σ κ : Type) where
  kind : κ
  span : σ
  deriving DecidableEq, Repr

structure Identifier (σ : Type) where
  span : σ
  deriving DecidableEq, Repr

structure NameReference (σ : Type) where
  name : Identifier σ
  span : σ
  deriving DecidableEq, Repr

/-- A name path with at least one segment. -/
structure QualifiedName (σ : Type) where
  segments : List (Identifier σ)
  span : σ
  nonempty : segments ≠ []
  deriving DecidableEq, Repr

def QualifiedName.first {σ : Type} (name : QualifiedName σ) : Identifier σ := name.segments.head name.nonempty

structure IoNumber (σ : Type) where
  span : σ
  deriving DecidableEq, Repr

/-! ## Modules -/

inductive ModuleImportSource (σ : Type) where
  | local_ (path : σ)
  | standard (module : Identifier σ) (namespace_ : Identifier σ) (span : σ)
  | project (module : Identifier σ) (namespace_ : Identifier σ) (span : σ)
  deriving DecidableEq, Repr

def ModuleImportSource.span {σ : Type} : ModuleImportSource σ → σ
  | .local_ path => path
  | .standard _ _ span => span
  | .project _ _ span => span

structure ModuleAliasImport (σ : Type) where
  source : ModuleImportSource σ
  alias_ : Identifier σ
  deriving DecidableEq, Repr

structure ModuleMemberSelector (σ : Type) where
  member : Identifier σ
  localName : Identifier σ
  span : σ
  deriving DecidableEq, Repr

structure ModuleMemberImport (σ : Type) where
  source : ModuleImportSource σ
  members : List (ModuleMemberSelector σ)
  span : σ
  deriving DecidableEq, Repr

inductive ModuleImportEntry (σ : Type) where
  | alias_ (entry : ModuleAliasImport σ)
  | members (entry : ModuleMemberImport σ)
  deriving DecidableEq, Repr

inductive ModuleExportSelector (σ : Type) where
  | name (name : Identifier σ)
  | prefix_ (name : Identifier σ) (marker : σ)
  deriving DecidableEq, Repr

/-! ## Types -/

inductive TypeReference (σ : Type) where
  | mk (name : Identifier σ) (arguments : List (TypeReference σ)) (span : σ)
  deriving Repr

def TypeReference.span {σ : Type} : TypeReference σ → σ
  | .mk _ _ span => span

inductive TypeConstraint where
  | equal | ordered
  deriving DecidableEq, Repr

structure TypeParameter (σ : Type) where
  name : Identifier σ
  constraints : List TypeConstraint
  span : σ
  deriving DecidableEq, Repr

structure NominalTypeField (σ : Type) where
  name : Identifier σ
  valueType : TypeReference σ
  span : σ
  deriving Repr

structure VariantDeclaration (σ : Type) where
  name : Identifier σ
  payload : List (TypeReference σ)
  span : σ
  deriving Repr

structure DocumentationBlock (σ : Type) where
  lines : List σ
  deriving DecidableEq, Repr

/-! ## Expressions and commands -/

inductive UnaryOperator where
  | not | positive | negative
  deriving DecidableEq, Repr

inductive BinaryOperator where
  | multiply | divide | remainder | add | subtract | range | rangeInclusive | less | lessEqual | greater
  | greaterEqual | in_ | equal | notEqual
  deriving DecidableEq, Repr

inductive ConditionalOperator where
  | or
  deriving DecidableEq, Repr

inductive AndOperator where
  | and
  deriving DecidableEq, Repr

inductive PipeOperator where
  | stdout | stdoutAndStderr
  deriving DecidableEq, Repr

inductive CommandHeadKind where
  | bare | forcedExternal
  deriving DecidableEq, Repr

inductive OutputMode where
  | truncate | append
  deriving DecidableEq, Repr

mutual

inductive LiteralKind (σ : Type) where
  | null
  | boolean (value : Bool)
  | integer
  | float
  | singleQuoted
  | doubleQuoted (parts : List (WordPart σ))

inductive Literal (σ : Type) where
  | mk (kind : LiteralKind σ) (span : σ)

inductive WordPartKind (σ : Type) where
  | bare | bareEscape | singleQuoted
  | doubleQuoted (parts : List (WordPart σ))
  | doubleText | doubleEscape | escapedBrace
  | interpolation (expression : Expression σ)

inductive WordPart (σ : Type) where
  | mk (kind : WordPartKind σ) (span : σ)

inductive Word (σ : Type) where
  | mk (parts : List (WordPart σ)) (span : σ)

inductive Pattern (σ : Type) where
  | wildcard (span : σ)
  | literal (literal : Literal σ)
  | binding (name : Identifier σ)
  | list (elements : List (Pattern σ)) (rest : Option (Identifier σ)) (span : σ)
  | nominalRecord (name : QualifiedName σ) (fields : List (PatternField σ)) (span : σ)
  | variant (constructor : QualifiedName σ) (payload : List (Pattern σ)) (span : σ)

inductive PatternField (σ : Type) where
  | mk (name : Identifier σ) (pattern : Pattern σ) (span : σ)

inductive Parameter (σ : Type) where
  | mk (pattern : Pattern σ) (name : Identifier σ) (annotatedType : Option (TypeReference σ)) (span : σ)

inductive Closure (σ : Type) where
  | mk (parameters : List (Parameter σ)) (resultType : Option (TypeReference σ)) (body : ConditionalChain σ)
      (span : σ)

inductive ListItem (σ : Type) where
  | element (expression : Expression σ)
  | spread (marker : σ) (operand : Expression σ)

inductive RecordKey (σ : Type) where
  | identifier (name : Identifier σ)
  | singleQuoted (span : σ)
  | doubleQuoted (part : WordPart σ)

inductive RecordEntry (σ : Type) where
  | mk (key : RecordKey σ) (value : Expression σ) (span : σ)

inductive NominalRecordFieldExpression (σ : Type) where
  | mk (name : Identifier σ) (value : Expression σ) (span : σ)

inductive ExpressionKind (σ : Type) where
  | literal (literal : Literal σ)
  | name (reference : NameReference σ)
  | qualified (name : QualifiedName σ)
  | list (items : List (ListItem σ))
  | record (entries : List (RecordEntry σ))
  | nominalRecord (name : QualifiedName σ) (fields : List (NominalRecordFieldExpression σ))
  | closure (closure : Closure σ)
  | groupedJob (chain : ConditionalChain σ)
  | call (callee : Expression σ) (typeArguments : List (TypeReference σ)) (arguments : List (Expression σ))
  | index (target index : Expression σ)
  | member (target : Expression σ) (member : Identifier σ)
  | unary (operator : AstNode σ UnaryOperator) (operand : Expression σ)
  | binary (left : Expression σ) (operator : AstNode σ BinaryOperator) (right : Expression σ)

inductive Expression (σ : Type) where
  | mk (kind : ExpressionKind σ) (span : σ)

inductive ConditionalChain (σ : Type) where
  | mk (orTerms : List (AndChain σ)) (operators : List (AstNode σ ConditionalOperator)) (span : σ)

inductive AndChain (σ : Type) where
  | mk (andTerms : List (Pipeline σ)) (operators : List (AstNode σ AndOperator)) (span : σ)

inductive Pipeline (σ : Type) where
  | mk (stages : List (Stage σ)) (operators : List (AstNode σ PipeOperator)) (span : σ)

inductive StageKind (σ : Type) where
  | command (head : CommandHead σ) (items : List (CommandItem σ))
  | expression (expression : Expression σ)

inductive Stage (σ : Type) where
  | mk (kind : StageKind σ) (span : σ)

inductive CommandHead (σ : Type) where
  | mk (kind : CommandHeadKind) (word : Word σ) (span : σ)

inductive RedirectionKind (σ : Type) where
  | input (descriptor : Option (IoNumber σ)) (operatorSpan : σ) (target : Word σ)
  | file (descriptor : Option (IoNumber σ)) (mode : OutputMode) (operatorSpan : σ) (target : Word σ)
  | duplicate (descriptor : IoNumber σ) (operatorSpan : σ) (target : IoNumber σ)
  | close (descriptor : IoNumber σ) (operatorSpan : σ) (targetSpan : σ)

inductive CommandItemKind (σ : Type) where
  | word (word : Word σ)
  | spread (expression : Expression σ)
  | closure (closure : Closure σ)
  | redirection (kind : RedirectionKind σ) (span : σ)

inductive CommandItem (σ : Type) where
  | mk (kind : CommandItemKind σ) (span : σ)

end

/-! ## Statements -/

structure CapabilityName (σ : Type) where
  family : Identifier σ
  operation : Identifier σ
  span : σ
  deriving DecidableEq, Repr

inductive StaticEffectArgument (σ : Type) where
  | literal (literal : Literal σ)
  | qualified (name : QualifiedName σ)

structure EffectRequest (σ : Type) where
  capability : CapabilityName σ
  arguments : List (StaticEffectArgument σ)
  span : σ

inductive ControlTransfer (σ : Type) where
  | break_
  | continue_
  | return_ (value : Option (Expression σ))

mutual

inductive Block (σ : Type) where
  | mk (statements : List (Statement σ)) (span : σ)

inductive IfStatement (σ : Type) where
  | mk (condition : ConditionalChain σ) (thenBlock : Block σ) (elseBranch : Option (ElseBranch σ))

inductive ElseBranch (σ : Type) where
  | block (block : Block σ)
  | if_ (node : IfStatement σ) (span : σ)

inductive MatchArm (σ : Type) where
  | mk (pattern : Pattern σ) (guard : Option (Expression σ)) (body : Block σ) (span : σ)

inductive StatementKind (σ : Type) where
  | moduleImport (entry : ModuleAliasImport σ)
  | moduleMemberImport (entry : ModuleMemberImport σ)
  | moduleImportGroup (entries : List (ModuleImportEntry σ))
  | moduleExport (names : List (ModuleExportSelector σ))
  | nominalType (name : Identifier σ) (typeParameters : List (TypeParameter σ))
      (fields : List (NominalTypeField σ))
  | variantType (name : Identifier σ) (typeParameters : List (TypeParameter σ))
      (variants : List (VariantDeclaration σ))
  | declaration (mutable_ : Bool) (pattern : Pattern σ) (name : Identifier σ)
      (annotatedType : Option (TypeReference σ)) (value : Expression σ)
  | assignment (target : NameReference σ) (value : Expression σ)
  | indexedAssignment (target : NameReference σ) (index : Expression σ) (brackets operator : σ)
      (value : Expression σ)
  | export_ (name : Identifier σ) (value : Expression σ)
  | unset (name : Identifier σ)
  | function (documentation : Option (DocumentationBlock σ)) (name : Identifier σ)
      (typeParameters : List (TypeParameter σ)) (parameters : List (Parameter σ))
      (returnType : Option (TypeReference σ)) (body : Block σ)
  | action (documentation : Option (DocumentationBlock σ)) (name : Identifier σ)
      (typeParameters : List (TypeParameter σ)) (parameters : List (Parameter σ))
      (returnType : TypeReference σ) (effects : List (EffectRequest σ)) (effectsSpan : σ) (body : Block σ)
  | task (documentation : Option (DocumentationBlock σ)) (name : Identifier σ) (action : QualifiedName σ)
  | if_ (statement : IfStatement σ)
  | while_ (condition : ConditionalChain σ) (body : Block σ)
  | for_ (binding : Identifier σ) (iterable : Expression σ) (body : Block σ)
  | match_ (value : Expression σ) (arms : List (MatchArm σ))
  | try_ (tryBlock : Block σ) (catchBinding : Identifier σ) (catchBlock : Block σ)
  | throw (value : Expression σ)
  | control (transfer : ControlTransfer σ)
  | job (chain : ConditionalChain σ) (backgroundSpan : Option σ)

inductive Statement (σ : Type) where
  | mk (kind : StatementKind σ) (span : σ)

end

structure Script (σ : Type) where
  statements : List (Statement σ)
  span : σ

section Accessors

variable {σ : Type}

def Literal.span : Literal σ → σ
  | .mk _ span => span

def WordPart.kind : WordPart σ → WordPartKind σ
  | .mk kind _ => kind

def WordPart.span : WordPart σ → σ
  | .mk _ span => span

def Word.span : Word σ → σ
  | .mk _ span => span

def Pattern.span : Pattern σ → σ
  | .wildcard span => span
  | .literal value => value.span
  | .binding name => name.span
  | .list _ _ span => span
  | .nominalRecord _ _ span => span
  | .variant _ _ span => span

def Closure.span : Closure σ → σ
  | .mk _ _ _ span => span

def Expression.kind : Expression σ → ExpressionKind σ
  | .mk kind _ => kind

def Expression.span : Expression σ → σ
  | .mk _ span => span

def ConditionalChain.span : ConditionalChain σ → σ
  | .mk _ _ span => span

def AndChain.span : AndChain σ → σ
  | .mk _ _ span => span

def Pipeline.span : Pipeline σ → σ
  | .mk _ _ span => span

def Stage.span : Stage σ → σ
  | .mk _ span => span

def CommandHead.span : CommandHead σ → σ
  | .mk _ _ span => span

def CommandItem.span : CommandItem σ → σ
  | .mk _ span => span

def Block.span : Block σ → σ
  | .mk _ span => span

def Statement.kind : Statement σ → StatementKind σ
  | .mk kind _ => kind

def Statement.span : Statement σ → σ
  | .mk _ span => span

end Accessors

end Opaal.Syntax
