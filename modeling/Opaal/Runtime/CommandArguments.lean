import Opaal.Runtime.Glob

/-!
# Arguments of internal commands

One schema describes the positionals and options a command takes. The same pass checks source
arguments, where interpolated words and spreads are unknown, and the expanded words of a plan.
-/

namespace Opaal.Runtime.Command

/-! ## Schemas -/

inductive CommandArgumentKind where
  | word
  | closure
  | any
deriving DecidableEq

inductive CommandDynamicTail where
  | deferredToRuntime
  | rejected
deriving DecidableEq

inductive CommandOptionTerminator where
  | accepted
  | literal
deriving DecidableEq

/-- One long option; what it conflicts with is in spelling order. -/
structure CommandOptionSchema where
  name : String
  valueArity : Nat
  repeatable : Bool
  conflicts : List String
deriving DecidableEq

structure CommandArgumentSchema where
  minimum : Nat
  maximum : Option Nat
  positionalKinds : List CommandArgumentKind
  variadicKind : CommandArgumentKind
  options : List CommandOptionSchema
  optionsBeforePositionals : Bool
  terminator : CommandOptionTerminator
  dynamicTail : CommandDynamicTail
deriving DecidableEq

def CommandArgumentSchema.default : CommandArgumentSchema :=
  ⟨0, none, [], .any, [], false, .accepted, .deferredToRuntime⟩

def CommandArgumentSchema.positional (minimum : Nat) (maximum : Option Nat) : CommandArgumentSchema :=
  { CommandArgumentSchema.default with minimum := minimum, maximum := maximum, variadicKind := .word }

def CommandArgumentSchema.positionalKind (schema : CommandArgumentSchema) (position : Nat) : CommandArgumentKind :=
  schema.positionalKinds[position]?.getD schema.variadicKind

def CommandArgumentSchema.option (schema : CommandArgumentSchema) (name : String) : Option CommandOptionSchema :=
  schema.options.find? (·.name == name)

/-! ## Inputs and faults -/

abbrev Word := List UInt8

/-- An argument: a word, unknown where it depends on an interpolation, a closure, or a spread of
unknown length. -/
inductive CommandArgumentInput where
  | word (bytes : Option Word)
  | closure
  | dynamicTail
deriving DecidableEq

inductive CommandArgumentFaultKind where
  | arity (minimum : Nat) (maximum : Option Nat) (actual : Nat)
  | unknownOption (option : String)
  | missingOptionValues (option : String) (expected actual : Nat)
  | repeatedOption (option : String)
  | conflictingOptions (option conflict : String)
  | optionAfterPositional (option : String)
  | unexpectedKind (position : Nat) (expected actual : CommandArgumentKind)
  | dynamicTail
deriving DecidableEq

structure CommandArgumentFault where
  argumentIndex : Option Nat
  kind : CommandArgumentFaultKind
deriving DecidableEq

/-! ## Validation -/

def terminatorWord : Word := ['-'.toUInt8, '-'.toUInt8]

/-- Text with one replacement character for each run of bytes that is none, in at most `bound` runs. -/
def fromUtf8LossyFrom : Nat → Word → List Char
  | 0, _ => []
  | bound + 1, bytes =>
    if bytes = [] then []
    else
      match Text.decode bytes with
      | some text => text
      | none =>
        let valid := validUpTo bytes
        let rest := bytes.drop valid
        let invalid := min ((Glob.errorLen rest).getD rest.length) rest.length
        (Text.decode (bytes.take valid)).getD [] ++ [Char.ofNat 0xFFFD] ++ fromUtf8LossyFrom bound (rest.drop invalid)

def fromUtf8Lossy (bytes : Word) : String := String.ofList (fromUtf8LossyFrom (bytes.length + 1) bytes)

/-- What the pass knows; there are as many definite positionals as indices of them. -/
structure ScanState where
  faults : List CommandArgumentFault
  optionsActive : Bool
  positionalStarted : Bool
  definitePositionalIndices : List Nat
  possiblePositionals : Nat
  unboundedPositionals : Bool
  uncertainOptionClassification : Bool
  seen : List String

def ScanState.initial : ScanState := ⟨[], true, false, [], 0, false, false, []⟩

def ScanState.definitePositionals (state : ScanState) : Nat := state.definitePositionalIndices.length

def ScanState.fault (state : ScanState) (index : Nat) (kind : CommandArgumentFaultKind) : ScanState :=
  { state with faults := state.faults ++ [⟨some index, kind⟩] }

/-- What reading one argument leaves: the pass goes on behind some values of it, or ends. -/
inductive Reading where
  | next (state : ScanState) (values : Nat)
  | stop (state : ScanState)

def Reading.state : Reading → ScanState
  | .next state _ => state
  | .stop state => state

namespace CommandArgumentSchema

variable (schema : CommandArgumentSchema)

def readPositional (state : ScanState) (index : Nat) (actual : CommandArgumentKind) : ScanState :=
  let position := state.definitePositionals
  let expected := schema.positionalKind position
  let state := { state with
    positionalStarted := true
    definitePositionalIndices := state.definitePositionalIndices ++ [index]
    possiblePositionals := state.possiblePositionals + 1 }
  if !state.uncertainOptionClassification && expected ≠ .any && expected ≠ actual then
    state.fault index (.unexpectedKind position expected actual)
  else state

def afterPositionalCheck (state : ScanState) (index : Nat) (option : CommandOptionSchema) : ScanState :=
  if schema.optionsBeforePositionals && state.positionalStarted then
    state.fault index (.optionAfterPositional option.name)
  else state

def repeatedCheck (state : ScanState) (index : Nat) (option : CommandOptionSchema) : ScanState :=
  if !option.repeatable && state.seen.contains option.name then state.fault index (.repeatedOption option.name) else state

def conflictCheck (state : ScanState) (index : Nat) (option : CommandOptionSchema) : ScanState :=
  match option.conflicts.find? state.seen.contains with
  | some conflict => state.fault index (.conflictingOptions option.name conflict)
  | none => state

/-- The checks of an option that its schema knows, before its values. -/
def enterOption (state : ScanState) (index : Nat) (option : CommandOptionSchema) : ScanState :=
  let state := schema.afterPositionalCheck state index option
  let state := repeatedCheck state index option
  let state := conflictCheck state index option
  { state with seen := option.name :: state.seen }

def readOption (state : ScanState) (index available : Nat) (name : String) : Reading :=
  match schema.option name with
  | none => .next (state.fault index (.unknownOption name)) 0
  | some option =>
    let state := schema.enterOption state index option
    if available < option.valueArity then
      .stop (state.fault index (.missingOptionValues option.name option.valueArity available))
    else .next state option.valueArity

/-- One argument with `available` ones behind it. -/
def read (state : ScanState) (index available : Nat) : CommandArgumentInput → Reading
  | .dynamicTail =>
    if schema.dynamicTail = .rejected then .next (state.fault index .dynamicTail) 0
    else .next { state with unboundedPositionals := true, uncertainOptionClassification := true } 0
  | .word (some bytes) =>
    if state.optionsActive && schema.terminator = .accepted && bytes = terminatorWord then
      .next { state with optionsActive := false } 0
    else if state.optionsActive && terminatorWord.isPrefixOf bytes &&
        !(schema.terminator = .literal && bytes = terminatorWord) then
      schema.readOption state index available (fromUtf8Lossy bytes)
    else .next (schema.readPositional state index .word) 0
  | .word none =>
    if state.optionsActive then
      .next { state with possiblePositionals := state.possiblePositionals + 1, uncertainOptionClassification := true } 0
    else .next (schema.readPositional state index .word) 0
  | .closure => .next (schema.readPositional state index .closure) 0

/-- The pass over the arguments from an index on, the first `values` of which belong to an option. -/
def scan : (values : Nat) → (index : Nat) → ScanState → List CommandArgumentInput → ScanState
  | _, _, state, [] => state
  | values + 1, index, state, _ :: rest => scan values (index + 1) state rest
  | 0, index, state, input :: rest =>
    match schema.read state index rest.length input with
    | .next state values => scan values (index + 1) state rest
    | .stop state => state

def tooFew (state : ScanState) : Bool :=
  !state.unboundedPositionals && !state.uncertainOptionClassification && state.possiblePositionals < schema.minimum

def tooMany (state : ScanState) : Bool := schema.maximum.any (· < state.definitePositionals)

/-- The arity fault of a finished pass. -/
def arityFault (state : ScanState) : Option CommandArgumentFault :=
  if schema.tooFew state || schema.tooMany state then
    some ⟨(schema.maximum.filter fun _ => schema.tooMany state).bind (state.definitePositionalIndices[·]?),
      .arity schema.minimum schema.maximum state.definitePositionals⟩
  else none

def finish (state : ScanState) : List CommandArgumentFault := state.faults ++ (schema.arityFault state).toList

def validate (inputs : List CommandArgumentInput) : List CommandArgumentFault :=
  schema.finish (schema.scan 0 0 .initial inputs)

end CommandArgumentSchema

end Opaal.Runtime.Command
