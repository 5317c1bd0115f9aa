import Opaal.Machine.Wire
import Opaal.Runtime.SupervisorCompletion
import Opaal.Text.Decode

/-!
# Decoding capsules

The private wire format between a session and its job supervisors, read back from bytes that
may be anything.  Values nest up to a fixed depth, collections share one budget of items, and
callables are numbered in the order in which they are defined.
-/

namespace Opaal.Runtime.Capsule

open Opaal.Machine.Wire
open Opaal.Runtime.Supervisor
open Opaal.Syntax (SourceFile SourceId Span SpanError)

/-! ## Limits -/

def magic : List UInt8 := "OPAALCAP".toUTF8.toList

def completionMagic : List UInt8 := "OPAALEND".toUTF8.toList

def version : Nat := 4

def maxCapsuleDepth : Nat := 64

def maxCapsuleItems : Nat := 1000000

def maxCapsuleBytes : Nat := 16 * 1024 * 1024

/-! ## Errors of the constructors -/

structure DuplicateRecordKey where
  key : String
  index : Nat
deriving DecidableEq

inductive TableError where
  | duplicateColumn (column : String) (index : Nat)
  | rowWidth (row expected actual : Nat)
deriving DecidableEq

/-- What a capsule is refused for.  Where the text of another error goes into the message, the
error itself is kept. -/
inductive DecodeError where
  | message (text : String)
  | float (error : NonFiniteFloat)
  /-- "invalid record: " -/
  | record (error : DuplicateRecordKey)
  /-- "invalid table: " -/
  | table (error : TableError)
  | signal (error : MissingSignalIdentity)
  /-- "invalid capsule status: " -/
  | status (error : InvalidStatus)
  /-- "invalid capsule span: " -/
  | span (error : SpanError)
  /-- "invalid callable origin span: " -/
  | originSpan (error : SpanError)
  /-- "invalid capsule scope: " -/
  | scope (failure : ScopeFailure)

variable {F C Program α β : Type}

/-- The index of the first item that an earlier one equals. -/
def firstDuplicate (seen : List String) : List String → Option (String × Nat)
  | [] => none
  | name :: names => if name ∈ seen then some (name, seen.length) else firstDuplicate (seen ++ [name]) names

def newRecord (entries : List (String × Value F C)) : Except DuplicateRecordKey (Value F C) :=
  match firstDuplicate [] (entries.map Prod.fst) with
  | some (key, index) => .error ⟨key, index⟩
  | none => .ok (.record entries)

def newTable (columns : List String) (rows : List (List (Value F C))) :
    Except TableError (Value F C) :=
  match firstDuplicate [] columns with
  | some (column, index) => .error (.duplicateColumn column index)
  | none =>
    match rows.findIdx? fun row => row.length ≠ columns.length with
    | some row => .error (.rowWidth row columns.length (rows.getD row []).length)
    | none => .ok (.table columns rows)

/-! ## Primitive fields -/

/-- The context of a decoder is the analysis work that is left. -/
abbrev Decode (α : Type) := Reader Nat DecodeError α

def refuse (text : String) : Decode α := fail (.message text)

def number (count : Nat) : Decode Nat := unsigned (.message "execution capsule is truncated") count

def u8 : Decode Nat := number 1

def bool : Decode Bool := do
  match ← u8 with
  | 0 => return false
  | 1 => return true
  | _ => refuse "capsule boolean is invalid"

def u16 : Decode Nat := number 2

def u32 : Decode Nat := number 4

def u64 : Decode UInt64 := do return UInt64.ofNat (← number 8)

/-- Two's complement. -/
def i64 : Decode Int64 := do return Int64.ofNat (← number 8)

def durationOf (bits : BitVec 128) : Duration := ⟨bits.toInt, bits.le_toInt, bits.toInt_lt⟩

def i128 : Decode (BitVec 128) := do return BitVec.ofNat 128 (← number 16)

/-- A length; every 32-bit length fits. -/
def usize : Decode Nat := u32

def charge (count : Nat) : Decode Unit := chargeItems (.message "execution capsule has too many values") count

def collectionLen : Decode Nat := do
  let count ← usize
  charge count
  return count

/-- A collection of so many items, all made the same way. -/
def collection (item : Decode α) : Decode (List α) := do
  let count ← collectionLen
  reserve count
  repeatRead item count

def byteString : Decode (List UInt8) := do
  let count ← usize
  take (.message "execution capsule is truncated") count

def text : Decode (List Char) := do
  match Text.decode (← byteString) with
  | some characters => return characters
  | none => refuse "capsule string is not UTF-8"

def string : Decode String := do return String.ofList (← text)

/-- A field that a flag announces. -/
def optional (field : Decode α) : Decode (Option α) := do
  if ← bool then
    let value ← field
    return some value
  else return none

def native : Decode NativePath := do return ⟨← byteString⟩

/-! ## Types -/

def decodeModuleId : Decode ModuleId := do
  match ← u8 with
  | 0 =>
    let path ← native
    return ⟨path, .localModule⟩
  | 1 =>
    let nameSpace ← string
    let module ← string
    return ⟨⟨Text.bytes (nameSpace ++ "::" ++ module).toList⟩, .standard nameSpace module⟩
  | _ => refuse "invalid module origin"

/-- The types whose values may not leave the process. -/
def isOpaqueOperationalNominal (id : NominalTypeId) : Bool :=
  match id.module.origin with
  | .standard nameSpace module =>
    if nameSpace = "project" then module ∈ ["tools", "endpoints", "secrets"]
    else
      nameSpace = "std" &&
        ((module = "http" && id.name = "SecretHeader") || (module = "docker" && id.name = "TargetIdentity"))
  | .localModule => false

/-- Types nest up to a depth; `decodeArgument` reads them one level further down. -/
def decodeNominalIdentity (decodeArgument : Decode ValueType) : Decode (NominalTypeId × List ValueType) := do
  let module ← decodeModuleId
  let name ← string
  let arguments ← collection decodeArgument
  if isOpaqueOperationalNominal ⟨module, name⟩ then refuse "control carriers cannot cross the execution capsule"
  else return (⟨module, name⟩, arguments)

/-- `levels` is how many levels are still allowed; the source counts the depth instead. -/
def decodeValueType : Nat → Decode ValueType
  | 0 => refuse "execution capsule type nesting is too deep"
  | levels + 1 => do
    match ← u8 with
    | 0 => return .any
    | 1 => return .null
    | 2 => return .bool
    | 3 => return .int
    | 4 => return .float
    | 5 => return .string
    | 6 => return .bytes
    | 7 => return .path
    | 8 => return .duration
    | 9 => return .byteSize
    | 10 =>
      let element ← decodeValueType levels
      return .list element
    | 11 => return .record
    | 12 => return .table
    | 13 => return .range
    | 14 => return .status
    | 15 => return .error
    | 16 => return .function
    | 17 => return .closure
    | 18 =>
      let name ← string
      return .typeParameter name
    | 19 =>
      let (id, arguments) ← decodeNominalIdentity (decodeValueType levels)
      return .nominal id arguments
    | tag => refuse ("unknown capsule type tag " ++ toString tag)

/-- The levels of something that is not nested yet. -/
def outermost : Nat := maxCapsuleDepth + 1

/-! ## Statuses -/

def decodeSignal : Decode Signal := do
  let number ← optional i64
  let name ← optional string
  match Signal.new number name with
  | .ok signal => return signal
  | .error error => fail (.signal error)

/-- The status the fields of one level make; an aggregate names one of its stages by its
completion. -/
def buildStatus (code : Option Int64) (signal : Option Signal) (duration : Duration) (stages : List Status) : Decode Status :=
  if stages = [] then
    match code, signal with
    | some code, none => checked .status (Status.exit code duration)
    | none, some signal => checked .status (Status.signaled signal duration)
    | _, _ => refuse "capsule status has invalid completion fields"
  else
    match stages.findIdx? fun stage => stage.code = code ∧ stage.signal = signal with
    | none => refuse "aggregate status has no selected stage"
    | some selected => checked .status (Status.aggregate stages selected duration)

def decodeStatus : Nat → Decode Status
  | 0 => refuse "execution capsule nesting is too deep"
  | levels + 1 => do
    let code ← optional i64
    let signal ← optional decodeSignal
    let duration ← i128
    let stages ← collection (decodeStatus levels)
    buildStatus code signal (durationOf duration) stages

/-! ## Runtime errors -/

/-- A source with the name it is shown under. -/
structure NamedSource where
  name : String
  file : SourceFile
deriving DecidableEq

inductive ErrorCategory where
  | user
  | type
  | name
  | control
  | operation
  | command
  | io
  | process
  | job
  | resource
  | platform
  | internal
deriving DecidableEq

structure ErrorLabel where
  source : NamedSource
  span : Span
  message : String

inductive FrameCallee where
  | function (name : String)
  | closure

structure CallFrame where
  callee : FrameCallee
  callSite : Span
  source : NamedSource

inductive RuntimeErrorSnapshot where
  | mk (category : ErrorCategory) (message : String) (span : Span) (labels : List ErrorLabel) (frames : List CallFrame)
      (source : Option NamedSource) (cause : Option RuntimeErrorSnapshot) (status : Option Status)

def decodeErrorCategory : Nat → Decode ErrorCategory
  | 0 => return .user
  | 1 => return .type
  | 2 => return .name
  | 3 => return .control
  | 4 => return .operation
  | 5 => return .command
  | 6 => return .io
  | 7 => return .process
  | 8 => return .job
  | 9 => return .resource
  | 10 => return .platform
  | 11 => return .internal
  | _ => refuse "capsule error category is invalid"

def decodeSource : Decode NamedSource := do
  let id ← u32
  let name ← string
  let content ← text
  return ⟨name, ⟨id, content⟩⟩

def decodeSpan (source : NamedSource) : Decode Span := do
  let id ← u32
  if id ≠ source.file.id then refuse "capsule span source is inconsistent"
  else
    let start ← usize
    let stop ← usize
    checked .span (source.file.span start stop)

def decodeLabel : Decode ErrorLabel := do
  let source ← decodeSource
  let span ← decodeSpan source
  let message ← string
  return ⟨source, span, message⟩

def decodeFrame : Decode CallFrame := do
  let callee ← match ← u8 with
    | 0 => do
      let name ← string
      pure (FrameCallee.function name)
    | 1 => pure .closure
    | _ => refuse "capsule error frame is invalid"
  let source ← decodeSource
  let callSite ← decodeSpan source
  return ⟨callee, callSite, source⟩

def decodeRuntimeError : Nat → Decode RuntimeErrorSnapshot
  | 0 => refuse "execution capsule error nesting is too deep"
  | levels + 1 => do
    let category ← decodeErrorCategory (← u8)
    let message ← string
    let source ← decodeSource
    let span ← decodeSpan source
    let labels ← collection decodeLabel
    let frames ← collection decodeFrame
    let cause ← optional (decodeRuntimeError levels)
    let status ← optional (decodeStatus levels)
    return .mk category message span labels frames (some source) cause status

/-! ## Values -/

/-- The fields of a nominal record; no name may come twice. -/
def nominalFields (field : Decode (Value F C)) : Nat → List String → Decode (List (String × Value F C))
  | 0, _ => return []
  | count + 1, names => do
    let name ← string
    if name ∈ names then refuse "duplicate nominal field"
    else
      let value ← field
      let rest ← nominalFields field count (name :: names)
      return (name, value) :: rest

/-- A table is charged for its columns, its rows and its cells. -/
def decodeTable (cell : Decode (Value F C)) : Decode (Value F C) := do
  let columns ← collection string
  let height ← collectionLen
  if columns.length * height < 2 ^ 64 then
    charge (columns.length * height)
    reserve height
    let rows ← repeatRead (do reserve columns.length; repeatRead cell columns.length) height
    checked .table (newTable columns rows)
  else refuse "capsule table dimensions overflow"

section Values

variable (restoreError : RuntimeErrorSnapshot → F) (callables : List (CallableFamily × C))

def decodeCallableId : Decode (Value F C) := do
  match callables[← u32]? with
  | some (family, callable) => return .callable family callable
  | none => refuse "callable identity is not yet defined"

def decodeValue : Nat → Decode (Value F C)
  | 0 => refuse "execution capsule nesting is too deep"
  | levels + 1 => do
    match ← u8 with
    | 0 => return .null
    | 1 =>
      let value ← bool
      return .bool value
    | 2 =>
      let value ← i64
      return .int value
    | 3 =>
      let bits ← u64
      let value ← checked .float (FiniteFloat.new ⟨bits⟩)
      return .float value
    | 4 =>
      let value ← string
      return .string value
    | 5 =>
      let value ← byteString
      return .bytes value
    | 6 =>
      let value ← native
      return .path value
    | 7 =>
      let value ← i128
      return .duration (durationOf value)
    | 8 =>
      let value ← u64
      return .byteSize ⟨value⟩
    | 9 =>
      let values ← collection (decodeValue levels)
      return .list values
    | 10 =>
      let entries ← collection do
        let key ← string
        let value ← decodeValue levels
        return (key, value)
      checked .record (newRecord entries)
    | 11 => decodeTable (decodeValue levels)
    | 12 =>
      let start ← i64
      let stop ← i64
      let inclusiveEnd ← bool
      return .range ⟨start, stop, inclusiveEnd⟩
    | 13 =>
      let status ← decodeStatus levels
      return .status status
    | 14 => decodeCallableId callables
    | 15 =>
      let error ← decodeRuntimeError levels
      return .error (restoreError error)
    | 16 =>
      let (id, arguments) ← decodeNominalIdentity (decodeValueType levels)
      let count ← collectionLen
      reserve count
      let fields ← nominalFields (decodeValue levels) count []
      return .nominalRecord id arguments fields
    | 17 =>
      let (id, arguments) ← decodeNominalIdentity (decodeValueType levels)
      let variantName ← string
      let payload ← collection (decodeValue levels)
      return .variant id arguments variantName payload
    | tag => refuse ("unknown capsule value tag " ++ toString tag)

def decodeMutability : Decode BindingMutability := do
  match ← u8 with
  | 0 => return .immutable
  | 1 => return .mutable
  | _ => refuse "capsule binding mutability is invalid"

def decodeBinding : Decode (String × Binding F C) := do
  let name ← string
  let mutability ← decodeMutability
  let valueType ← optional (decodeValueType outermost)
  let value ← decodeValue restoreError callables outermost
  return (name, ⟨mutability, valueType, value⟩)

def decodeScope : Decode (ScopeStack F C) := do
  let bindings ← collection (decodeBinding restoreError callables)
  checked .scope (fromCapsuleBindings bindings)

end Values

/-! ## Type contexts -/

/-- Items that may not clash with those read before them; the maps and sets of the source are
the lists of what went into them. -/
def readDistinct (item : Decode α) (clashes : List α → α → Bool) (clash : String) : Nat → List α → Decode (List α)
  | 0, read => return read
  | count + 1, read => do
    let value ← item
    if clashes read value then refuse clash else readDistinct item clashes clash count (read ++ [value])

structure RetainedSources where
  sources : List (ModuleId × NamedSource)
  resolutions : List (NativePath × NativePath)

structure ReplTypeSource where
  source : NamedSource
  localImports : List (Nat × ModuleId)
  statementCount : Nat
  nominalOffsets : List Nat

structure RuntimeTypeContext (Program : Type) where
  programs : List Program
  cells : List ReplTypeSource

structure CallableSnapshot (F C Program : Type) where
  name : Option String
  parameters : List (String × ValueType)
  captured : ScopeStack F C
  source : NamedSource
  resultType : Option ValueType
  location : String
  originSpan : Span
  capturedTypeArguments : List (String × ValueType)
  typeContext : RuntimeTypeContext Program

/-- The parts of the runtime that turn decoded data into live objects.  They are given the
analysis work that is left. -/
structure Restorer (F C Program : Type) where
  restoreError : RuntimeErrorSnapshot → F
  /-- `restore_callable`: the callable, or why there is none, and the work left after it. -/
  restoreCallable : CallableSnapshot F C Program → Nat → Except String (CallableFamily × C) × Nat
  /-- `analyze_with_limits` over the retained sources: the program, if there is one, and the work used. -/
  analyze : RetainedSources → ModuleId → Nat → Option Program × Nat
  /-- Whether the sources of a program are the retained ones. -/
  consistent : RetainedSources → Program → Bool
  /-- `validate_decoded_nominals`. -/
  validateNominals : List (ScopeStack F C) → List (CallableFamily × C) → Except String Unit

def analysisWork : Decode Nat := do return (← get).context

def setAnalysisWork (work : Nat) : Decode Unit := modify fun decoder => { decoder with context := work }

def decodeRetained : Decode RetainedSources := do
  let count ← collectionLen
  if count > 256 then refuse "too many retained sources"
  else
    reserve count
    let sources ← readDistinct (do
        let module ← decodeModuleId
        let source ← decodeSource
        return (module, source))
      (fun read entry => read.any fun other => other.2.file.id = entry.2.file.id || other.1 == entry.1)
      "duplicate retained source identity" count []
    let count ← collectionLen
    reserve count
    let resolutions ← readDistinct (do
        let requested ← native
        let target ← native
        return (requested, target))
      (fun read entry => read.any fun other => other.1.components == entry.1.components)
      "duplicate retained path resolution" count []
    return ⟨sources, resolutions⟩

def decodeProgram (restorer : Restorer F C Program) (retained : RetainedSources) : Decode Program := do
  let root ← decodeModuleId
  if root.origin ≠ .localModule then refuse "retained program root must be local"
  else
    let work ← analysisWork
    let (program, used) := restorer.analyze retained root work
    setAnalysisWork (work - used)
    match program with
    | none => refuse "retained module context cannot be analyzed"
    | some program =>
      if restorer.consistent retained program then return program
      else refuse "retained module source context is inconsistent"

/-- One interactive source; its identity has to be new. -/
def decodeCell (retained : RetainedSources) (ids : List SourceId) : Decode ReplTypeSource := do
  let source ← decodeSource
  if source.file.id ∈ ids then refuse "duplicate retained source identity"
  else
    let statementCount ← usize
    let nominalCount ← collectionLen
    reserve nominalCount
    let nominalOffsets ← readDistinct usize (fun read offset => source.file.len ≤ offset || offset ∈ read)
      "invalid retained nominal declaration" nominalCount []
    let importCount ← collectionLen
    reserve importCount
    let localImports ← readDistinct (do
        let offset ← usize
        let target ← decodeModuleId
        return (offset, target))
      (fun read entry => !(retained.sources.any fun source => source.1 == entry.2) || read.any fun other => other.1 = entry.1)
      "invalid retained interactive import" importCount []
    return ⟨source, localImports, statementCount, nominalOffsets⟩

def decodeCells (retained : RetainedSources) : Nat → List SourceId → Decode (List ReplTypeSource)
  | 0, _ => return []
  | count + 1, ids => do
    let cell ← decodeCell retained ids
    let rest ← decodeCells retained count (cell.source.file.id :: ids)
    return cell :: rest

def decodeTypeContext (restorer : Restorer F C Program) : Decode (RuntimeTypeContext Program) := do
  let retained ← decodeRetained
  let count ← collectionLen
  if count > 256 then refuse "too many retained programs"
  else
    reserve count
    let programs ← repeatRead (decodeProgram restorer retained) count
    let count ← collectionLen
    if count + retained.sources.length > 256 then refuse "too many retained sources"
    else
      reserve count
      let cells ← decodeCells retained count (retained.sources.map fun source => source.2.file.id)
      return ⟨programs, cells⟩

/-! ## Callables -/

section Callables

variable (restorer : Restorer F C Program)

def decodeParameter : Decode (String × ValueType) := do
  let name ← string
  let valueType ← decodeValueType outermost
  return (name, valueType)

def decodeCallable (callables : List (CallableFamily × C)) : Decode (CallableSnapshot F C Program) := do
  let name ← optional string
  let parameters ← collection decodeParameter
  let captured ← decodeScope restorer.restoreError callables
  let source ← decodeSource
  let resultType ← optional (decodeValueType outermost)
  let location ← string
  let originSource ← u32
  if originSource ≠ source.file.id then refuse "callable origin source does not match its source"
  else
    let start ← usize
    let stop ← usize
    let originSpan ← checked .originSpan (source.file.span start stop)
    let count ← collectionLen
    reserve count
    let capturedTypeArguments ← readDistinct decodeParameter (fun read entry => read.any fun other => other.1 = entry.1)
      "duplicate captured type parameter" count []
    let typeContext ← decodeTypeContext restorer
    return ⟨name, parameters, captured, source, resultType, location, originSpan, capturedTypeArguments, typeContext⟩

/-- A callable may use those that come before it. -/
def decodeCallables : Nat → List (CallableFamily × C) → Decode (List (CallableFamily × C))
  | 0, callables => return callables
  | count + 1, callables => do
    let snapshot ← decodeCallable restorer callables
    let work ← analysisWork
    let (restored, left) := restorer.restoreCallable snapshot work
    setAnalysisWork left
    match restored with
    | .error message => refuse message
    | .ok callable => decodeCallables count (callables ++ [callable])

def callableTable : Decode (List (CallableFamily × C)) := do
  let count ← collectionLen
  reserve count
  decodeCallables restorer count []

/-! ## Whole capsules -/

def decodeEnvironment : Decode Environment := do
  let entries ← collection do
    let name ← native
    let value ← native
    return (name.bytes, value.bytes)
  return ⟨entries.foldl (fun entries entry => entries.insert entry.1 entry.2) ∅⟩

def decodeSessionState : Decode SessionState := do
  let cwd ← native
  let environment ← decodeEnvironment
  let currentStatus ← optional (decodeStatus outermost)
  return ⟨cwd, environment, currentStatus⟩

/-- The header of a capsule, up to the payload that has to fill the rest. -/
def beginWire (magic : List UInt8) : Decode Unit := do
  let decoder ← get
  if decoder.bytes.length > maxCapsuleBytes + 18 then refuse "execution capsule exceeds its byte limit"
  else
    let header ← take (.message "execution capsule is truncated") magic.length
    if header ≠ magic then refuse "execution capsule has an invalid magic header"
    else
      let found ← u16
      if found ≠ version then refuse ("execution capsule version " ++ toString found ++ " is unsupported")
      else
        let payload ← u64
        let rest ← remaining
        if payload.toNat > maxCapsuleBytes ∨ payload.toNat ≠ rest then refuse "execution capsule length is invalid"
        else return

def validate (scopes : List (ScopeStack F C)) (callables : List (CallableFamily × C)) : Decode Unit :=
  checked .message (restorer.validateNominals scopes callables)

/-- Nothing may be left. -/
def finish (trailing : String) : Decode Unit := do
  let rest ← remaining
  if rest ≠ 0 then refuse trailing else return

structure BackgroundCapsule (F C : Type) where
  name : String
  text : String
  cwd : NativePath
  environment : Environment
  currentStatus : Option Status
  scope : ScopeStack F C
  pipefail : Bool
  captureLimit : UInt64

def backgroundCapsule : Decode (BackgroundCapsule F C) := do
  beginWire magic
  let name ← string
  let text ← string
  let cwd ← native
  let environment ← decodeEnvironment
  let currentStatus ← optional (decodeStatus outermost)
  let pipefail ← bool
  let captureLimit ← u64
  let callables ← callableTable restorer
  let scope ← decodeScope restorer.restoreError callables
  validate restorer [scope] callables
  finish "execution capsule has trailing bytes"
  return ⟨name, text, cwd, environment, currentStatus, scope, pipefail, captureLimit⟩

def decodeOutcome : Decode SupervisorOutcome := do
  match ← u8 with
  | 0 => return .continued
  | 1 =>
    let code ← u8
    return .exit (UInt8.ofNat code)
  | _ => refuse "supervisor completion outcome is invalid"

def supervisorCompletion : Decode (SupervisorCompletion F C) := do
  beginWire completionMagic
  let outcome ← decodeOutcome
  let status ← optional (decodeStatus outermost)
  let callables ← callableTable restorer
  let baseScope ← decodeScope restorer.restoreError callables
  let updatedScope ← decodeScope restorer.restoreError callables
  validate restorer [baseScope, updatedScope] callables
  let baseState ← decodeSessionState
  let updatedState ← decodeSessionState
  finish "supervisor completion has trailing bytes"
  return ⟨outcome, status, baseScope, updatedScope, baseState, updatedState⟩

end Callables

/-- A decoder at the start of some bytes. -/
def newDecoder (bytes : List UInt8) : Decoder Nat := ⟨bytes, 0, maxCapsuleItems, 0, 5000000⟩

def decodeBackgroundCapsule (restorer : Restorer F C Program) (bytes : List UInt8) :
    EStateM.Result (Stop DecodeError) (Decoder Nat) (BackgroundCapsule F C) :=
  backgroundCapsule restorer (newDecoder bytes)

def decodeSupervisorCompletion (restorer : Restorer F C Program) (bytes : List UInt8) :
    EStateM.Result (Stop DecodeError) (Decoder Nat) (SupervisorCompletion F C) :=
  supervisorCompletion restorer (newDecoder bytes)

end Opaal.Runtime.Capsule
