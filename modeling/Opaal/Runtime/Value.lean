import Opaal.Number.Binary64

/-!
# Runtime values

The value model of the runtime: numbers, text, bytes, paths, collections, nominal
values, statuses and callables, with the equality the language uses.  Runtime
errors and callables are owned by the evaluator; a value only carries them, so
both are parameters here.
-/

namespace Opaal.Runtime

open Opaal.Number (Binary64 fractional saturate)

/-- A finite binary64 value with both zero spellings normalized. -/
structure FiniteFloat where
  word : Binary64
  finite : word.isFinite = true
  normalized : word.isNegativeZero = false
deriving DecidableEq

inductive NonFiniteFloat where
  | rejected
deriving DecidableEq

/-- A double as a runtime float: `-0.0` becomes `0.0`, infinities and NaNs are refused. -/
def FiniteFloat.new (value : Binary64) : Except NonFiniteFloat FiniteFloat :=
  if finite : value.isFinite = true then
    if normalized : value.isNegativeZero = false then
      .ok ⟨value, finite, normalized⟩
    else
      .ok ⟨⟨0⟩, by decide, by decide⟩
  else
    .error .rejected

def FiniteFloat.get (float : FiniteFloat) : Binary64 := float.word

/-- A signed nanosecond count that fits 128 bits. -/
@[ext]
structure Duration where
  nanoseconds : Int
  lower : -2 ^ 127 ≤ nanoseconds
  upper : nanoseconds < 2 ^ 127
deriving DecidableEq

def Duration.zero : Duration := ⟨0, by decide, by decide⟩

/-- An unsigned count of bytes. -/
@[ext]
structure ByteSize where
  bytes : UInt64
deriving DecidableEq

/-- An ascending unit-step range of integers with an inclusive-end flag. -/
structure Range where
  start : Int64
  stop : Int64
  inclusiveEnd : Bool
deriving DecidableEq

/-- A platform-native path: its bytes. -/
@[ext]
structure NativePath where
  bytes : List UInt8
deriving DecidableEq

/-! ## Statuses -/

/-- A platform signal with at least a number or a name. -/
structure Signal where
  number : Option Int64
  name : Option String
  identified : number.isSome ∨ name.isSome
deriving DecidableEq

inductive MissingSignalIdentity where
  | missing
deriving DecidableEq

def Signal.new (number : Option Int64) (name : Option String) : Except MissingSignalIdentity Signal :=
  if identified : number.isSome ∨ name.isSome then .ok ⟨number, name, identified⟩ else .error .missing

/-- How a stage ended: exactly one of the two completion fields of a status is set. -/
inductive Completion where
  | exit (code : Int64)
  | signaled (signal : Signal)
deriving DecidableEq

/-- A completed stage: a status without stages of its own. -/
structure StageStatus where
  completion : Completion
  duration : Duration
  elapsed : 0 ≤ duration.nanoseconds
deriving DecidableEq

/-- A completed stage or aggregate pipeline status.  The stages of an aggregate are
leaves and one of them gave it its completion. -/
structure Status where
  completion : Completion
  stages : List StageStatus
  duration : Duration
  elapsed : 0 ≤ duration.nanoseconds
  selected : stages = [] ∨ ∃ stage ∈ stages, stage.completion = completion
deriving DecidableEq

inductive InvalidStatus where
  | negativeDuration
  | emptyAggregate
  | selectedStageOutOfBounds (selected stages : Nat)
  | nestedAggregate
deriving DecidableEq

namespace Status

def code (status : Status) : Option Int64 :=
  match status.completion with
  | .exit code => some code
  | .signaled _ => none

def signal (status : Status) : Option Signal :=
  match status.completion with
  | .exit _ => none
  | .signaled signal => some signal

/-- A status as one stage of an aggregate; only a leaf is one. -/
def asStage (status : Status) : Option StageStatus :=
  if status.stages = [] then some ⟨status.completion, status.duration, status.elapsed⟩ else none

def ofStage (stage : StageStatus) : Status :=
  ⟨stage.completion, [], stage.duration, stage.elapsed, .inl rfl⟩

def leaf (completion : Completion) (duration : Duration) : Except InvalidStatus Status :=
  if elapsed : 0 ≤ duration.nanoseconds then .ok ⟨completion, [], duration, elapsed, .inl rfl⟩
  else .error .negativeDuration

def exit (code : Int64) (duration : Duration) : Except InvalidStatus Status := leaf (.exit code) duration

def signaled (signal : Signal) (duration : Duration) : Except InvalidStatus Status :=
  leaf (.signaled signal) duration

def aggregate (stages : List Status) (selectedStage : Nat) (duration : Duration) :
    Except InvalidStatus Status :=
  if elapsed : 0 ≤ duration.nanoseconds then
    if stages = [] then .error .emptyAggregate
    else
      match stages[selectedStage]? with
      | none => .error (.selectedStageOutOfBounds selectedStage stages.length)
      | some _ =>
        -- The selected stage is read back from the leaves, where it is known to be one.
        match stages.mapM asStage with
        | none => .error .nestedAggregate
        | some leaves =>
          match found : leaves[selectedStage]? with
          | none => .error (.selectedStageOutOfBounds selectedStage stages.length)
          | some stage => .ok ⟨stage.completion, leaves, duration, elapsed,
              .inr ⟨stage, List.mem_of_getElem? found, rfl⟩⟩
  else .error .negativeDuration

end Status

/-! ## Types -/

/-- Where a module comes from. -/
inductive ModuleOrigin where
  | localModule
  | standard (nameSpace module : String)
deriving DecidableEq

/-- A path split the way paths are compared: whether it is absolute, and its
components without repeated separators and without `.` past the start. -/
def NativePath.components (path : NativePath) : Bool × List (List UInt8) :=
  let absolute := path.bytes.head? == some '/'.toUInt8
  let parts := (path.bytes.splitOn '/'.toUInt8).filter (· ≠ [])
  let current : List UInt8 := ['.'.toUInt8]
  match parts with
  | [] => (absolute, [])
  | first :: rest =>
    let kept := rest.filter (· ≠ current)
    (absolute, if absolute && first == current then kept else first :: kept)

/-- One canonical module identity. -/
structure ModuleId where
  path : NativePath
  origin : ModuleOrigin

instance : BEq ModuleId where
  beq left right := left.path.components == right.path.components && left.origin == right.origin

/-- Singular nominal identity: defining module plus declared name. -/
structure NominalTypeId where
  module : ModuleId
  name : String
deriving BEq

/-- A resolved value type from the closed annotation namespace. -/
inductive ValueType where
  | any
  | null
  | bool
  | int
  | float
  | string
  | bytes
  | path
  | duration
  | byteSize
  | list (element : ValueType)
  | record
  | table
  | range
  | status
  | error
  | function
  | closure
  | typeParameter (name : String)
  | nominal (id : NominalTypeId) (arguments : List ValueType)

mutual

/-- Types are compared constructor by constructor. -/
def ValueType.same : ValueType → ValueType → Bool
  | .any, .any => true
  | .null, .null => true
  | .bool, .bool => true
  | .int, .int => true
  | .float, .float => true
  | .string, .string => true
  | .bytes, .bytes => true
  | .path, .path => true
  | .duration, .duration => true
  | .byteSize, .byteSize => true
  | .list left, .list right => ValueType.same left right
  | .record, .record => true
  | .table, .table => true
  | .range, .range => true
  | .status, .status => true
  | .error, .error => true
  | .function, .function => true
  | .closure, .closure => true
  | .typeParameter left, .typeParameter right => left == right
  | .nominal id arguments, .nominal id' arguments' => id == id' && ValueType.sameAll arguments arguments'
  | _, _ => false

def ValueType.sameAll : List ValueType → List ValueType → Bool
  | [], [] => true
  | left :: lefts, right :: rights => ValueType.same left right && ValueType.sameAll lefts rights
  | _, _ => false

end

instance : BEq ValueType := ⟨ValueType.same⟩

/-! ## Values -/

/-- The two families of callable values. -/
inductive CallableFamily where
  | function
  | closure
deriving DecidableEq

/-- An immutable runtime value.  Callables have runtime identity: `C` stands for
the allocation. -/
inductive Value (F C : Type) where
  | null
  | bool (value : Bool)
  | int (value : Int64)
  | float (value : FiniteFloat)
  | string (value : String)
  | bytes (value : List UInt8)
  | path (value : NativePath)
  | duration (value : Duration)
  | byteSize (value : ByteSize)
  | list (values : List (Value F C))
  | record (entries : List (String × Value F C))
  | nominalRecord (id : NominalTypeId) (typeArguments : List ValueType)
      (fields : List (String × Value F C))
  | variant (id : NominalTypeId) (typeArguments : List ValueType) (variantName : String)
      (payload : List (Value F C))
  | table (columns : List String) (rows : List (List (Value F C)))
  | range (value : Range)
  | status (value : Status)
  | error (failure : F)
  | callable (family : CallableFamily) (callable : C)

variable {F C : Type}

/-- The stable family name used in diagnostics. -/
def Value.familyName : Value F C → String
  | .null => "null"
  | .bool _ => "bool"
  | .int _ => "int"
  | .float _ => "float"
  | .string _ => "string"
  | .bytes _ => "bytes"
  | .path _ => "path"
  | .duration _ => "duration"
  | .byteSize _ => "byte size"
  | .list _ => "list"
  | .record _ => "record"
  | .nominalRecord _ _ _ => "nominal record"
  | .variant _ _ _ _ => "variant"
  | .table _ _ => "table"
  | .range _ => "range"
  | .status _ => "status"
  | .error _ => "error"
  | .callable .function _ => "function"
  | .callable .closure _ => "closure"

/-- Whether a value belongs to a resolved type; a list is checked element by element and
nothing is converted. -/
def ValueType.accepts : ValueType → Value F C → Bool
  | .any, _ => true
  | .null, .null => true
  | .bool, .bool _ => true
  | .int, .int _ => true
  | .float, .float _ => true
  | .string, .string _ => true
  | .bytes, .bytes _ => true
  | .path, .path _ => true
  | .duration, .duration _ => true
  | .byteSize, .byteSize _ => true
  | .list element, .list values => values.all element.accepts
  | .record, .record _ => true
  | .table, .table _ _ => true
  | .range, .range _ => true
  | .status, .status _ => true
  | .error, .error _ => true
  | .function, .callable .function _ => true
  | .closure, .callable .closure _ => true
  | .typeParameter _, _ => true
  | .nominal id arguments, .nominalRecord id' arguments' _ => id == id' && arguments == arguments'
  | .nominal id arguments, .variant id' arguments' _ _ => id == id' && arguments == arguments'
  | _, _ => false

/-- Whether an integer and a float are the same number.  The conversion saturates, but
never onto a 64-bit integer. -/
def intFloatEqual (integer : Int64) (float : FiniteFloat) : Bool :=
  fractional float.get.exact = 0 ∧ saturate 128 float.get.exact = integer.toInt

section Equality

variable [BEq F] [BEq C]

mutual

/-- The equality of the language. -/
def Value.same : Value F C → Value F C → Bool
  | .null, .null => true
  | .bool left, .bool right => left == right
  | .int left, .int right => left == right
  | .float left, .float right => left == right
  | .int integer, .float number => intFloatEqual integer number
  | .float number, .int integer => intFloatEqual integer number
  | .string left, .string right => left == right
  | .bytes left, .bytes right => left == right
  | .path left, .path right => left == right
  | .duration left, .duration right => left == right
  | .byteSize left, .byteSize right => left == right
  | .list left, .list right => Value.sameList left right
  | .record left, .record right => Value.sameEntries left right
  | .nominalRecord id arguments fields, .nominalRecord id' arguments' fields' =>
    id == id' && arguments == arguments' && Value.sameEntries fields fields'
  | .variant id arguments name payload, .variant id' arguments' name' payload' =>
    id == id' && arguments == arguments' && name == name' && Value.sameList payload payload'
  | .table columns rows, .table columns' rows' => columns == columns' && Value.sameRows rows rows'
  | .range left, .range right => left == right
  | .status left, .status right => left == right
  | .error left, .error right => left == right
  | .callable _ left, .callable _ right => left == right
  | _, _ => false

def Value.sameList : List (Value F C) → List (Value F C) → Bool
  | [], [] => true
  | left :: lefts, right :: rights => Value.same left right && Value.sameList lefts rights
  | _, _ => false

def Value.sameEntries : List (String × Value F C) → List (String × Value F C) → Bool
  | [], [] => true
  | (key, left) :: lefts, (key', right) :: rights =>
    key == key' && Value.same left right && Value.sameEntries lefts rights
  | _, _ => false

def Value.sameRows : List (List (Value F C)) → List (List (Value F C)) → Bool
  | [], [] => true
  | left :: lefts, right :: rights => Value.sameList left right && Value.sameRows lefts rights
  | _, _ => false

end

instance : BEq (Value F C) := ⟨Value.same⟩

end Equality

end Opaal.Runtime
