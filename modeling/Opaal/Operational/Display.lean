import Opaal.Operational.Stdio
import Opaal.Runtime.Display

/-!
# The bounded printer

A value is displayed into one buffer before anything of it is transferred.  The buffer has a cap, and
every node, every block of input and every block of output is charged, so texts, byte strings and
paths are written in blocks.
-/

namespace Opaal.Operational

open Opaal.Machine
open Opaal.Runtime
open Opaal.Text (bytes width)

/-- The buffer, what it was charged for, and the time at which the next answer is asked for. -/
structure Display where
  output : List UInt8
  capacity : Nat
  inputBytes : Nat
  budget : ResourceBudget
  clock : Nat

/-- What does not change while a value is displayed: the cap, the polls of the cancellation, and
whether memory for so many more bytes is there. -/
structure Surroundings where
  cap : Nat
  poll : Nat → Option CancelReason
  reserve : Nat → Nat → Bool

abbrev Printer := Action Surroundings Stop Display Unit

namespace Display

def block : Nat := 4096

def maxDepth : Nat := 128

def unsupported : ModuleError := .invalid "IO005" "value is not supported for standard printing"

/-! ## Charges -/

def when (test : Bool) (program : Printer) : Printer := if test then program else pure ()

/-- `self.checked(Err(error))` -/
def refuse (error : ModuleError) : Printer := throw (.failed error)

def current : Action Surroundings Stop Display Display := fun _ display => .ok display display

def surroundings : Action Surroundings Stop Display Surroundings := fun context display => .ok context display

def poll : Printer := fun context display =>
  let after := { display with clock := display.clock + 1 }
  match context.poll display.clock with
  | some reason => .error (.failed (.cancelled reason)) after
  | none => .ok () after

def spend (charge : ResourceBudget → Option ResourceBudget) : Printer := fun _ display =>
  match charge display.budget with
  | some budget => .ok () { display with budget }
  | none => .error (.failed limit) display

def step : Printer := do
  poll
  spend ResourceBudget.charge

def node (depth : Nat) : Printer := do
  step
  if maxDepth < depth then refuse limit else pure ()

def steps : Nat → Printer
  | 0 => pure ()
  | count + 1 => do
    step
    steps count

/-- `usize::div_ceil` -/
def divCeil (amount size : Nat) : Nat := (amount + size - 1) / size

def consume (length : Nat) : Printer := fun _ display => .ok () { display with inputBytes := display.inputBytes + length }

def input (length : Nat) : Printer :=
  if 0 < length then do
    let display ← current
    -- A poll for every slice of the source, also inside a block that was charged before.
    poll
    steps (divCeil (display.inputBytes + length) block - divCeil display.inputBytes block)
    consume length
  else pure ()

/-! ## Output -/

def startBlock : Printer := do
  let display ← current
  if display.output.length % block = 0 then step else pure ()

/-- `try_reserve_exact` -/
def reserve (additional : Nat) : Printer := fun context display =>
  let after := { display with clock := display.clock + 1 }
  if context.reserve display.clock additional then .ok () after else .error (.failed limit) after

def setCapacity (capacity : Nat) : Printer := fun _ display => .ok () { display with capacity }

def grow (capacity : Nat) : Printer := do
  let display ← current
  spend (ResourceBudget.chargeCollectionBytes (capacity - display.capacity))
  reserve (capacity - display.output.length)
  setCapacity capacity

/-- Room for an output of `next` bytes. -/
def makeRoom (next : Nat) : Printer := do
  let context ← surroundings
  let display ← current
  if context.cap < next then refuse domain
  else if display.capacity < next then grow (min context.cap (display.capacity + block))
  else pure ()

def extend (chunk : List UInt8) : Printer := fun _ display => .ok () { display with output := display.output ++ chunk }

/-- Every pass writes up to the end of a block. -/
def writeFrom : Nat → List UInt8 → Printer
  | 0, _ => pure ()
  | passes + 1, encoded =>
    match encoded with
    | [] => pure ()
    | _ :: _ => do
      startBlock
      let display ← current
      let count := min encoded.length (block - display.output.length % block)
      makeRoom (display.output.length + count)
      extend (encoded.take count)
      writeFrom passes (encoded.drop count)

def writeStr (text : List Char) : Printer := writeFrom (bytes text).length (bytes text)

/-- The pieces that a formatter writes. -/
def write : List (List Char) → Printer
  | [] => pure ()
  | piece :: pieces => do
    writeStr piece
    write pieces

/-! ## Texts in blocks -/

/-- How many scalars of a text so many bytes hold; a block ends in front of a scalar. -/
def textBlock : Nat → List Char → Nat
  | _, [] => 0
  | room, c :: text => if c.utf8Size ≤ room then textBlock (room - c.utf8Size) text + 1 else 0

def writeChunk (quotedContent : Bool) (chunk : List Char) : Printer :=
  if quotedContent then write (writeStringContent chunk) else writeStr chunk

def textFrom (quotedContent : Bool) : Nat → List Char → Printer
  | 0, _ => pure ()
  | passes + 1, text =>
    match text with
    | [] => pure ()
    | _ :: _ => do
      let chunk := text.take (textBlock block text)
      input (width chunk)
      writeChunk quotedContent chunk
      textFrom quotedContent passes (text.drop (textBlock block text))

def text (text : List Char) (quotedContent : Bool) : Printer := textFrom quotedContent text.length text

def quoted (name : List Char) : Printer := do
  writeStr ['"']
  text name true
  writeStr ['"']

def bytesFrom : Nat → List UInt8 → Printer
  | 0, _ => pure ()
  | passes + 1, encoded =>
    match encoded with
    | [] => pure ()
    | _ :: _ => do
      input (encoded.take block).length
      write (writeBytes (encoded.take block))
      bytesFrom passes (encoded.drop block)

/-- A byte that may stand inside an encoding. -/
def continues (byte : UInt8) : Bool := 0x80 ≤ byte.toNat && byte.toNat ≤ 0xbf

/-- The end of a block, stepped back while it is in front of a byte that may stand inside an encoding. -/
def stepBack (encoded : List UInt8) : Nat → Nat → Nat
  | 0, stop => stop
  | steps + 1, stop => if encoded[stop]?.any continues then stepBack encoded steps (stop - 1) else stop

/-- The length of the next block of a path. -/
def pathBlock (encoded : List UInt8) : Nat :=
  let stop := min encoded.length block
  if stop < encoded.length then stepBack encoded 3 stop else stop

def pathFrom : Nat → List UInt8 → Printer
  | 0, _ => pure ()
  | passes + 1, encoded =>
    match encoded with
    | [] => pure ()
    | _ :: _ => do
      input (pathBlock encoded)
      write (writeUtf8WithInvalidBytes (encoded.take (pathBlock encoded)))
      pathFrom passes (encoded.drop (pathBlock encoded))

/-! ## Types -/

mutual

def valueType (depth : Nat) (type : ValueType) : Printer := do
  node depth
  match type with
  | .list element => do
    writeStr "List[".toList
    valueType (depth + 1) element
    writeStr [']']
  | .nominal id arguments => do
    text id.name.toList false
    when (!arguments.isEmpty) do
      writeStr ['[']
      typesFrom 0 (depth + 1) arguments
      writeStr [']']
  | .typeParameter name => text name.toList false
  | other => writeStr other.display

/-- Type arguments from an index on. -/
def typesFrom (index depth : Nat) : List ValueType → Printer
  | [] => pure ()
  | argument :: arguments => do
    write (separator index ", ")
    valueType depth argument
    typesFrom (index + 1) depth arguments

end

def types (arguments : List ValueType) (depth : Nat) : Printer :=
  when (!arguments.isEmpty) do
    writeStr ['[']
    typesFrom 0 depth arguments
    writeStr [']']

/-! ## Statuses -/

def debugName : Option String → Printer
  | some name => quoted name.toList
  | none => writeStr "null".toList

def debugCompletion : Completion → Printer
  | .exit code => do
    write (writeOptional code)
    writeStr ", signal: ".toList
    writeStr "null".toList
  | .signaled signal => do
    write (writeOptional none)
    writeStr ", signal: ".toList
    step
    writeStr "signal(number: ".toList
    write (writeOptional signal.number)
    writeStr ", name: ".toList
    debugName signal.name
    writeStr [')']

/-- Everything of a status around its stages. -/
def debugStatus (completion : Completion) (stages : Printer) (duration : Duration) : Printer := do
  writeStr "status(code: ".toList
  debugCompletion completion
  writeStr ", stages: [".toList
  stages
  write (["], duration: ".toList] ++ writeInteger duration.nanoseconds ++ ["ns)".toList])

/-- Stages from an index on; they have no stages of their own. -/
def stagesFrom (index depth : Nat) : List StageStatus → Printer
  | [] => pure ()
  | stage :: stages => do
    write (separator index ", ")
    node (depth + 1)
    debugStatus stage.completion (pure ()) stage.duration
    stagesFrom (index + 1) depth stages

def inputs : List Nat → Printer
  | [] => pure ()
  | length :: lengths => do
    input length
    inputs lengths

def nameMetadata : Option String → Printer
  | some name => inputs (chunkLengths (width name.toList) block)
  | none => pure ()

/-- The charges for a signal. -/
def completionMetadata : Completion → Printer
  | .exit _ => pure ()
  | .signaled signal => do
    step
    nameMetadata signal.name

def stagesMetadata (depth : Nat) : List StageStatus → Printer
  | [] => pure ()
  | stage :: stages => do
    node (depth + 1)
    completionMetadata stage.completion
    stagesMetadata depth stages

def displayCompletion : Completion → Printer
  | .exit code =>
    if code = 0 then writeStr "success".toList else write (["exit ".toList] ++ writeInteger code.toInt)
  | .signaled signal => do
    writeStr "signal ".toList
    match signal.name, signal.number with
    | some name, some number => do
      text name.toList false
      write ([" (".toList] ++ writeInteger number.toInt ++ [")".toList])
    | some name, none => text name.toList false
    | none, some number => write (writeInteger number.toInt)
    | none, none => throw (.panicked "signal identity")

def status (value : Status) (debug : Bool) (depth : Nat) : Printer :=
  if debug then debugStatus value.completion (stagesFrom 0 depth value.stages) value.duration
  else do
    -- The display form leaves out the stages, which are charged all the same.
    completionMetadata value.completion
    stagesMetadata depth value.stages
    displayCompletion value.completion

/-! ## Values -/

def columnsFrom (index : Nat) : List String → Printer
  | [] => pure ()
  | column :: columns => do
    write (separator index ", ")
    quoted column.toList
    columnsFrom (index + 1) columns

section Values

variable {F C : Type} (formats : Formats F C)

/-- What stands around bytes or a path in the debug form. -/
def around (debug : Bool) (front : String) (body : Printer) : Printer := do
  when debug (writeStr front.toList)
  body
  when debug (writeStr ['"'])

mutual

def value (debug : Bool) (depth : Nat) (content : Value F C) : Printer := do
  node depth
  match content with
  | .error _ => refuse unsupported
  | .callable _ _ => refuse unsupported
  | .string content => if debug then quoted content.toList else text content.toList false
  | .bytes content => around debug "bytes\"" (bytesFrom content.length content)
  | .path path => around debug "path\"" (pathFrom path.bytes.length path.bytes)
  | .list values => do
    writeStr ['[']
    valuesFrom 0 (depth + 1) values
    writeStr [']']
  | .record entries => do
    writeStr ['\x7b']
    entriesFrom 0 (depth + 1) entries
    writeStr ['\x7d']
  | .nominalRecord id typeArguments fields =>
    if isOpaqueOperationalNominal id then refuse unsupported
    else do
      text id.name.toList false
      types typeArguments (depth + 1)
      writeStr [' ', '\x7b']
      fieldsFrom 0 (depth + 1) fields
      when (!fields.isEmpty) (writeStr [' '])
      writeStr ['\x7d']
  | .variant id typeArguments variantName payload => do
    text id.name.toList false
    types typeArguments (depth + 1)
    writeStr "::".toList
    text variantName.toList false
    when (!payload.isEmpty) do
      writeStr ['(']
      valuesFrom 0 (depth + 1) payload
      writeStr [')']
  | .table columns rows => do
    writeStr "table(columns: [".toList
    columnsFrom 0 columns
    writeStr "], rows: [".toList
    rowsFrom 0 (depth + 1) rows
    writeStr "])".toList
  | .status content => status content debug depth
  | .null => write (Scalar.write formats debug .null)
  | .bool content => write (Scalar.write formats debug (.bool content))
  | .int content => write (Scalar.write formats debug (.int content))
  | .float content => write (Scalar.write formats debug (.float content))
  | .duration content => write (Scalar.write formats debug (.duration content))
  | .byteSize content => write (Scalar.write formats debug (.byteSize content))
  | .range content => write (Scalar.write formats debug (.range content))

/-- `values`, from an index on -/
def valuesFrom (index depth : Nat) : List (Value F C) → Printer
  | [] => pure ()
  | content :: contents => do
    write (separator index ", ")
    value true depth content
    valuesFrom (index + 1) depth contents

def entriesFrom (index depth : Nat) : List (String × Value F C) → Printer
  | [] => pure ()
  | (key, content) :: entries => do
    write (separator index ", ")
    quoted key.toList
    writeStr ": ".toList
    value true depth content
    entriesFrom (index + 1) depth entries

def fieldsFrom (index depth : Nat) : List (String × Value F C) → Printer
  | [] => pure ()
  | (name, content) :: fields => do
    write (separator index ",")
    writeStr [' ']
    text name.toList false
    writeStr ": ".toList
    value true depth content
    fieldsFrom (index + 1) depth fields

def rowsFrom (index depth : Nat) : List (List (Value F C)) → Printer
  | [] => pure ()
  | row :: rows => do
    step
    write (separator index ", ")
    writeStr ['[']
    valuesFrom 0 depth row
    writeStr [']']
    rowsFrom (index + 1) depth rows

end

/-- The display form of a value, or why there is none, and what is left of the budget. -/
def prepare (content : Value F C) (context : Surroundings) (budget : ResourceBudget) (clock : Nat) :
    EStateM.Result Stop Display (List UInt8) :=
  let program : Action Surroundings Stop Display (List UInt8) := do
    value formats false 1 content
    let display ← current
    return display.output
  program context ⟨[], 0, 0, budget, clock⟩

end Values

end Display

end Opaal.Operational
