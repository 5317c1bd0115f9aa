import Opaal.Operational.Standard
import Opaal.Text.Utf8

/-!
# Standard streams

Reads and writes use the same host and the same counter as entropy.  A transfer goes in chunks; what
the host reports of a chunk is settled before anything else is looked at.
-/

namespace Opaal.Operational

open Opaal.Machine
open Opaal.Runtime (ResourceBudget Value)

variable {F C : Type}

inductive IoCall where
  | read (cap : Nat)
  | write (stream : StandardStream) (bytes : List UInt8) (lf : Bool)
deriving DecidableEq

namespace IoCall

/-- The effect of the request of a call. -/
def effect : IoCall → AuthorityEffect
  | read _ => .stdinRead
  | write .stdout _ _ => .stdoutWrite
  | write _ _ _ => .stderrWrite

/-- The payload of a write with its line feed. -/
def payload (bytes : List UInt8) (lf : Bool) : List UInt8 := bytes ++ if lf then ['\n'.toUInt8] else []

def requestedBytes : IoCall → Nat
  | read cap => cap + 1
  | write _ bytes lf => bytes.length + if lf then 1 else 0

/-- What has to fit into one call. -/
def length : IoCall → Nat
  | read cap => cap
  | write _ bytes lf => bytes.length + if lf then 1 else 0

end IoCall

def domain : ModuleError :=
  .invalid "IO001" "standard stream byte count exceeds its call limit or is negative"

def stdioBinding : Operation F C Unit := do
  authorize
  bound "standard host belongs to another evaluation"

/-- Whether a printing operation ends its line. -/
def printsLine (name : String) : Bool := name == "println" || name == "eprintln"

/-- The call that a name and its arguments stand for; anything but a string is displayed. -/
def parseCall (name : String) (arguments : List (Value F C)) (cap : Nat) :
    Operation F C IoCall :=
  match name, arguments with
  | "read_stdin", [.int count] =>
    if count.toInt < 0 then fail domain else return .read count.toInt.toNat
  | "write_stdout", [.bytes bytes] => return .write .stdout bytes false
  | "write_stderr", [.bytes bytes] => return .write .stderr bytes false
  | name, [value] =>
    if name = "print" ∨ name = "println" ∨ name = "eprint" ∨ name = "eprintln" then do
      let stream := if name = "eprint" ∨ name = "eprintln" then StandardStream.stderr else .stdout
      match value with
      | .string text => return .write stream (Text.bytes text.toList) (printsLine name)
      | value => do
        stdioBinding
        let lf := if printsLine name then 1 else 0
        if cap < lf then fail domain
        else do
          let display ← ask Environment.display
          let bytes ← showValue (display value (cap - lf))
          return .write stream bytes (printsLine name)
    else fail (.invalid "OPERATION001" "I/O arguments do not match the declared signature")
  | _, _ => fail (.invalid "OPERATION001" "I/O arguments do not match the declared signature")
where
  /-- The printer works on the budget of the evaluation. -/
  showValue (display : ResourceBudget → Except ModuleError (List UInt8) × ResourceBudget) :
      Operation F C (List UInt8) := fun _ state =>
    match display state.budget with
    | (.ok bytes, budget) => .ok bytes { state with budget }
    | (.error error, budget) => .error (.failed error) { state with budget }

def prepareStdio (name : String) (arguments : List (Value F C)) : Operation F C IoCall := do
  updateProgress fun _ => {}
  let state ← standard
  let cap := state.limits.maxCallBytes
  let result ← outcome do
    poll
    let call ← parseCall name arguments cap
    if cap < call.length then fail domain else return call
  closeIfCancelled closeAfterFailure result
  finish result

def stdioAdmission (call : IoCall) : Operation F C HostProgress := do
  poll
  stdioBinding
  let state ← standard
  let requestedBytes := call.requestedBytes
  if state.limits.maxHostBytes - state.consumedBytes < requestedBytes then fail limit
  else return { requestedBytes, admittedBytes := requestedBytes }

/-! ## Chunks -/

/-- Both directions are charged before the host is asked, also for a retry. -/
def admitChunk (length : Nat) : Operation F C Unit := do
  poll
  charge
  chargeTimes ((length + 4095) / 4096 * 2)

/-- What a report claims: confirmed and uncertain bytes. -/
def reported : Except TransferError Nat → Nat × Nat
  | .ok count => (count, 0)
  | .error error => (error.confirmedBytes, error.uncertainBytesUpperBound)

/-- More than the chunk cannot have been moved. -/
def impossible (admitted : Nat) (report : Except TransferError Nat) : Bool :=
  admitted < (reported report).1 + (reported report).2

def keepTransferCleanup : Except TransferError Nat → Operation F C Unit
  | .ok _ => pure ()
  | .error error => keepCleanupError (error.cleanupError.map fun _ => ⟨.protocol, "standard host cleanup failed"⟩)

/-- An interrupted transfer that moved nothing is tried again. -/
def chunkResult (report : Except TransferError Nat) : Operation F C (Option Nat) :=
  match report with
  | .ok count => return some count
  | .error error =>
    let nothing : Prop := error.confirmedBytes = 0 ∧ error.uncertainBytesUpperBound = 0
    if nothing ∧ (error.error.kind = .io .interrupted ∨ error.error.kind = .io .wouldBlock) then return none
    else if nothing ∧ error.error.kind = .unsupported then fail (.authority .unsupported)
    else if error.error.kind = .io .brokenPipe then fail (.invalid "IO003" "standard output is a broken pipe")
    else adapterError ⟨error.error.kind, "standard stream transfer failed"⟩

/-- The count of a chunk that was moved, or nothing when it is to be tried again. -/
def settleChunk (admitted : Nat) (report : Except TransferError Nat) : Operation F C (Option Nat) := do
  let (confirmed, uncertain) := reported report
  if impossible admitted report then do
    update fun standard => { standard with
      consumedBytes := standard.consumedBytes + admitted
      progress := { standard.progress with uncertainBytesUpperBound := admitted } }
    closeAfterFailure
    fail (.invalid "OPERATION004" "invalid standard stream progress")
  else do
    update fun standard => { standard with
      consumedBytes := standard.consumedBytes + (confirmed + uncertain)
      progress := { standard.progress with
        confirmedBytes := standard.progress.confirmedBytes + confirmed
        uncertainBytesUpperBound := uncertain } }
    keepTransferCleanup report
    poll
    chunkResult report

/-- The end of the input was seen, even if the report then failed. -/
def sawEof : Except TransferError Nat → Bool
  | .ok count => count = 0
  | .error error => error.eof = some true && error.confirmedBytes = 0 && error.uncertainBytesUpperBound = 0

def noteEof (report : Except TransferError Nat) : Operation F C Unit :=
  updateProgress fun progress => if sawEof report then { progress with eof := some true } else progress

/-- One read, into what was read so far. -/
def readChunk (cap : Nat) (output : List UInt8) :
    Operation F C (Turn (List UInt8) (Value F C)) := do
  let length := min (cap + 1 - output.length) maxStreamChunkBytes
  admitChunk length
  expectHost "admitted host"
  let (report, bytes) ← ask Environment.read
  useHost (.read length report)
  noteEof report
  match ← settleChunk length report with
  | none => return .again output
  | some count =>
    if count = 0 then do
      spend (ResourceBudget.chargeCollectionBytes output.length)
      return .done (.bytes output)
    else if cap - output.length < count then fail (.invalid "IO002" "standard input exceeds its byte cap")
    else return .again (output ++ (List.range count).map bytes)

/-- One write of the rest of a segment. -/
def writeChunk (stream : StandardStream) (segment : List UInt8) (offset : Nat) :
    Operation F C (Turn Nat Unit) :=
  if offset < segment.length then do
    let chunk := (segment.drop offset).take maxStreamChunkBytes
    admitChunk chunk.length
    expectHost "admitted host"
    let report ← ask Environment.write
    useHost (.write stream chunk report)
    match ← settleChunk chunk.length report with
    | none => return .again offset
    | some count =>
      if count = 0 then fail (.invalid "IO004" "standard output made no progress") else return .again (offset + count)
  else return .done ()

def writeSegment (stream : StandardStream) (segment : List UInt8) : Operation F C Unit := fun environment =>
  repeatFrom .unfinished (writeChunk stream segment) environment.passes 0 environment

def readAll (cap : Nat) : Operation F C (Value F C) := fun environment =>
  repeatFrom .unfinished (readChunk cap) environment.passes [] environment

/-- What is read may be kept; the budget is charged for what was read in the end. -/
def reserve (cap : Nat) : Operation F C Unit := fun _ state =>
  match ResourceBudget.chargeCollectionBytes cap state.budget with
  | some _ => .ok () state
  | none => .error (.failed limit) state

def transfer : IoCall → Operation F C (Value F C)
  | .read cap => do
    reserve cap
    readAll cap
  | .write stream bytes lf => do
    writeSegment stream bytes
    writeSegment stream (if lf then ['\n'.toUInt8] else [])
    return .null

def invokeStdioWithDeadline (call : IoCall) : Operation F C (Value F C) := do
  updateProgress fun _ => {}
  settleCall call.effect closeAfterFailure do
    let admitted ← stdioAdmission call
    updateProgress fun _ => admitted
    poll
    charge
    transfer call

def invokeStdio (name : String) (arguments : List (Value F C)) :
    Operation F C (Value F C) := do
  let call ← prepareStdio name arguments
  invokeStdioWithDeadline call

end Opaal.Operational
