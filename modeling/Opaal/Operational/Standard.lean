import Opaal.Machine.Action
import Opaal.Runtime.Budget
import Opaal.Runtime.Value

/-!
# The standard host

One evaluation owns a host for system entropy and the standard streams, and one counter of the
bytes it moved.  Everything outside of that state is an environment whose answers are taken in the
order in which they are asked for: polls of the cancellation, verdicts of the authority, what the
host reports of a transfer and how a value is displayed.
-/

namespace Opaal.Operational

open Opaal.Machine
open Opaal.Number (Binary64)
open Opaal.Runtime (FiniteFloat ResourceBudget Value)

def maxCallBytes : Nat := 1024 * 1024

def maxHostBytes : Nat := 8 * 1024 * 1024

def maxIntegerCandidates : Nat := 128

/-- In milliseconds. -/
def operationTimeout : Nat := 30000

def maxEntropyFillBytes : Nat := 256

def maxStreamChunkBytes : Nat := 64 * 1024

/-! ## Errors -/

inductive CancelReason where
  | requested
  | timeout
deriving DecidableEq

inductive AuthorityVerdict where
  | denied
  | unknown
  | unsupported
  | grantedEnforced
  | grantedUnenforced
deriving DecidableEq

def AuthorityVerdict.isExecutable : AuthorityVerdict → Bool
  | grantedEnforced | grantedUnenforced => true
  | denied | unknown | unsupported => false

/-- The kinds of I/O errors that are told apart, and the others. -/
inductive IoErrorKind where
  | interrupted
  | wouldBlock
  | brokenPipe
  | other (code : Nat)
deriving DecidableEq

inductive OperationalErrorKind where
  | invalidInput
  | notFound
  | notRegular
  | symlink
  | outsideRoot
  | alreadyExists
  | limitExceeded
  | cancelled
  | timedOut
  | unsupported
  | network
  | tls
  | protocol
  | io (kind : IoErrorKind)
deriving DecidableEq

structure OperationalError where
  kind : OperationalErrorKind
  message : String
deriving DecidableEq

inductive ModuleError where
  | invalid (code message : String)
  | authority (verdict : AuthorityVerdict)
  | cancelled (reason : CancelReason)
  | adapter (error : OperationalError)
deriving DecidableEq

/-- How a call ends other than with a value: with an error, in a panic, or not within the passes that
are watched of its loops. -/
inductive Stop where
  | failed (error : ModuleError)
  | panicked (message : String)
  | unfinished
deriving DecidableEq

/-! ## The host -/

inductive StandardStream where
  | stdin
  | stdout
  | stderr
deriving DecidableEq

inductive FillProgress where
  | notStarted
  | uncertain
  | confirmed
deriving DecidableEq

structure FillError where
  error : OperationalError
  progress : FillProgress
  cleanupError : Option OperationalError
deriving DecidableEq

/-- The counts are whatever the host reports. -/
structure TransferError where
  error : OperationalError
  confirmedBytes : Nat
  uncertainBytesUpperBound : Nat
  eof : Option Bool
  cleanupError : Option OperationalError
deriving DecidableEq

/-- What the host was asked to do and what it reported. -/
inductive HostUse where
  | fill (length : Nat) (report : Except FillError Unit)
  | read (length : Nat) (report : Except TransferError Nat)
  | write (stream : StandardStream) (chunk : List UInt8) (report : Except TransferError Nat)
  | close
deriving DecidableEq

structure StandardLimits where
  maxCallBytes : Nat
  maxHostBytes : Nat
  maxIntegerCandidates : Nat
  operationTimeout : Nat
deriving DecidableEq

structure HostProgress where
  requestedBytes : Nat := 0
  admittedBytes : Nat := 0
  confirmedBytes : Nat := 0
  uncertainBytesUpperBound : Nat := 0
  eof : Option Bool := none
deriving DecidableEq

structure TransferCounts where
  confirmedBytes : Nat := 0
  uncertainBytesUpperBound : Nat := 0
deriving DecidableEq

structure RoleProgress where
  entropy : TransferCounts := {}
  stdin : TransferCounts := {}
  stdout : TransferCounts := {}
  stderr : TransferCounts := {}
deriving DecidableEq

/-- The host is there until it is taken and closed. -/
structure StandardState where
  host : Bool
  limits : StandardLimits
  consumedBytes : Nat := 0
  progress : HostProgress := {}
  roleProgress : RoleProgress := {}
  cleanupError : Option OperationalError := none
deriving DecidableEq

def StandardState.new (host : Bool) (limits : StandardLimits) : Except ModuleError StandardState :=
  if maxCallBytes < limits.maxCallBytes ∨ maxHostBytes < limits.maxHostBytes ∨
      maxIntegerCandidates < limits.maxIntegerCandidates ∨ limits.operationTimeout = 0 ∨
      operationTimeout < limits.operationTimeout then
    .error (.invalid "OPERATION001" "invalid standard host limits")
  else
    .ok { host, limits }

/-- The state of the host and what it was used for. -/
structure World where
  standard : StandardState
  uses : List HostUse := []
deriving DecidableEq

structure Evaluation where
  world : World
  budget : ResourceBudget
  clock : Nat

variable (F C : Type)

/-- The answers of everything else, by the time at which they are asked for.  A fill and a read also
hand over bytes. -/
structure Environment where
  poll : Nat → Option CancelReason
  verdict : Nat → AuthorityVerdict
  available : Nat → Bool
  sameEvaluation : Nat → Bool
  redact : String → String
  fill : Nat → Except FillError Unit × (Nat → UInt8)
  read : Nat → Except TransferError Nat × (Nat → UInt8)
  write : Nat → Except TransferError Nat
  close : Nat → Option OperationalError
  display : Nat → Value F C → Nat → ResourceBudget → Except ModuleError (List UInt8) × ResourceBudget
  passes : Nat

abbrev Operation (α : Type) := Action (Environment F C) Stop Evaluation α

variable {F C} {α : Type}

/-! ## Steps -/

def fail (error : ModuleError) : Operation F C α := throw (.failed error)

/-- `Option::expect` -/
def expect (value : Option α) (message : String) : Operation F C α :=
  match value with
  | some value => pure value
  | none => throw (.panicked message)

/-- An answer of the environment. -/
def ask (answer : Environment F C → Nat → α) : Operation F C α := fun environment state =>
  .ok (answer environment state.clock) { state with clock := state.clock + 1 }

def standard : Operation F C StandardState := fun _ state => .ok state.world.standard state

def update (change : StandardState → StandardState) : Operation F C Unit := fun _ state =>
  .ok () { state with world.standard := change state.world.standard }

def updateProgress (change : HostProgress → HostProgress) : Operation F C Unit :=
  update fun standard => { standard with progress := change standard.progress }

/-- One use of the host. -/
def useHost (use : HostUse) : Operation F C Unit := fun _ state =>
  .ok () { state with world.uses := state.world.uses ++ [use] }

def limit : ModuleError := .invalid "RESOURCE_LIMIT" "evaluation resource budget exhausted"

/-- A charge of the budget; one that is refused leaves it as it was. -/
def spend (charge : ResourceBudget → Option ResourceBudget) : Operation F C Unit := fun _ state =>
  match charge state.budget with
  | some budget => .ok () { state with budget }
  | none => .error (.failed limit) state

def charge : Operation F C Unit := spend ResourceBudget.charge

def chargeTimes : Nat → Operation F C Unit
  | 0 => pure ()
  | count + 1 => do
    charge
    chargeTimes count

/-- `poll(context, deadline)`, and the polls of the context itself -/
def poll : Operation F C Unit := do
  match ← ask Environment.poll with
  | some reason => fail (.cancelled reason)
  | none => pure ()

def authorize : Operation F C Unit := do
  poll
  let verdict ← ask Environment.verdict
  if verdict.isExecutable then pure () else fail (.authority verdict)

def adapterError (error : OperationalError) : Operation F C α := do
  let redact ← ask fun environment _ => environment.redact
  let error : OperationalError := ⟨error.kind, redact error.message⟩
  match error.kind with
  | .cancelled => do
    match ← ask Environment.poll with
    | some reason => fail (.cancelled reason)
    | none => fail (.adapter error)
  | .timedOut => fail (.cancelled .timeout)
  | _ => fail (.adapter error)

/-- The host is there, available, and belongs to this evaluation. -/
def bound (stale : String) : Operation F C Unit := do
  let state ← standard
  let available ← ask Environment.available
  if !(state.host && available) then fail (.authority .unsupported)
  else do
    let same ← ask Environment.sameEvaluation
    if same then pure () else fail (.invalid "EXECUTE_STALE" stale)

/-- `self.host.as_mut().expect(..)` -/
def expectHost (message : String) : Operation F C Unit := do
  let state ← standard
  expect (if state.host then some () else none) message

/-- The outcome of a call that comes to an end. -/
def outcome (program : Operation F C α) : Operation F C (Except ModuleError α) :=
  fun environment state =>
    match program environment state with
    | .ok value after => .ok (.ok value) after
    | .error (.failed error) after => .ok (.error error) after
    | .error stop after => .error stop after

def finish : Except ModuleError α → Operation F C α
  | .ok value => pure value
  | .error error => fail error

/-- A cleanup error is kept unless there is one already. -/
def keepCleanupError (error : Option OperationalError) : Operation F C Unit :=
  update fun standard => { standard with cleanupError := standard.cleanupError.or error }

/-- The host is taken out of the state and closed; `text` is what is kept of an error's message. -/
def closeHost (text : (String → String) → String → String) : Operation F C Unit := do
  let state ← standard
  if state.host then do
    update fun standard => { standard with host := false }
    useHost .close
    let error ← ask Environment.close
    let redact ← ask fun environment _ => environment.redact
    keepCleanupError (error.map fun error => ⟨error.kind, text redact error.message⟩)
  else pure ()

def closeAfterFailure : Operation F C Unit := closeHost fun _ _ => "standard host cleanup failed"

def closeIfCancelled (close : Operation F C Unit) : Except ModuleError α → Operation F C Unit
  | .error (.cancelled _) => close
  | _ => pure ()

/-! ## Roles -/

inductive AuthorityEffect where
  | entropySystem
  | stdinRead
  | stdoutWrite
  | stderrWrite
deriving DecidableEq

def TransferCounts.add (counts : TransferCounts) (progress : HostProgress) : TransferCounts where
  confirmedBytes := counts.confirmedBytes + progress.confirmedBytes
  uncertainBytesUpperBound := counts.uncertainBytesUpperBound + progress.uncertainBytesUpperBound

def RoleProgress.record (roles : RoleProgress) (progress : HostProgress) : AuthorityEffect → RoleProgress
  | .entropySystem => { roles with entropy := roles.entropy.add progress }
  | .stdinRead => { roles with stdin := roles.stdin.add progress }
  | .stdoutWrite => { roles with stdout := roles.stdout.add progress }
  | .stderrWrite => { roles with stderr := roles.stderr.add progress }

/-- What every call ends with: unused reservations are released, what was moved is recorded under its
role, and the host of a cancelled call is closed. -/
def settleCall (effect : AuthorityEffect) (close : Operation F C Unit)
    (call : Operation F C α) : Operation F C α := do
  let result ← outcome call
  updateProgress fun progress => { progress with
    admittedBytes := progress.confirmedBytes + progress.uncertainBytesUpperBound }
  update fun standard => { standard with roleProgress := standard.roleProgress.record standard.progress effect }
  closeIfCancelled close result
  finish result

/-! ## System entropy -/

inductive RandomCall where
  | int (min : Int64) (width : Nat)
  | float
  | bytes (count : Nat)
deriving DecidableEq

def RandomCall.parse (operation : String) (arguments : List (Value F C)) (cap : Nat) :
    Except ModuleError RandomCall :=
  match operation, arguments with
  | "int", [.int min, .int max] =>
    if max ≤ min then .error (.invalid "RANDOM001" "random interval must be nonempty")
    else .ok (.int min (max.toInt - min.toInt).toNat)
  | "float", [] => .ok .float
  | "bytes", [.int count] =>
    if count.toInt < 0 then .error (.invalid "RANDOM001" "random byte count must be nonnegative")
    else if cap < count.toInt.toNat then .error (.invalid "RANDOM001" "random byte count exceeds its call limit")
    else .ok (.bytes count.toInt.toNat)
  | _, _ => .error (.invalid "OPERATION001" "random arguments do not match the declared signature")

def RandomCall.requestedBytes (candidates : Nat) : RandomCall → Nat
  | .int _ width => if width = 1 then 0 else candidates * 8
  | .float => 8
  | .bytes count => count

/-- Integers may be admitted for fewer candidates than they ask for. -/
def RandomCall.admittedBytes (requested remaining : Nat) : RandomCall → Option Nat
  | .int _ width =>
    if 1 < width then some (min requested (remaining / 8 * 8)) else if requested ≤ remaining then some requested else none
  | _ => if requested ≤ remaining then some requested else none

def admission (operation : String) (arguments : List (Value F C)) :
    Operation F C HostProgress := do
  poll
  let state ← standard
  let call ← finish (RandomCall.parse operation arguments state.limits.maxCallBytes)
  authorize
  bound "entropy host belongs to another evaluation"
  let requestedBytes := call.requestedBytes state.limits.maxIntegerCandidates
  let remaining := state.limits.maxHostBytes - state.consumedBytes
  match call.admittedBytes requestedBytes remaining with
  | none => fail limit
  | some admittedBytes =>
    if 0 < requestedBytes ∧ admittedBytes = 0 then fail limit
    else return { requestedBytes, admittedBytes }

/-- What the report of a fill proves. -/
def fillProgress : Except FillError Unit → FillProgress
  | .ok () => .confirmed
  | .error error => error.progress

/-- The bytes are charged before the fill and settled by what it proves. -/
def settleFill (length : Nat) (progress : FillProgress) (standard : StandardState) : StandardState :=
  match progress with
  | .notStarted =>
    { standard with
      consumedBytes := standard.consumedBytes - length
      progress := { standard.progress with
        uncertainBytesUpperBound := 0
        admittedBytes := if standard.progress.confirmedBytes = 0 then 0 else standard.progress.admittedBytes } }
  | .confirmed =>
    { standard with progress := { standard.progress with
      confirmedBytes := standard.progress.confirmedBytes + length
      uncertainBytesUpperBound := 0 } }
  | .uncertain => standard

/-- The cleanup error of a fill is kept beside its result. -/
def keepFillCleanup : Except FillError Unit → Operation F C Unit
  | .ok () => pure ()
  | .error error => do
    let redact ← ask fun environment _ => environment.redact
    keepCleanupError (error.cleanupError.map fun error => ⟨error.kind, redact error.message⟩)

def fill (length : Nat) : Operation F C (List UInt8) := do
  poll
  let state ← standard
  if state.progress.admittedBytes - state.progress.confirmedBytes < length then fail limit
  else do
    charge
    charge
    charge
    update fun standard => { standard with
      consumedBytes := standard.consumedBytes + length
      progress := { standard.progress with uncertainBytesUpperBound := length } }
    expectHost "host admitted before draw"
    let (report, bytes) ← ask Environment.fill
    useHost (.fill length report)
    update (settleFill length (fillProgress report))
    keepFillCleanup report
    poll
    match report with
    | .ok () => return (List.range length).map bytes
    | .error error =>
      if error.progress = .notStarted ∧ error.error.kind = .unsupported then fail (.authority .unsupported)
      else adapterError error.error

/-- `u64::from_be_bytes` -/
def bigEndian (bytes : List UInt8) : Nat := bytes.foldl (fun value byte => value * 256 + byte.toNat) 0

/-- `i64::try_from` -/
def tryInt64 (value : Int) : Option Int64 :=
  if -2 ^ 63 ≤ value ∧ value < 2 ^ 63 then some (Int64.ofInt value) else none

/-- Candidates below the threshold would favour some results and are dropped. -/
def drawInteger (min : Int64) (width : Nat) : Nat → Operation F C (Value F C)
  | 0 => fail limit
  | candidates + 1 => do
    poll
    charge
    let word ← fill 8
    if 2 ^ 64 % width ≤ bigEndian word then do
      let value ← expect (tryInt64 (min.toInt + (bigEndian word % width : Nat))) "sample remains inside its i64 interval"
      return .int value
    else drawInteger min width candidates

/-- The double `fraction / 2 ^ 53`. -/
def unitFloat (fraction : Nat) : Binary64 :=
  if fraction = 0 then ⟨0⟩
  else Binary64.ofFields false (970 + fraction.log2) (fraction * 2 ^ (52 - fraction.log2) - 2 ^ 52)

def drawFloat : Operation F C (Value F C) := do
  let word ← fill 8
  let value ← expect (FiniteFloat.new (unitFloat (bigEndian word / 2 ^ 11))).toOption "53-bit fraction is finite"
  return .float value

/-- The lengths of the chunks of a buffer. -/
def chunkLengths (length size : Nat) : List Nat :=
  List.replicate (length / size) size ++ if length % size = 0 then [] else [length % size]

def drawChunks : List Nat → Operation F C (List UInt8)
  | [] => return []
  | length :: lengths => do
    let chunk ← fill length
    let rest ← drawChunks lengths
    return chunk ++ rest

/-- Bytes are kept by the evaluation. -/
def retain : RandomCall → Operation F C Unit
  | .bytes count => spend (ResourceBudget.chargeCollectionBytes count)
  | _ => pure ()

def draw (call : RandomCall) (candidates : Nat) : Operation F C (Value F C) :=
  match call with
  | .int min width => if width = 1 then return .int min else drawInteger min width candidates
  | .float => drawFloat
  | .bytes count => do
    let bytes ← drawChunks (chunkLengths count maxEntropyFillBytes)
    return .bytes bytes

def invokeCall (operation : String) (arguments : List (Value F C)) :
    Operation F C (Value F C) := do
  updateProgress fun _ => {}
  let admitted ← admission operation arguments
  updateProgress fun _ => admitted
  let state ← standard
  let call ← finish (RandomCall.parse operation arguments state.limits.maxCallBytes)
  poll
  charge
  retain call
  draw call state.limits.maxIntegerCandidates

def invokeWithDeadline (operation : String) (arguments : List (Value F C)) :
    Operation F C (Value F C) :=
  settleCall .entropySystem (closeHost fun redact message => redact message) (invokeCall operation arguments)

end Opaal.Operational
