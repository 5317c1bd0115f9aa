import Opaal.Operational.Standard
import Opaal.Runtime.Security
import Opaal.Artifact.JournalChain

/-!
# Controlled source operations

The host of one accepted action run.  It stands between the evaluator and everything outside:
an effect is recorded in the run journal, carried out, and recorded again with its outcome.
What the platform, the adapter and the file of the journal answer is an environment, whose
answers are taken in the order in which they are asked for.
-/

namespace Opaal.Operational.Source

open Opaal.Machine
open Opaal.Runtime
open Opaal.Workflow (Event JournalServices SyncedJournal checkedAdd)
open Opaal.Json (Tree)

/-! ## Requests -/

/-- One exact operational authority request: an effect with its scope. -/
inductive CapabilityRequest where
  | filesystemRead (path : NativePath)
  | filesystemWrite (path : NativePath)
  | processRun (tool : String)
  | networkHttp (endpoint method : String)
  | secretReveal (secret endpoint header : String)
  | clockWall
  | clockMonotonic
  | entropySystem
  | stdinRead
  | stdoutWrite
  | stderrWrite
deriving DecidableEq

def invalidRequest (message : String) : ModuleError := .invalid "OPERATION001" message

def requestPath (request : NativePath → CapabilityRequest) (path : NativePath) : Except String CapabilityRequest :=
  if path.bytes = [] then .error "an authority path scope cannot be empty" else .ok (request path)

def nonemptyIdentity (identity : String) : Except String Unit :=
  if identity = "" then .error "an authority identity cannot be empty" else .ok ()

def requestProcess (tool : String) : Except String CapabilityRequest := do
  nonemptyIdentity tool
  return .processRun tool

def requestHttp (endpoint method : String) : Except String CapabilityRequest := do
  nonemptyIdentity endpoint
  if method = "" ∨ !(method.toList.all fun letter => letter.isUpper || letter == '-') then
    .error "an authority HTTP method must be uppercase ASCII"
  else return .networkHttp endpoint method

def requestReveal (secret endpoint header : String) : Except String CapabilityRequest := do
  nonemptyIdentity secret
  nonemptyIdentity endpoint
  if header = "" ∨ !(header.toList.all fun letter => letter.isLower || letter == '-') then
    .error "an authority header name must be lowercase ASCII"
  else return .secretReveal secret endpoint header

/-! ## Events -/

inductive SourceClock where
  | wall
  | monotonic
deriving DecidableEq

inductive SourceProcessArgument where
  | publicValue (value : String)
  | redacted (bytes : Nat) (digest : String)
deriving DecidableEq

inductive SourceOperation where
  | standardStream (operation : String) (effect : CapabilityRequest) (requestedBytes admittedBytes : Nat)
  | entropy (operation : String) (requestedBytes admittedBytes : Nat)
  | filesystem (operation : String) (relativePath : NativePath)
  | process (operation tool : String) (argvCount argvBytes : Nat) (argvDigest : Option String)
      (argv : List SourceProcessArgument)
  | http (operation endpoint method : String)
  | clock (operation : String) (clock : SourceClock)
  | secretReveal (operation endpoint header : String)
deriving DecidableEq

inductive SourceEffectResult where
  | standardStream (progress : HostProgress)
  | entropy (progress : HostProgress)
  | filesystem (bytes : Option Nat) (evidenceDigest : Option String)
  | process (status : Option Int64) (stdoutBytes stderrBytes : Option Nat) (evidenceDigest : Option String)
  | http (status bodyBytes : Option Nat) (evidenceDigest : Option String)
  | clock (evidenceDigest : Option String)
  | secretReveal (evidenceDigest : Option String)
deriving DecidableEq

def SourceOperation.emptyResult : SourceOperation → SourceEffectResult
  | .standardStream .. => .standardStream {}
  | .entropy .. => .entropy {}
  | .filesystem .. => .filesystem none none
  | .process .. => .process none none none none
  | .http .. => .http none none none
  | .clock .. => .clock none
  | .secretReveal .. => .secretReveal none

def SourceEffectResult.evidenceDigest : SourceEffectResult → Option String
  | .entropy _ | .standardStream _ => none
  | .filesystem _ digest | .process _ _ _ digest | .http _ _ digest | .clock digest | .secretReveal digest => digest

structure SourceEffectEvent where
  actionNodeId : String
  request : CapabilityRequest
  operation : SourceOperation
  attempt : Nat
deriving DecidableEq

/-- `outcomeClass` and `isPartial` are `class` and `partial`. -/
structure SourceEffectOutcome where
  outcomeClass : String
  code : String
  message : String
  status : Option Int64 := none
  valueDigest : Option String := none
  result : Option SourceEffectResult := none
  isPartial : Bool
deriving DecidableEq

inductive SourceOperationalEvidence where
  | completed (operation : String) (status : Option Status)
  | incomplete (operation detail : String)

/-! ## The host -/

variable {Id F C α β : Type}

/-- What the host did, in order: the events it gave to the journal with whether they were
accepted, the requests it carried out at the adapter, and the secret it took to be read. -/
inductive Record (Id : Type) where
  | actionStart (actionNodeId : String) (action : Id) (accepted : Bool)
  | actionEnd (actionNodeId : String) (outcome : SourceEffectOutcome) (accepted : Bool)
  | before (event : SourceEffectEvent) (verdict : AuthorityVerdict) (accepted : Bool)
  | after (event : SourceEffectEvent) (outcome : SourceEffectOutcome) (accepted : Bool)
  | used (request : CapabilityRequest)
  | secretTaken (secret : String)

/-- The stack has its top first; `secretHeaders` maps handles to names and secrets, and `random` is
the progress of the standard host when there is one. -/
structure ControlledSourceOperations (Id : Type) where
  journal : SyncedJournal
  actionStack : List (Id × Bool) := []
  processAttempts : Nat
  nextAttempt : Nat
  nextSecretHeader : Nat := 0
  secretHeaders : List (Nat × String × String) := []
  secretInputId : Option String
  secretInput : Bool
  metadataOnly : Bool
  random : Option HostProgress
  evidence : List SourceOperationalEvidence := []
  log : List (Record Id) := []
  clock : Nat := 0

def maxU64 : Nat := 2 ^ 64 - 1

/-- `next_attempt` starts after the probes that the process budget has paid for. -/
def ControlledSourceOperations.new (journal : SyncedJournal) (processAttempts : Nat) (secretInput : Option String)
    (metadataOnly : Bool) (random : Option HostProgress) : ControlledSourceOperations Id :=
  { journal, processAttempts, nextAttempt := min processAttempts maxU64, secretInputId := secretInput,
    secretInput := secretInput.isSome, metadataOnly, random }

structure BoundDockerTarget where
  tool : String
  /-- It is still the target that the manifest declares. -/
  declared : Bool

/-- What does not change during a run: the accepted plan, the manifest, the tool lock, and the
computations on arguments and payloads that see nothing else. -/
structure Setting (Id F C : Type) where
  services : JournalServices
  renderActionStart : String → Id → Tree
  renderActionEnd : String → SourceEffectOutcome → Tree
  renderBefore : SourceEffectEvent → AuthorityVerdict → Tree
  renderAfter : SourceEffectEvent → SourceEffectOutcome → Tree
  actionNodes : Id → Option String
  qualifiedName : Id → String
  root : NativePath
  evidencePath : NativePath
  manifestPath : NativePath
  manifestDigest : String
  secrets : String → Bool
  /-- The names of the headers that may carry a secret, for each endpoint. -/
  endpoints : String → Option (List String)
  executableFiles : String → Bool
  plannedInputs : NativePath → Option String
  dockerTargets : String → Option BoundDockerTarget
  sha256 : List UInt8 → String
  /-- `path::normalize` of a target under the root. -/
  resolved : NativePath → Except ModuleError NativePath
  filesystemDescriptor : String → NativePath → Except ModuleError SourceOperation
  processDescriptor : String → List String → Bool → Except ModuleError SourceOperation
  dockerDescriptor : BoundDockerTarget → Nat → String → Bool → Except ModuleError SourceOperation
  validateOperand : String → Except ModuleError Unit
  httpHeader : String → List UInt8 → Except ModuleError Unit
  /-- The message about names of which one comes twice. -/
  duplicateKey : List String → String
  /-- The request of an operation of `std::random` or `std::io`. -/
  downstream : String → String → Option CapabilityRequest
  /-- The operations of `path`, `version`, `integrity` and `url`, which have no effect. -/
  pureOperation : String → String → List (Value F C) → Option (Except ModuleError (Value F C))

structure ToolResult where
  status : Status
  stdout : List UInt8
  stderr : List UInt8

structure HttpResponse where
  status : Nat
  headers : List (String × List UInt8)
  body : List UInt8

inductive SecretReadError where
  | interrupted
  | timedOut
  | other (text : String)

/-- The answers of everything else, by the time at which they are asked for.  What a module of
operations makes of a request, its own checks and budgets included, is one answer. -/
structure Environment (F C : Type) where
  poll : Nat → Option CancelReason
  verdict : Nat → CapabilityRequest → AuthorityVerdict
  redact : Nat → String → String
  /-- The error of the file of the journal. -/
  written : Nat → Option String
  readFile : Nat → Except ModuleError (List UInt8)
  writeAtomic : Nat → Except ModuleError Unit
  wallNow : Nat → Except ModuleError String
  monotonicNow : Nat → Except ModuleError Nat
  /-- Readings that only bound a deadline. -/
  monotonicNanos : Nat → Except ModuleError Nat
  /-- Whether the attempt was charged, and its result. -/
  runProcess : Nat → Bool × Except ModuleError ToolResult
  recheckTarget : Nat → Except ModuleError Unit
  validateProbe : Nat → List UInt8 → Except ModuleError Unit
  versionFields : Nat → List UInt8 → Except ModuleError (List String)
  imageDocument : Nat → List UInt8 → Except ModuleError (Value F C)
  decodeImage : Nat → Value F C → Except ModuleError (Value F C)
  httpRequest : Nat → Except ModuleError HttpResponse
  readSecret : Nat → Except SecretReadError (List UInt8)
  insertSecret : Nat → Option String
  /-- The steps of the standard host report the progress they leave. -/
  prepareStdio : Nat → Except ModuleError Unit × HostProgress
  admission : Nat → Except ModuleError (Nat × Nat) × HostProgress
  standardCall : Nat → Except ModuleError (Value F C) × HostProgress
  passes : Nat

abbrev Controlled (Id F C : Type) := Action (Environment F C) Stop (ControlledSourceOperations Id)

/-! ## Steps -/

def fail (error : ModuleError) : Controlled Id F C α := throw (.failed error)

def finish : Except ModuleError α → Controlled Id F C α
  | .ok value => pure value
  | .error error => fail error

def ask (answer : Environment F C → Nat → α) : Controlled Id F C α := fun environment host =>
  .ok (answer environment host.clock) { host with clock := host.clock + 1 }

def poll : Controlled Id F C Unit := do
  match ← ask Environment.poll with
  | some reason => fail (.cancelled reason)
  | none => return

def record (entry : Record Id) : Controlled Id F C Unit := modify fun host => { host with log := host.log ++ [entry] }

def pushEvidence (evidence : SourceOperationalEvidence) : Controlled Id F C Unit :=
  modify fun host => { host with evidence := host.evidence ++ [evidence] }

/-- From here on the adapter is reached for the request. -/
def carryOut (request : CapabilityRequest) (answer : Environment F C → Nat → Except ModuleError α) :
    Controlled Id F C α := do
  record (.used request)
  finish (← ask answer)

/-! ## Texts -/

def metadataOnlyMessage : String := "metadata-only outcome"

def maxJournalMessageBytes : Nat := 4 * 1024

/-- The longest beginning of whole characters with so many bytes. -/
def leadingText (room : Nat) : List Char → List Char
  | [] => []
  | letter :: text => if letter.utf8Size ≤ room then letter :: leadingText (room - letter.utf8Size) text else []

def boundedMessage (message : String) : String :=
  if Text.width message.toList ≤ maxJournalMessageBytes then message
  else String.ofList (leadingText maxJournalMessageBytes message.toList) ++ "…"

def verdictText : AuthorityVerdict → String
  | .denied => "Denied"
  | .unknown => "Unknown"
  | .unsupported => "Unsupported"
  | .grantedEnforced => "GrantedEnforced"
  | .grantedUnenforced => "GrantedUnenforced"

def reasonText : CancelReason → String
  | .requested => "Requested"
  | .timeout => "Timeout"

def errorCode : ModuleError → String
  | .invalid code _ => code
  | .authority _ => "OPERATION002"
  | .cancelled _ => "OPERATION003"
  | .adapter _ => "OPERATION004"

def errorText : ModuleError → String
  | .invalid code message => code ++ ": " ++ message
  | .authority verdict => "operational authority is " ++ verdictText verdict
  | .cancelled reason => "operation was cancelled: " ++ reasonText reason
  | .adapter error => error.message

/-! ## The journal -/

section Journal

variable (setting : Setting Id F C)

/-- Gives an event to the journal; a refusal is the text the journal gives. -/
def submit (entry : Bool → Record Id) (event : Event) : Controlled Id F C (Except String Unit) :=
  fun environment host =>
    let (journal, result) := host.journal.append setting.services (environment.written host.clock) event
    let host := { host with journal, clock := host.clock + 1 }
    match result with
    | .ok () => .ok (.ok ()) { host with log := host.log ++ [entry true] }
    | .error (.error code message) =>
      .ok (.error ("opaal: " ++ code ++ ": " ++ message ++ "\n")) { host with log := host.log ++ [entry false] }
    | .error (.panic message) => .error (.panicked message) { host with log := host.log ++ [entry false] }

def journalActionStart (actionNodeId : String) (action : Id) : Controlled Id F C (Except String Unit) :=
  submit setting (.actionStart actionNodeId action) ⟨"action-start", setting.renderActionStart actionNodeId action⟩

def journalActionEnd (actionNodeId : String) (outcome : SourceEffectOutcome) :
    Controlled Id F C (Except String Unit) :=
  submit setting (.actionEnd actionNodeId outcome) ⟨"action-end", setting.renderActionEnd actionNodeId outcome⟩

def journalBefore (event : SourceEffectEvent) (verdict : AuthorityVerdict) :
    Controlled Id F C (Except String Unit) :=
  submit setting (.before event verdict) ⟨"effect-before", setting.renderBefore event verdict⟩

def journalAfter (event : SourceEffectEvent) (outcome : SourceEffectOutcome) :
    Controlled Id F C (Except String Unit) :=
  submit setting (.after event outcome) ⟨"effect-after", setting.renderAfter event outcome⟩

/-! ## Effects -/

/-- The node of the innermost action. -/
def activeNode : Controlled Id F C String := do
  match (← get).actionStack.head?.bind fun (action, _) => setting.actionNodes action with
  | some node => return node
  | none => fail (.invalid "JOURNAL006" "effect occurred outside an action boundary")

/-- The counter goes on before the journal is asked. -/
def takeAttempt : Controlled Id F C Nat := do
  let host ← get
  match checkedAdd host.nextAttempt 1 with
  | none => fail (.invalid "OPERATION005" "effect attempt overflow")
  | some next =>
    set { host with nextAttempt := next }
    return host.nextAttempt

def markAttempted : Controlled Id F C Unit :=
  modify fun host => { host with actionStack := host.actionStack.map fun (action, _) => (action, true) }

def succeeded (event : SourceEffectEvent) (operation : String) (value : α) (status : Option Status)
    (result : SourceEffectResult) : Controlled Id F C α := do
  let host ← get
  let outcome : SourceEffectOutcome :=
    { outcomeClass := "success"
      code := "EFFECT000"
      message := if host.metadataOnly then metadataOnlyMessage else "effect completed"
      status := status.bind Status.code
      valueDigest := result.evidenceDigest
      result := some result
      isPartial := false }
  match ← journalAfter setting event outcome with
  | .error message =>
    pushEvidence (.incomplete operation "effect completed but its journal record failed")
    fail (.invalid "JOURNAL005" message)
  | .ok () =>
    pushEvidence (.completed operation status)
    poll
    return value

/-- What is known of a transfer that failed; any other operation has no result. -/
def failedResult (descriptor : SourceOperation) : Controlled Id F C SourceEffectResult := do
  match descriptor, (← get).random with
  | .standardStream .., some progress => return .standardStream progress
  | .standardStream .., none => throw (.panicked "bound standard host state")
  | .entropy .., some progress => return .entropy progress
  | .entropy .., none => throw (.panicked "bound entropy state")
  | descriptor, _ => return descriptor.emptyResult

def failureClass : ModuleError → String
  | .authority _ => "refused"
  | .invalid code _ => if code = "EXECUTE_STALE" then "refused" else "error"
  | .cancelled _ => "cancelled"
  | .adapter _ => "error"

def failedPartially (result : SourceEffectResult) (error : ModuleError) (charged : Bool) : Bool :=
  match result, error with
  | .entropy progress, _ | .standardStream progress, _ =>
    0 < progress.confirmedBytes || 0 < progress.uncertainBytesUpperBound
  | _, .adapter _ => true
  | _, _ => charged

def failedEffect (event : SourceEffectEvent) (operation : String) (processAttempts : Nat) (error : ModuleError) :
    Controlled Id F C α := do
  let result ← failedResult event.operation
  let redact ← ask Environment.redact
  let host ← get
  let isPartial := failedPartially result error (processAttempts < host.processAttempts)
  let outcome : SourceEffectOutcome :=
    { outcomeClass := failureClass error
      code := errorCode error
      message := if host.metadataOnly then metadataOnlyMessage else boundedMessage (redact (errorText error))
      result := some result
      isPartial }
  let recorded ← journalAfter setting event outcome
  if recorded.isOk then pure ()
  else pushEvidence (.incomplete operation "effect failed and its journal record failed")
  if isPartial then pushEvidence (.incomplete operation outcome.message) else pure ()
  fail error

/-- What an effect yields: its value, its status and what the journal keeps of it. -/
abbrev Effected (α : Type) := α × Option Status × SourceEffectResult

def effect (request : CapabilityRequest) (operation : String) (descriptor : SourceOperation)
    (invoke : Controlled Id F C (Effected α)) : Controlled Id F C α := do
  poll
  let verdict ← ask fun environment clock => environment.verdict clock request
  if !verdict.isExecutable then fail (.authority verdict)
  else
    let actionNodeId ← activeNode setting
    let attempt ← takeAttempt
    let event : SourceEffectEvent := ⟨actionNodeId, request, descriptor, attempt⟩
    match ← journalBefore setting event verdict with
    | .error message => fail (.invalid "JOURNAL005" message)
    | .ok () =>
      markAttempted
      let processAttempts := (← get).processAttempts
      match ← observed invoke with
      | .ok (value, status, result) => succeeded setting event operation value status result
      | .error (.failed error) => failedEffect setting event operation processAttempts error
      | .error stop => throw stop

end Journal

end Opaal.Operational.Source
