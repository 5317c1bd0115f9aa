import Opaal.Operational.Source

/-!
# The calls of the source operational host

The evaluator starts and ends actions and invokes operations of the maintained modules.  An
operation reads its arguments, and whatever it does outside it does within an effect; an HTTP
request that carries a secret reveals it in an effect of its own inside, and an image is
inspected in four process effects.
-/

namespace Opaal.Operational.Source

open Opaal.Machine
open Opaal.Runtime (ModuleId NativePath NominalTypeId Value)
open Opaal.Runtime.Security

variable {Id F C α : Type}

/-! ## Arguments -/

section Arguments

variable (arguments : List (Value F C)) (index : Nat)

def argument : Except ModuleError (Value F C) :=
  match arguments[index]? with
  | some value => .ok value
  | none => .error (.invalid "OPERATION001" "controlled operation has invalid arity")

def typeError (index : Nat) (expected : String) (actual : Value F C) : ModuleError :=
  .invalid "OPERATION001"
    ("controlled argument " ++ toString index ++ " requires " ++ expected ++ ", found " ++ actual.familyName)

def string : Except ModuleError String := do
  match ← argument arguments index with
  | .string value => return value
  | value => .error (typeError index "String" value)

def byteString : Except ModuleError (List UInt8) := do
  match ← argument arguments index with
  | .bytes value => return value
  | value => .error (typeError index "Bytes" value)

def usizeValue : Except ModuleError Nat := do
  match ← argument arguments index with
  | .int value => if value < 0 then .error (.invalid "OPERATION001" "size must be non-negative") else return value.toInt.toNat
  | value => .error (typeError index "Int" value)

def valuePath : Except ModuleError NativePath := do
  match ← argument arguments index with
  | .path value => return value
  | value => .error (typeError 0 "Path" value)

def optionalBytes : Except ModuleError (List UInt8) := do
  match ← argument arguments index with
  | .null => return []
  | .bytes value => return value
  | value => .error (typeError 4 "Null or Bytes" value)

def stringItems (item : Nat) : List (Value F C) → Except ModuleError (List String)
  | [] => return []
  | .string value :: values => do
    let rest ← stringItems (item + 1) values
    return value :: rest
  | value :: _ => .error (typeError item "String" value)

def stringList : Except ModuleError (List String) := do
  match ← argument arguments index with
  | .list values => stringItems 0 values
  | value => .error (typeError index "List[String]" value)

/-- `ModuleId::standard` -/
def standardModule (nameSpace module : String) : ModuleId :=
  ⟨⟨Text.bytes (nameSpace ++ "::" ++ module).toList⟩, .standard nameSpace module⟩

def standardNominal (module name : String) : NominalTypeId := ⟨standardModule "std" module, name⟩

def projectNominal (module name : String) : NominalTypeId := ⟨standardModule "project" module, name⟩

def field (name : String) (fields : List (String × Value F C)) : Option (Value F C) :=
  (fields.find? fun entry => entry.1 = name).map Prod.snd

def nominalRecord (module name : String) (fields : List (String × Value F C)) : Value F C :=
  .nominalRecord (standardNominal module name) [] fields

def projectIdentity (module typeName : String) : Except ModuleError String := do
  match ← argument arguments index with
  | .nominalRecord id typeArguments fields =>
    if id == projectNominal module typeName then
      match field "_id" fields with
      | some (.string value) => return value
      | _ => .error (.invalid "OPERATION001" "invalid declarative project identity carrier")
    else .error (typeError index "declarative project identity" (.nominalRecord id typeArguments fields))
  | value => .error (typeError index "declarative project identity" value)

def secretHeaderHandle : Value F C → Except ModuleError Nat
  | .nominalRecord id typeArguments fields =>
    if id == standardNominal "http" "SecretHeader" then
      match field "_handle" fields with
      | some (.int value) =>
        if value < 0 then .error (.invalid "HTTP014" "invalid secret-header handle") else .ok value.toInt.toNat
      | _ => .error (.invalid "HTTP014" "invalid secret-header handle")
    else .error (typeError 3 "SecretHeader" (.nominalRecord id typeArguments fields))
  | value => .error (typeError 3 "SecretHeader" value)

def headerFields (httpHeader : String → List UInt8 → Except ModuleError Unit) :
    List (String × Value F C) → Except ModuleError Unit
  | [] => return
  | (name, .string value) :: entries => do
    httpHeader name (Text.bytes value.toList)
    headerFields httpHeader entries
  | (name, .bytes value) :: entries => do
    httpHeader name value
    headerFields httpHeader entries
  | (_, value) :: _ => .error (typeError 2 "String or Bytes header" value)

def httpHeaders (httpHeader : String → List UInt8 → Except ModuleError Unit) : Except ModuleError Unit := do
  match ← argument arguments index with
  | .record entries => headerFields httpHeader entries
  | value => .error (typeError 2 "Record" value)

end Arguments

def invalid (code : String) : Except String α → Except ModuleError α
  | .ok value => .ok value
  | .error message => .error (.invalid code message)

/-! ## The secret -/

/-- One read of the input into the room that is left; an interrupted read is made again. -/
def readSecretPass (bytes : List UInt8) : Controlled Id F C (Turn (List UInt8) (List UInt8)) := do
  if bytes.length ≤ maxSecretBytes then
    poll
    match ← ask Environment.readSecret with
    | .ok chunk =>
      let chunk := chunk.take (min (bytes.length + 4096) (maxSecretBytes + 1) - bytes.length)
      if chunk = [] then return .done bytes else return .again (bytes ++ chunk)
    | .error .interrupted => return .again bytes
    | .error .timedOut =>
      poll
      fail (.cancelled .timeout)
    | .error (.other text) =>
      poll
      fail (.invalid "EXECUTE008" text)
  else return .done bytes

/-- The input is taken out of the host before it is read. -/
def materializeSecret (secretId : String) : Controlled Id F C Unit := do
  let host ← get
  if host.secretInputId ≠ some secretId then
    fail (.invalid "EXECUTE008" "secret input identity differs from the requested sink")
  else if !host.secretInput then fail (.invalid "EXECUTE008" "secret input was already consumed")
  else
    set { host with secretInput := false, log := host.log ++ [Record.secretTaken secretId] }
    let passes ← ask fun environment _ => environment.passes
    let bytes ← repeatFrom .unfinished readSecretPass passes []
    poll
    if bytes = [] ∨ maxSecretBytes < bytes.length then
      fail (.invalid "EXECUTE008" "secret stdin must contain 1 through 65536 bytes")
    else
      match ← ask Environment.insertSecret with
      | some message => fail (.invalid "EXECUTE008" message)
      | none => return

section Operations

variable (setting : Setting Id F C)

/-- The digest that goes into the evidence. -/
def evidenceDigest (bytes : List UInt8) : Controlled Id F C (Option String) := do
  return if (← get).metadataOnly then none else some (setting.sha256 bytes)

/-! ## Files and clocks -/

def filesystemRead (arguments : List (Value F C)) : Controlled Id F C (Value F C) := do
  let target ← finish (valuePath arguments 0)
  let _ ← finish (usizeValue arguments 1)
  let request ← finish (invalid "OPERATION001" (requestPath .filesystemRead setting.root))
  let descriptor ← finish (setting.filesystemDescriptor "std::filesystem::read" target)
  effect setting request "std::filesystem::read" descriptor do
    let value ← carryOut request Environment.readFile
    let resolved ← finish (setting.resolved target)
    let metadataOnly := (← get).metadataOnly
    let digest :=
      if metadataOnly && (setting.plannedInputs resolved).isNone then none else some (setting.sha256 value)
    if (setting.plannedInputs resolved).isSome && setting.plannedInputs resolved != digest then
      fail (.invalid "EXECUTE_STALE" "bound input bytes changed before use")
    else
      return (.bytes value, none, .filesystem (some value.length) (if metadataOnly then none else digest))

def writeAtomic (arguments : List (Value F C)) : Controlled Id F C (Value F C) := do
  let target ← finish (valuePath arguments 0)
  let payload ← finish (byteString arguments 1)
  let request ← finish (invalid "OPERATION001" (requestPath .filesystemWrite setting.evidencePath))
  let descriptor ← finish (setting.filesystemDescriptor "std::filesystem::write_atomic" target)
  effect setting request "std::filesystem::write_atomic" descriptor do
    carryOut request Environment.writeAtomic
    let digest ← evidenceDigest setting payload
    return (.null, none, .filesystem (some payload.length) digest)

def wallNow : Controlled Id F C (Value F C) :=
  effect setting .clockWall "std::time::wall_now" (.clock "std::time::wall_now" .wall) do
    let value ← carryOut .clockWall Environment.wallNow
    let digest ← evidenceDigest setting (Text.bytes value.toList)
    return (nominalRecord "time" "Timestamp" [("_value", .string value)], none, .clock digest)

def monotonicNow : Controlled Id F C (Value F C) :=
  effect setting .clockMonotonic "std::time::monotonic_now" (.clock "std::time::monotonic_now" .monotonic) do
    let value ← carryOut .clockMonotonic Environment.monotonicNow
    if value < 2 ^ 63 then return (.int (Int64.ofNat value), none, .clock none)
    else fail (.invalid "TIME002" "monotonic instant exceeds Int")

/-! ## Processes -/

def maxProcessAttempts : Nat := 8

/-- A run that starts is charged, and there are only so many. -/
def runProcess (request : CapabilityRequest) : Controlled Id F C ToolResult := do
  record (.used request)
  let (charged, result) ← ask Environment.runProcess
  let host ← get
  if host.processAttempts = maxProcessAttempts then fail (.invalid "PROCESS001" "process attempts exceed eight")
  else
    set { host with processAttempts := host.processAttempts + if charged then 1 else 0 }
    finish result

def processRun (arguments : List (Value F C)) : Controlled Id F C (Value F C) := do
  let tool ← finish (projectIdentity arguments 0 "tools" "ToolIdentity")
  let argv ← finish (stringList arguments 1)
  let request ← finish (invalid "OPERATION001" (requestProcess tool))
  let descriptor ← finish (setting.processDescriptor tool argv (← get).metadataOnly)
  effect setting request "std::process::run" descriptor do
    if !setting.executableFiles tool then
      fail (.invalid "EXECUTE_STALE" "accepted tool executable identity is absent")
    else
      let result ← runProcess request
      let digest ← evidenceDigest setting (result.stdout ++ result.stderr)
      let value := nominalRecord "process" "ToolResult"
        [("status", .status result.status), ("stdout", .bytes result.stdout), ("stderr", .bytes result.stderr)]
      return (value, some result.status,
        .process result.status.code (some result.stdout.length) (some result.stderr.length) digest)

/-- In nanoseconds. -/
def dockerDuration : Nat := 60000000000

/-- What the stages of an inspection have read so far. -/
structure Inspection (F C : Type) where
  beforeVersion : List String := []
  imageDocument : Option (Value F C) := none

def dockerStage (bound : BoundDockerTarget) (image : String) (stage : Nat) : Controlled Id F C ToolResult := do
  let descriptor ← finish (setting.dockerDescriptor bound stage image (← get).metadataOnly)
  let request ← finish (invalid "OPERATION001" (requestProcess bound.tool))
  effect setting request "std::docker::inspect_image" descriptor do
    finish (← ask Environment.recheckTarget)
    if !setting.executableFiles bound.tool then fail (.invalid "EXECUTE_STALE" "accepted Docker executable is absent")
    else
      let result ← runProcess request
      finish (← ask Environment.recheckTarget)
      let digest ← evidenceDigest setting (result.stdout ++ result.stderr)
      return (result, some result.status,
        .process result.status.code (some result.stdout.length) (some result.stderr.length) digest)

def readStage (inspection : Inspection F C) (stage : Nat) (stdout : List UInt8) :
    Controlled Id F C (Inspection F C) :=
  match stage with
  | 0 => do
    finish (← ask fun environment clock => environment.validateProbe clock stdout)
    return inspection
  | 1 => do
    let beforeVersion ← finish (← ask fun environment clock => environment.versionFields clock stdout)
    return { inspection with beforeVersion }
  | 2 => do
    let document ← finish (← ask fun environment clock => environment.imageDocument clock stdout)
    return { inspection with imageDocument := some document }
  | _ => do
    let version ← finish (← ask fun environment clock => environment.versionFields clock stdout)
    if version ≠ inspection.beforeVersion then
      fail (.invalid "DOCKER003" "Docker server profile changed during acquisition")
    else return inspection

def inspectStages (bound : BoundDockerTarget) (image : String) (started : Nat) :
    List Nat → Inspection F C → Controlled Id F C (Inspection F C)
  | [], inspection => return inspection
  | stage :: stages, inspection => do
    poll
    let now ← finish (← ask Environment.monotonicNanos)
    if now < started then fail (.invalid "DOCKER003" "monotonic time moved backwards")
    else if dockerDuration ≤ now - started then fail (.cancelled .timeout)
    else
      let result ← dockerStage setting bound image stage
      if result.status.code ≠ some 0 then
        fail (.invalid "DOCKER003" "Docker acquisition child returned a failed status")
      else
        let now ← finish (← ask Environment.monotonicNanos)
        if now < started ∨ dockerDuration ≤ now - started then fail (.cancelled .timeout)
        else
          let inspection ← readStage inspection stage result.stdout
          inspectStages bound image started stages inspection

/-- The carrier has to be the one this project's manifest made. -/
def dockerTarget (arguments : List (Value F C)) : Except ModuleError String := do
  match ← argument arguments 0 with
  | .nominalRecord id _ fields =>
    let manifest := match field "_manifest" fields with
      | some (.string digest) => digest = setting.manifestDigest
      | _ => false
    let path := match field "_path" fields with
      | some (.path path) => path.components = setting.manifestPath.components
      | _ => false
    if id == standardNominal "docker" "TargetIdentity" && fields.length = 3 && manifest && path then
      match field "_id" fields with
      | some (.string name) => return name
      | _ => .error (.invalid "DOCKER002" "invalid Docker target carrier")
    else .error (.invalid "DOCKER002" "foreign, stale or forged Docker target carrier")
  | _ => .error (.invalid "DOCKER002" "invalid Docker target carrier")

def inspectImage (arguments : List (Value F C)) : Controlled Id F C (Value F C) := do
  let name ← finish (dockerTarget setting arguments)
  match setting.dockerTargets name with
  | none => fail (.invalid "EXECUTE_STALE" "accepted Docker target is absent")
  | some bound =>
    if !bound.declared then fail (.invalid "EXECUTE_STALE" "Docker target differs from its manifest binding")
    else
      let image ← finish (string arguments 1)
      finish (setting.validateOperand image)
      let started ← finish (← ask Environment.monotonicNanos)
      let inspection ← inspectStages setting bound image started [0, 1, 2, 3] {}
      match inspection.imageDocument with
      | none => throw (.panicked "image stage completed")
      | some document => finish (← ask fun environment clock => environment.decodeImage clock document)

/-! ## HTTP -/

def secretHeader (arguments : List (Value F C)) : Controlled Id F C (Value F C) := do
  let name ← finish (string arguments 0)
  let secret ← finish (projectIdentity arguments 1 "secrets" "SecretIdentity")
  let host ← get
  if !setting.secrets secret then fail (.invalid "HTTP003" "unknown project secret")
  else if host.secretHeaders.any fun header => header.2.2 = secret then
    fail (.invalid "EXECUTE008" "a secret header for this injected secret already exists")
  else if host.secretHeaders.length = maxSecrets then
    fail (.invalid "EXECUTE008" "secret-header handles exceed the secret limit")
  else if maxU64 ≤ host.nextSecretHeader then fail (.invalid "HTTP003" "secret-header identity overflow")
  else
    let handle := host.nextSecretHeader + 1
    set { host with nextSecretHeader := handle, secretHeaders := host.secretHeaders ++ [(handle, name, secret)] }
    return nominalRecord "http" "SecretHeader" [("_handle", .int (Int64.ofNat (min handle (2 ^ 63 - 1))))]

/-- The handle is used up when it is looked at, whatever comes of the request; what is left is
the secret, its header and the request to reveal it. -/
def takeSecretHeader (endpoint : String) (allowed : List String) (value : Value F C) :
    Controlled Id F C (Option (CapabilityRequest × String × String)) := do
  match value with
  | .null => return none
  | value =>
    let handle ← finish (secretHeaderHandle value)
    let host ← get
    match host.secretHeaders.find? fun header => header.1 = handle with
    | none => fail (.invalid "HTTP014" "secret header is missing or was already consumed")
    | some (_, name, secret) =>
      set { host with secretHeaders := host.secretHeaders.filter fun header => header.1 ≠ handle }
      if secret = "" then fail (.invalid "HTTP003" "a secret identity cannot be empty")
      else
        let reveal ← finish (invalid "OPERATION001" (requestReveal secret endpoint name))
        if name ∉ allowed then fail (.invalid "HTTP002" "header is not an allowed secret sink for this endpoint")
        else return some (reveal, name, secret)

def exchange (request : CapabilityRequest) (endpoint : String) :
    Option (CapabilityRequest × String × String) → Controlled Id F C HttpResponse
  | none => carryOut request Environment.httpRequest
  | some (reveal, name, secret) =>
    effect setting reveal "std::http::secret_reveal" (.secretReveal "std::http::secret_reveal" endpoint name) do
      materializeSecret secret
      let response ← carryOut request Environment.httpRequest
      let digest ← evidenceDigest setting response.body
      return (response, none, .secretReveal digest)

def httpRequest (arguments : List (Value F C)) : Controlled Id F C (Value F C) := do
  let endpoint ← finish (projectIdentity arguments 0 "endpoints" "EndpointIdentity")
  let method ← finish (string arguments 1)
  match setting.endpoints endpoint with
  | none => fail (.invalid "HTTP012" "unknown project endpoint")
  | some allowed =>
    finish (httpHeaders arguments 2 setting.httpHeader)
    let value ← finish (argument arguments 3)
    let secret ← takeSecretHeader endpoint allowed value
    let _ ← finish (optionalBytes arguments 4)
    let _ ← finish (usizeValue arguments 5)
    let request ← finish (invalid "OPERATION001" (requestHttp endpoint method))
    effect setting request "std::http::request" (.http "std::http::request" endpoint method) do
      let response ← exchange setting request endpoint secret
      let digest ← evidenceDigest setting response.body
      if (response.headers.map Prod.fst).Nodup then
        let value := nominalRecord "http" "HttpResponse" [("status", .int (Int64.ofNat response.status)),
          ("headers", .record (response.headers.map fun header => (header.1, .bytes header.2))), ("body", .bytes response.body)]
        return (value, none, .http (some response.status) (some response.body.length) digest)
      else fail (.invalid "HTTP015" (setting.duplicateKey (response.headers.map Prod.fst)))

/-! ## The standard host -/

/-- A step of the standard host, with the progress it leaves. -/
def standardStep (answer : Environment F C → Nat → Except ModuleError α × HostProgress) :
    Controlled Id F C α := do
  let (result, progress) ← ask answer
  modify fun host => { host with random := some progress }
  finish result

/-- The part of `standard_operation` after the streams are ready: admission and the effect. -/
def standardTransfer (module operation : String) : Controlled Id F C (Value F C) := do
  let (requestedBytes, admittedBytes) ← standardStep Environment.admission
  let name := "std::" ++ module ++ "::" ++ operation
  match setting.downstream module operation with
  | none => fail (.invalid "OPERATION001" "unknown standard host operation")
  | some request =>
    let descriptor :=
      if module = "io" then .standardStream name request requestedBytes admittedBytes
      else .entropy name requestedBytes admittedBytes
    effect setting request name descriptor do
      record (.used request)
      let value ← standardStep Environment.standardCall
      let progress := (← get).random.getD {}
      return (value, none, if module = "io" then .standardStream progress else .entropy progress)

def standardOperation (module operation : String) : Controlled Id F C (Value F C) := do
  modify fun host => { host with metadataOnly := true }
  if (← get).random.isNone then fail (.authority .unsupported)
  else
    if module = "io" then standardStep Environment.prepareStdio else pure ()
    standardTransfer setting module operation

/-! ## Calls -/

def invokeInner (module operation : String) (arguments : List (Value F C)) :
    Controlled Id F C (Value F C) :=
  match setting.pureOperation module operation arguments with
  | some result => finish result
  | none =>
    match module, operation with
    | "filesystem", "read" => filesystemRead setting arguments
    | "filesystem", "write_atomic" => writeAtomic setting arguments
    | "time", "wall_now" => wallNow setting
    | "time", "monotonic_now" => monotonicNow setting
    | "docker", "inspect_image" => inspectImage setting arguments
    | "process", "run" => processRun setting arguments
    | "http", "secret_header" => secretHeader setting arguments
    | "http", "request" => httpRequest setting arguments
    | _, _ => fail (.invalid "OPERATION001" ("unknown controlled operation \x60std::" ++ module ++ "::" ++ operation ++ "\x60"))

def invoke (module : ModuleId) (operation : String) (arguments : List (Value F C)) :
    Controlled Id F C (Value F C) :=
  match module.origin with
  | .localModule => fail (.invalid "OPERATION001" "operation is not standard")
  | .standard nameSpace module =>
    if nameSpace ≠ "std" then fail (.invalid "OPERATION001" "operation is not in std")
    else if module = "random" ∨ module = "io" then standardOperation setting module operation
    else invokeInner setting module operation arguments

def actionStart (action : Id) : Controlled Id F C Unit := do
  match setting.actionNodes action with
  | none => fail (.invalid "JOURNAL006" "action is absent from the accepted plan")
  | some node =>
    match ← journalActionStart setting node action with
    | .error message => fail (.invalid "JOURNAL005" message)
    | .ok () => modify fun host => { host with actionStack := (action, false) :: host.actionStack }

/-- `unused_secret`: the outermost action is about to end as a success with a secret left over. -/
def leavesSecret (host : ControlledSourceOperations Id) (outcome : SourceEffectOutcome) : Bool :=
  host.actionStack.isEmpty && (host.secretInput || !host.secretHeaders.isEmpty) && outcome.outcomeClass = "success"

/-- The outcome an action is recorded with. -/
def endingOutcome (host : ControlledSourceOperations Id) (attempted : Bool) (redact : String → String)
    (outcome : SourceEffectOutcome) : SourceEffectOutcome :=
  let outcome := if attempted && outcome.outcomeClass ≠ "success" then { outcome with isPartial := true } else outcome
  let outcome := { outcome with message := boundedMessage (redact outcome.message) }
  let outcome : SourceEffectOutcome :=
    if leavesSecret host outcome then
      { outcomeClass := "refused"
        code := "EXECUTE_UNUSED_SECRET"
        message := "the injected secret was not consumed by its declared sink"
        isPartial := attempted }
    else outcome
  if host.metadataOnly then { outcome with message := metadataOnlyMessage, valueDigest := none } else outcome

def actionEnd [DecidableEq Id] (action : Id) (outcome : SourceEffectOutcome) : Controlled Id F C Unit := do
  let host ← get
  match host.actionStack with
  | [] => fail (.invalid "JOURNAL006" "action end has no matching start")
  | (active, attempted) :: actions =>
    set { host with actionStack := actions }
    if active ≠ action then fail (.invalid "JOURNAL006" "action boundaries are not properly nested")
    else
      let redact ← ask Environment.redact
      let host ← get
      let unusedSecret := leavesSecret host outcome
      let ended := endingOutcome host attempted redact outcome
      match setting.actionNodes action with
      | none => fail (.invalid "JOURNAL006" "action is absent from the accepted plan")
      | some node =>
        match ← journalActionEnd setting node ended with
        | .error message =>
          pushEvidence (.incomplete (setting.qualifiedName action) "action outcome journal record failed")
          fail (.invalid "JOURNAL005" message)
        | .ok () =>
          if unusedSecret then
            fail (.invalid "EXECUTE_UNUSED_SECRET" "the injected secret was not consumed by its declared sink")
          else return

end Operations

inductive Call (Id F C : Type) where
  | actionStart (action : Id)
  | actionEnd (action : Id) (outcome : SourceEffectOutcome)
  | invoke (module : ModuleId) (operation : String) (arguments : List (Value F C))

/-- A call; only an invocation has a value. -/
def perform [DecidableEq Id] (setting : Setting Id F C) :
    Call Id F C → Controlled Id F C (Option (Value F C))
  | .actionStart action => do
    actionStart setting action
    return none
  | .actionEnd action outcome => do
    actionEnd setting action outcome
    return none
  | .invoke module operation arguments => do
    let value ← invoke setting module operation arguments
    return some value

end Opaal.Operational.Source
