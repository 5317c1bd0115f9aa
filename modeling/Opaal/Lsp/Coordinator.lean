import Opaal.Json.Tree
import Opaal.Lsp.Workspace

/-!
# The coordinator of the language server

One coordinator answers the client and hands jobs to one worker.  A job carries a snapshot
of the workspace and shares two flags with the coordinator: one says that the client
cancelled it, the other that a newer generation of the workspace has come.  The flags of a
job are kept under its serial number, which is never used twice.
-/

namespace Opaal.Lsp

open Opaal.Json (Tree Members)

/-! ## Messages -/

/-- A message to the client, with the job it answers; the latter is not sent. -/
structure Reply where
  job : Option Nat
  message : Tree

def integer (value : Int) (lower : -2 ^ 63 ≤ value) (upper : value < 2 ^ 64) : Tree :=
  .number (.integer ⟨value, lower, upper⟩)

inductive RequestError where
  | requestCancelled
  | contentModified
  | analysisLimitExceeded
  | invalidParams
deriving DecidableEq

inductive ErrorCode where
  | parseError
  | invalidRequest
  | methodNotFound
  | invalidParams
  | serverNotInitialized
  | requestCancelled
  | contentModified
  | analysisLimitExceeded
deriving DecidableEq

def ErrorCode.document : ErrorCode → Tree
  | .parseError => integer (-32700) (by decide) (by decide)
  | .invalidRequest => integer (-32600) (by decide) (by decide)
  | .methodNotFound => integer (-32601) (by decide) (by decide)
  | .invalidParams => integer (-32602) (by decide) (by decide)
  | .serverNotInitialized => integer (-32002) (by decide) (by decide)
  | .requestCancelled => integer (-32800) (by decide) (by decide)
  | .contentModified => integer (-32801) (by decide) (by decide)
  | .analysisLimitExceeded => integer (-32803) (by decide) (by decide)

namespace RequestError

def code : RequestError → ErrorCode
  | .requestCancelled => .requestCancelled
  | .contentModified => .contentModified
  | .analysisLimitExceeded => .analysisLimitExceeded
  | .invalidParams => .invalidParams

def message : RequestError → String
  | .requestCancelled => "Request cancelled"
  | .contentModified => "Content modified"
  | .analysisLimitExceeded => "Analysis limit exceeded"
  | .invalidParams => "Invalid params"

end RequestError

def successResponse (id result : Tree) : Tree :=
  .object [("id", id), ("jsonrpc", .string "2.0"), ("result", result)]

def errorResponse (id : Tree) (code : ErrorCode) (message : String) : Tree :=
  .object [("error", .object [("code", code.document), ("message", .string message)]), ("id", id),
    ("jsonrpc", .string "2.0")]

def requestFailureResponse (id : Tree) (error : RequestError) : Tree :=
  errorResponse id error.code error.message

inductive ExitStatus where
  | success
  | failure
deriving DecidableEq

structure Action where
  output : List Reply
  exit : Option ExitStatus

namespace Action

def none : Action := ⟨[], .none⟩

def response (message : Tree) : Action := ⟨[⟨.none, message⟩], .none⟩

def exitWith (status : ExitStatus) : Action := ⟨[], some status⟩

end Action

def requestError (id : Option Tree) (code : ErrorCode) (message : String) : Action :=
  match id with
  | none => .none
  | some id => .response (errorResponse id code message)

def invalidMessage (id : Option Tree) : Action :=
  .response (errorResponse (id.getD .null) .invalidRequest "Invalid Request")

def notificationOnly (id : Option Tree) : Action :=
  if id.isSome then requestError id .invalidRequest "Invalid Request" else .none

def validId (id : Tree) : Bool := id.isNull || id.isString || id.isNumber

/-! ## Jobs -/

inductive PositionEncoding where
  | utf8
  | utf16
deriving DecidableEq

/-- The flags a job shares with the coordinator. -/
structure RequestControl where
  cancelled : Bool
  invalidated : Bool
deriving DecidableEq

def RequestControl.new : RequestControl := ⟨false, false⟩

def RequestControl.isCancelled (control : RequestControl) : Bool := control.cancelled || control.invalidated

inductive JobKind where
  | diagnostics
  | request (id : Tree) (method : String) (params : Tree)

structure Job where
  serial : Nat
  kind : JobKind
  snapshot : WorkspaceSnapshot
  encoding : PositionEncoding

def Job.isDiagnostics (job : Job) : Bool :=
  match job.kind with
  | .diagnostics => true
  | .request _ _ _ => false

/-- What the worker makes of a job.  A diagnostics job that was stopped has no analysis. -/
inductive WorkerResult where
  | diagnostics (serial : Nat) (result : Except String (Option DiagnosticAnalysis))
  | request (serial : Nat) (id : Tree) (generation : Nat) (outcome : Except RequestError Tree)

def WorkerResult.serial : WorkerResult → Nat
  | .diagnostics serial _ => serial
  | .request serial _ _ _ => serial

inductive Lifecycle where
  | waitingForInitialize
  | running
  | shutdownRequested
deriving DecidableEq

structure TrackedControl where
  serial : Nat
  requestId : Option Tree
deriving DecidableEq

structure Coordinator where
  lifecycle : Lifecycle
  workspace : Workspace
  encoding : PositionEncoding
  relatedInformation : Bool
  pending : List Job
  controls : List TrackedControl
  workerBusy : Bool
  nextSerial : Nat
  /-- The flags of each job, by its serial number. -/
  flags : Nat → RequestControl

/-- What the file system and the URI syntax say while a message is handled. -/
structure Host where
  parseUri : String → Option DocumentUri
  identity : DocumentUri → Identity
  selectProject : DocumentUri → Bool

def supportedRequest (method : String) : Bool :=
  method ∈ ["textDocument/completion", "textDocument/hover", "textDocument/signatureHelp", "textDocument/definition",
    "textDocument/references", "textDocument/formatting"]

/-- A 64-bit number as one of 32 bits, when it is one. -/
def tryInt32 (value : Int) : Option Int32 :=
  if -2 ^ 31 ≤ value ∧ value < 2 ^ 31 then some (Int32.ofInt value) else none

/-- The member of an object, when the document is one. -/
def member (document : Tree) (key : String) : Option Tree := document.asObject.bind fun members => members.get? key

/-! ## Client capabilities -/

def offeredUtf8 (params : Members) : Bool :=
  ((((params.get? "capabilities").bind fun capabilities => member capabilities "general").bind fun general =>
    member general "positionEncodings").bind Tree.asArray).any fun encodings =>
      encodings.any fun encoding => encoding = .string "utf-8"

def supportsRelatedInformation (params : Members) : Bool :=
  (((((params.get? "capabilities").bind fun capabilities => member capabilities "textDocument").bind fun document =>
    member document "publishDiagnostics").bind fun diagnostics =>
      member diagnostics "relatedInformation").bind Tree.asBool).getD false

def projectManifestUri (host : Host) (params : Members) : Except Unit (Option DocumentUri) :=
  match ((params.get? "initializationOptions").bind fun options => member options "opaal").bind fun opaal =>
      member opaal "projectManifest" with
  | none => .ok none
  | some manifest =>
    match manifest.asStr.bind host.parseUri with
    | none => .error ()
    | some uri => .ok (some uri)

def initializeResult (positionEncoding : String) : Tree :=
  .object [
    ("capabilities", .object [
      ("completionProvider", .object [("resolveProvider", .bool false)]),
      ("definitionProvider", .bool true),
      ("documentFormattingProvider", .bool true),
      ("hoverProvider", .bool true),
      ("positionEncoding", .string positionEncoding),
      ("referencesProvider", .bool true),
      ("signatureHelpProvider", .object []),
      ("textDocumentSync", .object [("change", integer 1 (by decide) (by decide)), ("openClose", .bool true)])]),
    ("serverInfo", .object [("name", .string "OPAAL Language Server"), ("version", .string "1.9.0")])]

/-! ## Diagnostics -/

def count (value : UInt64) : Tree :=
  integer value.toNat (by omega) (by have := value.toNat_lt; omega)

def rangeValue (range : TextRange) : Tree :=
  .object [
    ("end", .object [("character", count range.stop.character), ("line", count range.stop.line)]),
    ("start", .object [("character", count range.start.character), ("line", count range.start.line)])]

def severityValue : Severity → Tree
  | .error => count 1
  | .warning => count 2
  | .note => count 3

def diagnosticText (diagnostic : WorkspaceDiagnostic) (related : Bool) : String :=
  let annotation := match diagnostic.primaryAnnotation with
    | some annotation => ": " ++ annotation
    | none => ""
  let information :=
    if related then ""
    else String.join (diagnostic.relatedInformation.map fun information =>
      "\nrelated: " ++ information.uri ++ ": " ++ information.message)
  let notes := String.join (diagnostic.notes.map fun note => "\nnote: " ++ note)
  diagnostic.message ++ annotation ++ information ++ notes

def relatedValue (information : DiagnosticRelatedInformation) : Tree :=
  .object [
    ("location", .object [("range", rangeValue information.range), ("uri", .string information.uri)]),
    ("message", .string information.message)]

def diagnosticValue (related : Bool) (diagnostic : WorkspaceDiagnostic) : Tree :=
  let value : Members := [
    ("message", .string (diagnosticText diagnostic related)),
    ("range", rangeValue diagnostic.range),
    ("severity", severityValue diagnostic.severity),
    ("source", .string "opaal")]
  let value := match diagnostic.code with
    | some code => Members.insert "code" (.string code) value
    | none => value
  .object (if related && !diagnostic.relatedInformation.isEmpty then
      Members.insert "relatedInformation" (.array (diagnostic.relatedInformation.map relatedValue)) value
    else value)

def versionValue (version : Int32) : Tree :=
  integer version.toInt (by have := version.le_toInt; omega) (by have := version.toInt_lt; omega)

def diagnosticMessage (related : Bool) (document : DiagnosticDocument) : Tree :=
  let params : Members := [
    ("diagnostics", .array (document.diagnostics.map (diagnosticValue related))),
    ("uri", .string document.uri)]
  let params := match document.version with
    | some version => Members.insert "version" (versionValue version) params
    | none => params
  .object [("jsonrpc", .string "2.0"), ("method", .string "textDocument/publishDiagnostics"),
    ("params", .object params)]

/-! ## The coordinator -/

namespace Coordinator

def new : Coordinator where
  lifecycle := .waitingForInitialize
  workspace := .new
  encoding := .utf16
  relatedInformation := false
  pending := []
  controls := []
  workerBusy := false
  nextSerial := 0
  flags := fun _ => .new

/-- Raise a flag of every tracked job for which `selects` holds. -/
def raise (self : Coordinator) (selects : TrackedControl → Bool) (flag : RequestControl → RequestControl) :
    Coordinator :=
  { self with
    flags := fun serial =>
      if self.controls.any fun tracked => tracked.serial = serial && selects tracked then flag (self.flags serial)
      else self.flags serial }

def cancel (control : RequestControl) : RequestControl := { control with cancelled := true }

def invalidate (control : RequestControl) : RequestControl := { control with invalidated := true }

/-- Queue a job under the next serial number, with new flags. -/
def queue (self : Coordinator) (requestId : Option Tree) (kind : JobKind) : Coordinator :=
  { self with
    nextSerial := self.nextSerial + 1
    controls := self.controls ++ [⟨self.nextSerial, requestId⟩]
    pending := self.pending ++ [⟨self.nextSerial, kind, self.workspace.diagnosticSnapshot, self.encoding⟩]
    flags := fun serial => if serial = self.nextSerial then .new else self.flags serial }

def queueDiagnostics (self : Coordinator) : Coordinator := self.queue none .diagnostics

def queueRequest (self : Coordinator) (id : Tree) (method : String) (params : Tree) : Coordinator :=
  self.queue (some id) (.request id method params)

def workspaceChanged (self : Coordinator) : Coordinator :=
  let self := self.raise (fun _ => true) invalidate
  let removed := (self.pending.filter Job.isDiagnostics).map Job.serial
  queueDiagnostics
    { self with
      pending := self.pending.filter fun job => !job.isDiagnostics
      controls := self.controls.filter fun tracked => !removed.contains tracked.serial }

/-- The documents were changed to those of another workspace. -/
def changed (self : Coordinator) (workspace : Workspace) : Coordinator :=
  workspaceChanged { self with workspace := workspace }

def didOpen (host : Host) (object : Members) (self : Coordinator) : Coordinator :=
  let request : Option (DocumentUri × Int32 × String) := do
    let params ← object.get? "params"
    let document ← member params "textDocument"
    let uri ← ((member document "uri").bind Tree.asStr).bind host.parseUri
    let version ← ((member document "version").bind Tree.asI64).bind tryInt32
    let text ← (member document "text").bind Tree.asStr
    return (uri, version, text)
  match request with
  | none => self
  | some (uri, version, text) =>
    match self.workspace.openDocument (host.identity uri) uri version text with
    | .ok workspace => self.changed workspace
    | .error _ => self

def didChange (host : Host) (object : Members) (self : Coordinator) : Coordinator :=
  let request : Option (DocumentUri × Option Int32 × String) := do
    let params ← object.get? "params"
    let document ← member params "textDocument"
    let uri ← ((member document "uri").bind Tree.asStr).bind host.parseUri
    let changes ← (member params "contentChanges").bind Tree.asArray
    match changes with
    | [change] =>
      if (member change "range").isSome || (member change "rangeLength").isSome then none
      else do
        let text ← (member change "text").bind Tree.asStr
        return (uri, ((member document "version").bind Tree.asI64).bind tryInt32, text)
    | _ => none
  match request with
  | none => self
  | some (uri, version, text) =>
    match self.workspace.changeDocument uri version text with
    | .ok (.applied, workspace) => self.changed workspace
    | .ok (.ignoredInvalidVersion, _) | .error _ => self

def didClose (host : Host) (object : Members) (self : Coordinator) : Coordinator :=
  let request : Option DocumentUri := do
    let params ← object.get? "params"
    let document ← member params "textDocument"
    ((member document "uri").bind Tree.asStr).bind host.parseUri
  match request with
  | none => self
  | some uri =>
    match self.workspace.closeDocument uri with
    | .ok workspace => self.changed workspace
    | .error _ => self

/-- Every tracked request is answered as cancelled and nothing is tracked any more. -/
def cancelPendingRequests (self : Coordinator) : List Reply × Coordinator :=
  let output := self.controls.filterMap fun tracked =>
    tracked.requestId.map fun id =>
      (⟨some tracked.serial, requestFailureResponse id .requestCancelled⟩ : Reply)
  (output, { self.raise (fun _ => true) cancel with controls := [], pending := [] })

def cancelRequest (object : Members) (id : Option Tree) (self : Coordinator) : Action × Coordinator :=
  if id.isSome then (requestError id .invalidRequest "Invalid Request", self)
  else
    match ((object.get? "params").bind fun params => member params "id").filter validId with
    | none => (.none, self)
    | some target => (.none, self.raise (fun tracked => tracked.requestId = some target) cancel)

def beforeInitialize (host : Host) (method : String) (object : Members) (id : Option Tree) (self : Coordinator) :
    Action × Coordinator :=
  if method ≠ "initialize" then (requestError id .serverNotInitialized "Server not initialized", self)
  else
    match id with
    | none => (.none, self)
    | some id =>
      let refused : Action := .response (errorResponse id .invalidParams "Invalid params")
      match (object.get? "params").bind Tree.asObject with
      | none => (refused, self)
      | some params =>
        match projectManifestUri host params with
        | .error _ => (refused, self)
        | .ok project =>
          if project.any fun project => !host.selectProject project then (refused, self)
          else
            let utf8 := offeredUtf8 params
            (.response (successResponse id (initializeResult (if utf8 then "utf-8" else "utf-16"))),
              { self with
                encoding := if utf8 then .utf8 else .utf16
                relatedInformation := supportsRelatedInformation params
                lifecycle := .running })

/-- A notification is handled unless it asks for an answer. -/
def notified (id : Option Tree) (self : Coordinator) (handled : Coordinator) : Action × Coordinator :=
  if id.isSome then (requestError id .invalidRequest "Invalid Request", self) else (.none, handled)

def running (host : Host) (method : String) (object : Members) (id : Option Tree) (self : Coordinator) :
    Action × Coordinator :=
  if method = "initialized" then (notificationOnly id, self)
  else if method = "shutdown" then
    match id with
    | none => (.none, self)
    | some id =>
      let (output, self) := self.cancelPendingRequests
      (⟨output ++ [⟨none, successResponse id .null⟩], none⟩, { self with lifecycle := .shutdownRequested })
  else if method = "initialize" then
    let repeatsProjectSelection := ((object.get? "params").bind Tree.asObject).any fun params =>
      match projectManifestUri host params with
      | .ok none => false
      | _ => true
    if repeatsProjectSelection then (requestError id .invalidParams "Invalid params", self)
    else (requestError id .invalidRequest "Invalid Request", self)
  else if method = "textDocument/didOpen" then notified id self (self.didOpen host object)
  else if method = "textDocument/didChange" then notified id self (self.didChange host object)
  else if method = "textDocument/didClose" then notified id self (self.didClose host object)
  else if supportedRequest method then
    match id with
    | none => (.none, self)
    | some id => (.none, self.queueRequest id method ((object.get? "params").getD .null))
  else (requestError id .methodNotFound "Method not found", self)

def handleObject (host : Host) (object : Members) (self : Coordinator) : Action × Coordinator :=
  let id := object.get? "id"
  if (object.get? "jsonrpc").bind Tree.asStr ≠ some "2.0" || id.any fun id => !validId id then
    (invalidMessage id, self)
  else
    match (object.get? "method").bind Tree.asStr with
    | none => (invalidMessage id, self)
    | some method =>
      if (object.get? "params").any fun params => !params.isObject && !params.isArray then
        (requestError id .invalidParams "Invalid params", self)
      else if method = "exit" then
        if id.isNone then
          (.exitWith (if self.lifecycle = .shutdownRequested then .success else .failure), self)
        else (requestError id .invalidRequest "Invalid Request", self)
      else if method = "$/cancelRequest" then self.cancelRequest object id
      else
        match self.lifecycle with
        | .waitingForInitialize => self.beforeInitialize host method object id
        | .running => self.running host method object id
        | .shutdownRequested => (requestError id .invalidRequest "Invalid Request", self)

def handle (host : Host) (message : Tree) (self : Coordinator) : Action × Coordinator :=
  match message with
  | .object object => self.handleObject host object
  | _ => (.response (errorResponse .null .invalidRequest "Invalid Request"), self)

/-- Whether the job was still tracked, and it no longer is. -/
def takeControl (self : Coordinator) (serial : Nat) : Bool × Coordinator :=
  if self.controls.any fun tracked => tracked.serial = serial then
    (true, { self with controls := self.controls.eraseP fun tracked => tracked.serial = serial })
  else (false, self)

/-- Cancellation goes before a newer generation, and both before the outcome. -/
def finish (self : Coordinator) (serial generation : Nat) (outcome : Except RequestError Tree) :
    Except RequestError Tree :=
  if (self.flags serial).cancelled then .error .requestCancelled
  else if generation ≠ self.workspace.generation then .error .contentModified
  else outcome

def complete (result : WorkerResult) (self : Coordinator) : List Reply × Coordinator :=
  let self := { self with workerBusy := false }
  match result with
  | .diagnostics serial result =>
    let (tracked, self) := self.takeControl serial
    if !tracked || (self.flags serial).isCancelled then ([], self)
    else
      match result with
      | .ok (some analysis) =>
        match self.workspace.publishDiagnostics analysis with
        | (.published documents, workspace) =>
          (documents.map fun document => ⟨some serial, diagnosticMessage self.relatedInformation document⟩,
            { self with workspace := workspace })
        | (.stale, workspace) => ([], { self with workspace := workspace })
      | .ok none | .error _ => ([], self)
  | .request serial id generation outcome =>
    let (tracked, self) := self.takeControl serial
    if !tracked then ([], self)
    else
      let message := match self.finish serial generation outcome with
        | .ok result => successResponse id result
        | .error error => requestFailureResponse id error
      ([⟨some serial, message⟩], self)

end Coordinator

end Opaal.Lsp
