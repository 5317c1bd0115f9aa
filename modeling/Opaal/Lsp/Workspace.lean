import Std.Data.ExtTreeMap
import Std.Data.ExtTreeSet
import Opaal.Machine.Stateful
import Opaal.Runtime.Value

/-!
# The documents of a language server

The open documents and the diagnostics last published for them.  Every accepted change of
the documents starts a new generation, so that two snapshots of one generation hold the
same documents.
-/

namespace Opaal.Lsp

open Opaal.Machine (bind_ok)
open Opaal.Runtime (NativePath)

/-- A file URI, as it was accepted. -/
abbrev DocumentUri := String

structure OpenDocument where
  uri : DocumentUri
  nativePath : NativePath
  modulePath : NativePath
  version : Int32
  text : String
  provisional : Bool
  generation : Nat
deriving DecidableEq

inductive DocumentError where
  | alreadyOpen
  | notOpen
  | moduleAlreadyOpen (owner : DocumentUri)
  | host (message : String)
  | generationExhausted
deriving DecidableEq

inductive ChangeOutcome where
  | applied
  | ignoredInvalidVersion
deriving DecidableEq

/-! ## Diagnostics -/

structure TextPosition where
  line : UInt64
  character : UInt64
deriving DecidableEq

structure TextRange where
  start : TextPosition
  stop : TextPosition
deriving DecidableEq

inductive Severity where
  | error
  | warning
  | note
deriving DecidableEq

structure DiagnosticRelatedInformation where
  uri : DocumentUri
  range : TextRange
  message : String
deriving DecidableEq

structure WorkspaceDiagnostic where
  range : TextRange
  severity : Severity
  code : Option String
  message : String
  primaryAnnotation : Option String
  relatedInformation : List DiagnosticRelatedInformation
  notes : List String
deriving DecidableEq

structure DiagnosticDocument where
  uri : DocumentUri
  version : Option Int32
  diagnostics : List WorkspaceDiagnostic
deriving DecidableEq

structure DiagnosticAnalysis where
  generation : Nat
  documents : List DiagnosticDocument
deriving DecidableEq

structure PublishedDocument where
  version : Option Int32
  diagnostics : List WorkspaceDiagnostic
deriving DecidableEq

inductive DiagnosticPublishOutcome where
  | published (documents : List DiagnosticDocument)
  | stale

/-! ## The workspace -/

structure Workspace where
  documents : Std.ExtTreeMap DocumentUri OpenDocument
  owners : List (NativePath × DocumentUri)
  generation : Nat
  published : Std.ExtTreeMap DocumentUri PublishedDocument

/-- What a job sees of the workspace. -/
structure WorkspaceSnapshot where
  generation : Nat
  documents : Std.ExtTreeMap DocumentUri OpenDocument

/-- The paths the file system gives a document that is opened: its own, that of its module
and whether there is no such file yet. -/
abbrev Identity := Except String (NativePath × NativePath × Bool)

namespace Workspace

def new : Workspace := ⟨∅, [], 0, ∅⟩

def nextGeneration (self : Workspace) : Except DocumentError Nat :=
  if self.generation + 1 < 2 ^ 64 then .ok (self.generation + 1) else .error .generationExhausted

def openDocument (self : Workspace) (identity : Identity) (uri : DocumentUri) (version : Int32) (text : String) :
    Except DocumentError Workspace :=
  if self.documents.contains uri then .error .alreadyOpen
  else
    match identity with
    | .error message => .error (.host message)
    | .ok (nativePath, modulePath, provisional) =>
      match self.owners.lookup modulePath with
      | some owner => .error (.moduleAlreadyOpen owner)
      | none => do
        let generation ← self.nextGeneration
        .ok { self with
          owners := (modulePath, uri) :: self.owners
          documents := self.documents.insert uri
            ⟨uri, nativePath, modulePath, version, text, provisional, generation⟩
          generation := generation }

def changeDocument (self : Workspace) (uri : DocumentUri) (version : Option Int32) (text : String) :
    Except DocumentError (ChangeOutcome × Workspace) :=
  match self.documents[uri]? with
  | none => .error .notOpen
  | some document =>
    match version.filter (document.version < ·) with
    | none => .ok (.ignoredInvalidVersion, self)
    | some version => do
      let generation ← self.nextGeneration
      .ok (.applied, { self with
        documents := self.documents.insert uri
          { document with version := version, text := text, generation := generation }
        generation := generation })

def closeDocument (self : Workspace) (uri : DocumentUri) : Except DocumentError Workspace :=
  match self.documents[uri]? with
  | none => .error .notOpen
  | some document => do
    let generation ← self.nextGeneration
    .ok { self with
      documents := self.documents.erase uri
      owners := self.owners.filter fun owner => owner.1 ≠ document.modulePath
      generation := generation }

def diagnosticSnapshot (self : Workspace) : WorkspaceSnapshot := ⟨self.generation, self.documents⟩

/-- The analysis by document; a later entry replaces an earlier one. -/
def collectDocuments (documents : List DiagnosticDocument) : Std.ExtTreeMap DocumentUri PublishedDocument :=
  .ofList (documents.map fun document => (document.uri, (⟨document.version, document.diagnostics⟩ : PublishedDocument)))

/-- What has to be said about one document to replace what was said before. -/
def difference (self : Workspace) (next : Std.ExtTreeMap DocumentUri PublishedDocument) (uri : DocumentUri) :
    Option DiagnosticDocument :=
  match next[uri]? with
  | some current =>
    if self.published[uri]? ≠ some current then some ⟨uri, current.version, current.diagnostics⟩ else none
  | none =>
    if self.published.contains uri then some ⟨uri, self.documents[uri]?.map OpenDocument.version, []⟩ else none

def publishDiagnostics (self : Workspace) (analysis : DiagnosticAnalysis) : DiagnosticPublishOutcome × Workspace :=
  if analysis.generation ≠ self.generation then (.stale, self)
  else
    let next := collectDocuments analysis.documents
    let uris := (Std.ExtTreeSet.ofList (self.published.keys ++ next.keys)).toList
    (.published (uris.filterMap (self.difference next)), { self with published := next })

end Workspace

/-! ## Generations -/

/-- The owners are the open documents, each of its own module, and no two documents are of one generation. -/
structure Workspace.Owned (workspace : Workspace) : Prop where
  owner : ∀ path (uri : DocumentUri), workspace.owners.lookup path = some uri ↔
    workspace.documents[uri]?.map OpenDocument.modulePath = some path
  dated : ∀ (uri : DocumentUri) document, workspace.documents[uri]? = some document →
    document.uri = uri ∧ document.generation ≤ workspace.generation
  apart : ∀ (uri other : DocumentUri) first second, workspace.documents[uri]? = some first →
    workspace.documents[other]? = some second → first.generation = second.generation → uri = other

/-- A change of the documents that was accepted. -/
structure Workspace.Changed (before after : Workspace) : Prop where
  generation : after.generation = before.generation + 1
  published : after.published = before.published
  owned : before.Owned → after.Owned

section Changes

variable {self after : Workspace} {uri : DocumentUri}

theorem lookup_filter (owners : List (NativePath × DocumentUri)) (path other : NativePath) :
    (owners.filter fun owner => owner.1 ≠ path).lookup other = if other = path then none else owners.lookup other := by
  induction owners with
  | nil => simp
  | cons owner owners ih => grind

theorem nextGeneration_ok {generation : Nat} (next : self.nextGeneration = .ok generation) :
    generation = self.generation + 1 := by
  unfold Workspace.nextGeneration at next
  split at next
  · cases next
    rfl
  · contradiction

theorem openDocument_changed {identity : Identity} {version : Int32} {text : String}
    (opened : self.openDocument identity uri version text = .ok after) : self.Changed after := by
  unfold Workspace.openDocument at opened
  split at opened
  · contradiction
  · split at opened
    · contradiction
    · split at opened
      · contradiction
      · obtain ⟨_, next, opened⟩ := bind_ok opened
        cases opened
        have newer := nextGeneration_ok next
        refine ⟨newer, rfl, ?_⟩
        rintro ⟨owner, dated, apart⟩
        refine ⟨?_, by grind, by grind⟩
        intro other reader
        rw [List.lookup_cons, Std.ExtTreeMap.getElem?_insert]
        grind

theorem changeDocument_changed {version : Option Int32} {text : String}
    (applied : self.changeDocument uri version text = .ok (.applied, after)) : self.Changed after := by
  unfold Workspace.changeDocument at applied
  split at applied
  · contradiction
  · split at applied
    · cases applied
    · obtain ⟨_, next, applied⟩ := bind_ok applied
      cases applied
      have newer := nextGeneration_ok next
      refine ⟨newer, rfl, ?_⟩
      rintro ⟨owner, dated, apart⟩
      exact ⟨by grind, by grind, by grind⟩

theorem closeDocument_changed (closed : self.closeDocument uri = .ok after) : self.Changed after := by
  unfold Workspace.closeDocument at closed
  split at closed
  · contradiction
  · next document found =>
    obtain ⟨_, next, closed⟩ := bind_ok closed
    cases closed
    have newer := nextGeneration_ok next
    refine ⟨newer, rfl, ?_⟩
    rintro ⟨owner, dated, apart⟩
    refine ⟨?_, by grind, by grind⟩
    intro path other
    -- The document that is closed was the one owner of its module.
    have alone := owner document.modulePath uri
    rw [lookup_filter, Std.ExtTreeMap.getElem?_erase]
    grind

end Changes

end Opaal.Lsp
