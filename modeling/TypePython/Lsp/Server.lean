import Std.Data.ExtTreeMap
import TypePython.Lsp.Scheduler

/-!
# The language server

The messages of a client, what they do to the open documents and to the workspace, and when
the diagnostics of the workspace are published. The workspace itself is a parameter
(`WorkspaceOps`): what it caches between updates is opaque here, and an update either yields
new diagnostics or fails and leaves the diagnostics of the last one.
-/

namespace TypePython.Lsp

open Std

/-- An open document, as the editor shows it. -/
structure OverlayDocument where
  uri : String
  text : String
  version : Int
deriving DecidableEq, Repr

inductive LspErrorKind where
  | parseError
  | invalidRequest
  | methodNotFound
  | invalidParams
  | contentModified
  | requestFailed
  | internal
deriving DecidableEq, Repr

structure LspWatchedFileChange where
  uri : String
  changeType : Nat
deriving DecidableEq, Repr

namespace LspWatchedFileChange

def isDeleted (change : LspWatchedFileChange) : Bool := change.changeType == 3

def validate (change : LspWatchedFileChange) : Except LspErrorKind Unit :=
  if 1 ≤ change.changeType ∧ change.changeType ≤ 3 then .ok () else .error .invalidParams

end LspWatchedFileChange

/-! ## The workspace -/

abbrev Overlays := ExtTreeMap String OverlayDocument

abbrev DiagnosticsByUri (Diag : Type) := ExtTreeMap String (List Diag)

structure IncrementalWorkspace (Caches Diag : Type) where
  caches : Caches
  diagnosticsByUri : DiagnosticsByUri Diag

/-- What an update leaves in the caches, and the diagnostics of the new state if there is
one. -/
structure WorkspaceUpdate (Caches Diag : Type) where
  caches : Caches
  result : Except LspErrorKind (DiagnosticsByUri Diag)

/-- The operations of a workspace over the files on disk. -/
structure WorkspaceOps (Files Caches Diag Change : Type) where
  uriToPath : String → Option String
  applyContentChanges : String → List Change → Except LspErrorKind String
  new : Files → Overlays → Except LspErrorKind (IncrementalWorkspace Caches Diag)
  applyProjectPathUpdate :
    Files → IncrementalWorkspace Caches Diag → String → Option OverlayDocument →
      WorkspaceUpdate Caches Diag
  applyFileSystemPathUpdate :
    Files → IncrementalWorkspace Caches Diag → String → Option OverlayDocument →
      WorkspaceUpdate Caches Diag

structure AnalysisHost (Caches Diag : Type) where
  overlays : Overlays
  cachedWorkspace : Option (IncrementalWorkspace Caches Diag)

section Host

variable {Files Caches Diag Change : Type} (ops : WorkspaceOps Files Caches Diag Change)
  (files : Files)

/-- Run an update on the workspace, if there is one. -/
def updateWorkspace
    (update : IncrementalWorkspace Caches Diag → WorkspaceUpdate Caches Diag)
    (host : AnalysisHost Caches Diag) : AnalysisHost Caches Diag × Except LspErrorKind Unit :=
  match host.cachedWorkspace with
  | none => (host, .ok ())
  | some workspace =>
    let updated := update workspace
    match updated.result with
    | .ok diagnosticsByUri =>
      ({ host with
         cachedWorkspace := some { caches := updated.caches, diagnosticsByUri } }, .ok ())
    | .error error =>
      ({ host with
         cachedWorkspace := some { workspace with caches := updated.caches } }, .error error)

def openDocument (uri text : String) (version : Int) (host : AnalysisHost Caches Diag) :
    AnalysisHost Caches Diag × Except LspErrorKind Unit :=
  match ops.uriToPath uri with
  | none => (host, .error .invalidParams)
  | some path =>
    let overlay := { uri, text, version }
    updateWorkspace (fun workspace =>
        ops.applyProjectPathUpdate files workspace path (some overlay))
      { host with overlays := host.overlays.insert path overlay }

def changeDocument (uri : String) (version : Int) (contentChanges : List Change)
    (host : AnalysisHost Caches Diag) : AnalysisHost Caches Diag × Except LspErrorKind Unit :=
  match ops.uriToPath uri with
  | none => (host, .error .invalidParams)
  | some path =>
    match host.overlays[path]? with
    | none => (host, .error .invalidParams)
    | some current =>
      if version ≤ current.version then (host, .error .contentModified)
      else if contentChanges.isEmpty then (host, .error .invalidParams)
      else
        match ops.applyContentChanges current.text contentChanges with
        | .error error => (host, .error error)
        | .ok text =>
          let overlay := { uri, text, version }
          updateWorkspace (fun workspace =>
              ops.applyProjectPathUpdate files workspace path (some overlay))
            { host with overlays := host.overlays.insert path overlay }

/-- Closing a document returns its URI, whose diagnostics are to be cleared. -/
def closeDocument (uri : String) (host : AnalysisHost Caches Diag) :
    AnalysisHost Caches Diag × Except LspErrorKind String :=
  match ops.uriToPath uri with
  | none => (host, .error .invalidParams)
  | some path =>
    if path ∉ host.overlays then (host, .error .invalidParams)
    else
      let (host, result) := updateWorkspace (fun workspace =>
          ops.applyProjectPathUpdate files workspace path none)
        { host with overlays := host.overlays.erase path }
      (host, result.map fun () => uri)

/-- Changes on disk, one after the other. The first one that fails ends it, and what was done
before stays done. -/
def changeWatchedFiles : List LspWatchedFileChange → List String → AnalysisHost Caches Diag →
    AnalysisHost Caches Diag × Except LspErrorKind (List String)
  | [], clearedDiagnostics, host => (host, .ok clearedDiagnostics)
  | change :: changes, clearedDiagnostics, host =>
    match ops.uriToPath change.uri with
    | none => (host, .error .invalidParams)
    | some path =>
      let clearedDiagnostics :=
        if change.isDeleted && !host.overlays.contains path then
          clearedDiagnostics ++ [change.uri]
        else clearedDiagnostics
      match updateWorkspace (fun workspace =>
          ops.applyFileSystemPathUpdate files workspace path host.overlays[path]?) host with
      | (host, .ok ()) => changeWatchedFiles changes clearedDiagnostics host
      | (host, .error error) => (host, .error error)

/-- The workspace, built when it is first asked for. -/
def ensureWorkspace (host : AnalysisHost Caches Diag) :
    AnalysisHost Caches Diag × Except LspErrorKind (IncrementalWorkspace Caches Diag) :=
  match host.cachedWorkspace with
  | some workspace => (host, .ok workspace)
  | none =>
    match ops.new files host.overlays with
    | .ok workspace => ({ host with cachedWorkspace := some workspace }, .ok workspace)
    | .error error => (host, .error error)

/-- The notifications for a workspace: its diagnostics, and none for the open documents that
are not part of it. -/
def diagnosticNotifications (overlays : Overlays) (diagnosticsByUri : DiagnosticsByUri Diag) :
    List (Notification Diag) :=
  diagnosticsByUri.toList
    ++ ((overlays.toList.map Prod.snd).filter fun overlay =>
        !diagnosticsByUri.contains overlay.uri).map fun overlay => (overlay.uri, [])

def publishDiagnostics (host : AnalysisHost Caches Diag) :
    AnalysisHost Caches Diag × Except LspErrorKind (List (Notification Diag)) :=
  let (host, workspace) := ensureWorkspace ops files host
  (host, workspace.map fun workspace =>
    diagnosticNotifications host.overlays workspace.diagnosticsByUri)

end Host

/-! ## Messages -/

/-- The messages of a client. Of a request only its method matters, and whether its handler
gets to look at the workspace. -/
inductive Message (Change : Type) where
  | didOpen (uri text : String) (version : Int)
  | didChange (uri : String) (version : Int) (contentChanges : List Change)
  | didClose (uri : String)
  | didChangeWatchedFiles (changes : List LspWatchedFileChange)
  | malformed (method : String)
  | cancelRequest (id : String)
  | exit
  | request (method : String) (usesWorkspace : Bool)

def Message.method {Change : Type} : Message Change → String
  | .didOpen .. => "textDocument/didOpen"
  | .didChange .. => "textDocument/didChange"
  | .didClose _ => "textDocument/didClose"
  | .didChangeWatchedFiles _ => "workspace/didChangeWatchedFiles"
  | .malformed method => method
  | .cancelRequest _ => "$/cancelRequest"
  | .exit => "exit"
  | .request method _ => method

structure Server (Caches Diag : Type) where
  analysis : AnalysisHost Caches Diag
  scheduler : LspScheduler Diag
  exited : Bool

namespace Server

def new {Caches Diag : Type} (debounce : Nat) : Server Caches Diag where
  analysis := { overlays := ∅, cachedWorkspace := none }
  scheduler := LspScheduler.new debounce
  exited := false

end Server

section Serve

variable {Files Caches Diag Change : Type} (ops : WorkspaceOps Files Caches Diag Change)
  (files : Files) (now : Nat)

/-- What a message does to the documents and the workspace, and the URIs it clears. A message
that does not concern the documents yields `none`. -/
def updateAnalysis (message : Message Change) (host : AnalysisHost Caches Diag) :
    AnalysisHost Caches Diag × Option (Except LspErrorKind (List String)) :=
  match message with
  | .didOpen uri text version =>
    let (host, result) := openDocument ops files uri text version host
    (host, some (result.map fun () => []))
  | .didChange uri version contentChanges =>
    let (host, result) := changeDocument ops files uri version contentChanges host
    (host, some (result.map fun () => []))
  | .didClose uri =>
    let (host, result) := closeDocument ops files uri host
    (host, some (result.map fun uri => [uri]))
  | .didChangeWatchedFiles changes =>
    match changes.forM LspWatchedFileChange.validate with
    | .error error => (host, some (.error error))
    | .ok () =>
      let (host, result) := changeWatchedFiles ops files changes [] host
      (host, some result)
  | _ => (host, none)

/-- Put the notices of an update in front of the diagnostics of the workspace, and schedule
all of them. -/
def scheduleDiagnosticsBatch (cleared : List String) (server : Server Caches Diag) :
    Server Caches Diag × List (Notification Diag) :=
  let (analysis, published) := publishDiagnostics ops files server.analysis
  let server := { server with analysis }
  match published with
  | .error _ => (server, [])
  | .ok notifications =>
    let scheduler := server.scheduler.scheduleDiagnostics now
      ((cleared.map fun uri => (uri, [])) ++ notifications)
    let (scheduler, flushed) := scheduler.immediateOrDeferredNotifications
    ({ server with scheduler }, flushed)

def dispatchMessage (message : Message Change) (server : Server Caches Diag) :
    Server Caches Diag × List (Notification Diag) :=
  match message with
  | .cancelRequest id =>
    ({ server with scheduler := server.scheduler.cancelRequest id }, [])
  | .exit => ({ server with exited := true }, [])
  | .malformed _ => (server, [])
  | .request _ usesWorkspace =>
    if usesWorkspace then
      ({ server with analysis := (ensureWorkspace ops files server.analysis).1 }, [])
    else (server, [])
  | message =>
    let (analysis, result) := updateAnalysis ops files message server.analysis
    let server := { server with analysis }
    match result with
    | some (.ok cleared) => scheduleDiagnosticsBatch ops files now cleared server
    | _ => (server, [])

def handleMessage (id : Option String) (message : Message Change) (server : Server Caches Diag) :
    Server Caches Diag × List (Notification Diag) :=
  let (scheduler, canceled) := server.scheduler.takeCancellation id
  let server := { server with scheduler }
  if canceled then (server, [])
  else
    let (server, notifications) := dispatchMessage ops files now message server
    let (scheduler, due) := server.scheduler.flushDueAfter now message.method
    ({ server with scheduler }, notifications ++ due)

end Serve

/-! ## Runs -/

/-- What the main loop waits for: a message, with the files on disk as they are then, the end
of the debounce time, or the end of the input. -/
inductive Event (Files Change : Type) where
  | message (now : Nat) (files : Files) (id : Option String) (message : Message Change)
  | timeout (now : Nat)
  | endOfInput

/-- The server and what it has published. -/
structure Session (Caches Diag : Type) where
  server : Server Caches Diag
  published : List (Notification Diag)

section Run

variable {Files Caches Diag Change : Type} (ops : WorkspaceOps Files Caches Diag Change)

/-- Flush what waits and leave the main loop. -/
def Session.stop (session : Session Caches Diag) : Session Caches Diag :=
  let (scheduler, flushed) := session.server.scheduler.flushAll
  { server := { session.server with scheduler := scheduler.disableBackgroundMode, exited := true }
    published := session.published ++ flushed }

def Session.step (session : Session Caches Diag) (event : Event Files Change) :
    Session Caches Diag :=
  if session.server.exited then session
  else
    match event with
    | .message now files id message =>
      let (server, notifications) := handleMessage ops files now id message session.server
      let session := { server, published := session.published ++ notifications }
      if server.exited then session.stop else session
    | .timeout now =>
      let (scheduler, flushed) := session.server.scheduler.flushDueTimeout now
      { server := { session.server with scheduler }
        published := session.published ++ flushed }
    | .endOfInput => session.stop

/-- A server as it begins to serve, in the background or not. -/
def Session.start (debounce : Nat) (background : Bool) : Session Caches Diag :=
  let server : Server Caches Diag := Server.new debounce
  { server :=
      if background then { server with scheduler := server.scheduler.enableBackgroundMode }
      else server
    published := [] }

end Run

end TypePython.Lsp
