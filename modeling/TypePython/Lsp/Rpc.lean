import Mathlib.Algebra.Group.Int.Defs
import TypePython.Lsp.Server

/-!
# JSON-RPC

The messages of the language server as JSON values, and what it writes for each of them: a
response if the message is a request, and the notifications that are due. What the handlers
find out about the documents is a parameter (`Handlers`).
-/

namespace TypePython.Lsp.Rpc

/-- A JSON value. An integer that no machine integer holds is kept as it is written. -/
inductive Value where
  | null
  | bool (b : Bool)
  | number (n : Int)
  | float (text : String)
  | string (text : String)
  | array (items : List Value)
  | object (fields : List (String × Value))

namespace Value

/-- A field of an object. -/
def get (key : String) : Value → Option Value
  | .object fields => fields.lookup key
  | _ => none

def asStr : Value → Option String
  | .string text => some text
  | _ => none

/-- The number, if it fits into 64 bits with a sign. -/
def asI64 : Value → Option Int
  | .number n => if -2 ^ 63 ≤ n ∧ n < 2 ^ 63 then some n else none
  | _ => none

end Value

/-- A number and a text that look the same are different keys. -/
def requestIdKey (id : Value) : Option String :=
  match id.asI64 with
  | some number => some ("n:" ++ toString number)
  | none => id.asStr.map ("s:" ++ ·)

def jsonrpcCode : LspErrorKind → Int
  | .parseError => -32700
  | .invalidRequest => -32600
  | .methodNotFound => -32601
  | .invalidParams => -32602
  | .internal => -32603
  | .contentModified => -32801
  | .requestFailed => -32803

structure LspError where
  kind : LspErrorKind
  message : String
  data : Option Value

namespace LspError

def methodNotFound (message : String) : LspError := { kind := .methodNotFound, message, data := none }

def jsonrpcResponse (id : Value) (error : LspError) : Value :=
  .object [
    ("jsonrpc", .string "2.0"),
    ("id", id),
    ("error", .object ([("code", .number (jsonrpcCode error.kind)),
      ("message", .string error.message)]
      ++ (error.data.map fun data => ("data", data)).toList))]

end LspError

def requestOkResponse (id : Option Value) (result : Value) : Option Value :=
  id.map fun id => .object [("jsonrpc", .string "2.0"), ("id", id), ("result", result)]

def publishDiagnosticsNotification (notification : Notification Value) : Value :=
  .object [
    ("jsonrpc", .string "2.0"),
    ("method", .string "textDocument/publishDiagnostics"),
    ("params", .object [
      ("uri", .string notification.1),
      ("diagnostics", .array notification.2)])]

/-- What the server says it can do. -/
def initializeResult : Value :=
  .object [
    ("capabilities", .object [
      ("positionEncoding", .string "utf-16"),
      ("textDocumentSync", .object [("openClose", .bool true), ("change", .number 2)]),
      ("hoverProvider", .bool true),
      ("definitionProvider", .bool true),
      ("referencesProvider", .bool true),
      ("documentFormattingProvider", .bool true),
      ("signatureHelpProvider", .object [
        ("triggerCharacters", .array [.string "(", .string ","])]),
      ("documentSymbolProvider", .bool true),
      ("workspaceSymbolProvider", .bool true),
      ("renameProvider", .bool true),
      ("codeActionProvider", .bool true),
      ("executeCommandProvider", .object [
        ("commands", .array [
          .string "typepython.migrateReport",
          .string "typepython.compat",
          .string "typepython.typeHealth",
          .string "typepython.previewEmit",
          .string "typepython.findTypeSource"])]),
      ("completionProvider", .object [
        ("resolveProvider", .bool false),
        ("triggerCharacters", .array [.string "."])])]),
    ("serverInfo", .object [
      ("name", .string "typepython"),
      ("version", .string "1.0.0-rc.1")])]

/-- The notifications about documents. -/
def documentMethods : List String :=
  ["textDocument/didOpen", "textDocument/didChange", "textDocument/didClose",
    "workspace/didChangeWatchedFiles"]

/-- The requests that a handler answers. -/
def queryMethods : List String :=
  ["textDocument/hover", "textDocument/definition", "textDocument/references",
    "textDocument/formatting", "textDocument/signatureHelp", "textDocument/documentSymbol",
    "workspace/symbol", "textDocument/rename", "textDocument/codeAction",
    "workspace/executeCommand", "textDocument/completion"]

/-- What the handlers do with the analysis host, over the files on disk: `applyUpdate` is the
handler of a notification about documents and returns the URIs to clear, `query` is the
handler of a request. -/
structure Handlers (Files Analysis : Type) where
  applyUpdate : Files → String → Value → Analysis → Analysis × Except LspError (List String)
  publishDiagnostics : Files → Analysis → Analysis × Except LspError (List (Notification Value))
  query : Files → String → Value → Analysis → Analysis × Except LspError Value

structure Server (Analysis : Type) where
  analysis : Analysis
  scheduler : LspScheduler Value
  shutdownRequested : Bool
  exited : Bool

section Serve

variable {Files Analysis : Type} (handlers : Handlers Files Analysis) (files : Files) (now : Nat)

def scheduleDiagnosticsBatch (cleared : List String) (server : Server Analysis) :
    Server Analysis × Except LspError (List Value) :=
  match handlers.publishDiagnostics files server.analysis with
  | (analysis, .error error) => ({ server with analysis }, .error error)
  | (analysis, .ok notifications) =>
    let scheduler := server.scheduler.scheduleDiagnostics now
      ((cleared.map fun uri => (uri, [])) ++ notifications)
    let (scheduler, flushed) := scheduler.immediateOrDeferredNotifications
    ({ server with analysis, scheduler }, .ok (flushed.map publishDiagnosticsNotification))

/-- Cancel the request that the parameters name, if they name one. -/
def cancelRequest (params : Value) (scheduler : LspScheduler Value) : LspScheduler Value :=
  match (params.get "id").bind requestIdKey with
  | some key => scheduler.cancelRequest key
  | none => scheduler

def dispatchMessage (method : String) (id : Option Value) (params : Value)
    (server : Server Analysis) : Server Analysis × Except LspError (List Value) :=
  if method = "initialize" then
    (server, .ok (requestOkResponse id initializeResult).toList)
  else if method = "initialized" then (server, .ok [])
  else if method = "$/cancelRequest" then
    ({ server with scheduler := cancelRequest params server.scheduler }, .ok [])
  else if method = "shutdown" then
    ({ server with shutdownRequested := true }, .ok (requestOkResponse id .null).toList)
  else if method = "exit" then ({ server with exited := true }, .ok [])
  else if method ∈ documentMethods then
    match handlers.applyUpdate files method params server.analysis with
    | (analysis, .error error) => ({ server with analysis }, .error error)
    | (analysis, .ok cleared) =>
      scheduleDiagnosticsBatch handlers files now cleared { server with analysis }
  else if method ∈ queryMethods then
    match handlers.query files method params server.analysis with
    | (analysis, .error error) => ({ server with analysis }, .error error)
    | (analysis, .ok result) =>
      ({ server with analysis }, .ok (requestOkResponse id result).toList)
  else if id.isSome then
    (server, .error (.methodNotFound ("JSON-RPC method \x60" ++ method
      ++ "\x60 is not supported by the TypePython language server")))
  else (server, .ok [])

def messageMethod (message : Value) : Option String := (message.get "method").bind Value.asStr

/-- What is written for a result of the dispatch: an error is a response only if there is an
id to answer to. -/
def responsesOf (id : Option Value) : Except LspError (List Value) → List Value
  | .ok responses => responses
  | .error error => (id.map fun id => error.jsonrpcResponse id).toList

def handleMessage (message : Value) (server : Server Analysis) : Server Analysis × List Value :=
  match messageMethod message with
  | none => (server, [])
  | some method =>
    let id := message.get "id"
    let params := (message.get "params").getD .null
    let (scheduler, canceled) := server.scheduler.takeCancellation (id.bind requestIdKey)
    let server := { server with scheduler }
    if canceled then (server, [])
    else
      let (server, dispatched) := dispatchMessage handlers files now method id params server
      let (scheduler, due) := server.scheduler.flushDueAfter now method
      ({ server with scheduler },
        responsesOf id dispatched ++ due.map publishDiagnosticsNotification)

end Serve

/-! ## The main loop -/

/-- What the main loop waits for: a message, with the files on disk as they are then, the end
of the debounce time, or the end of the input. -/
inductive Event (Files : Type) where
  | message (now : Nat) (files : Files) (message : Value)
  | timeout (now : Nat)
  | endOfInput

/-- The server and what it has written. -/
structure Session (Analysis : Type) where
  server : Server Analysis
  written : List Value

section Run

variable {Files Analysis : Type} (handlers : Handlers Files Analysis)

/-- Flush what waits and leave the main loop. -/
def Session.stop (session : Session Analysis) : Session Analysis :=
  let (scheduler, flushed) := session.server.scheduler.flushAll
  { server := { session.server with scheduler := scheduler.disableBackgroundMode, exited := true }
    written := session.written ++ flushed.map publishDiagnosticsNotification }

def Session.step (session : Session Analysis) (event : Event Files) : Session Analysis :=
  if session.server.exited then session
  else
    match event with
    | .message now files message =>
      let (server, responses) := handleMessage handlers files now message session.server
      let session := { server, written := session.written ++ responses }
      if server.exited then session.stop else session
    | .timeout now =>
      let (scheduler, flushed) := session.server.scheduler.flushDueTimeout now
      { server := { session.server with scheduler }
        written := session.written ++ flushed.map publishDiagnosticsNotification }
    | .endOfInput => session.stop

/-- A server as it begins to serve. -/
def Session.start (analysis : Analysis) (debounce : Nat) : Session Analysis where
  server :=
    { analysis
      scheduler := (LspScheduler.new debounce).enableBackgroundMode
      shutdownRequested := false
      exited := false }
  written := []

end Run

end TypePython.Lsp.Rpc
