import Mathlib.Data.List.Basic

/-!
# The scheduler of the language server

Diagnostics are not published at once: a batch waits until no newer one has come for some
time. A newer batch takes the place of the one that waits.
-/

namespace TypePython.Lsp

/-- A `textDocument/publishDiagnostics` notification: a URI and its diagnostics. -/
abbrev Notification (Diag : Type) := String × List Diag

structure PendingDiagnostics (Diag : Type) where
  revision : Nat
  dueAt : Nat
  notifications : List (Notification Diag)
  highPriorityDeferrals : Nat

/-- Times are in milliseconds. -/
structure LspScheduler (Diag : Type) where
  backgroundMode : Bool
  canceledRequestIds : List String
  pendingDiagnostics : Option (PendingDiagnostics Diag)
  nextRevision : Nat
  diagnosticDebounce : Nat

def maxHighPriorityDeferrals : Nat := 3

def isHighPriorityMethod (method : String) : Bool :=
  method ∈ ["textDocument/hover", "textDocument/completion", "textDocument/signatureHelp",
    "textDocument/definition", "textDocument/references", "textDocument/rename",
    "textDocument/codeAction", "textDocument/documentSymbol", "workspace/symbol",
    "textDocument/formatting"]

namespace LspScheduler

variable {Diag : Type}

def new (debounce : Nat) : LspScheduler Diag where
  backgroundMode := false
  canceledRequestIds := []
  pendingDiagnostics := none
  nextRevision := 0
  diagnosticDebounce := debounce

def enableBackgroundMode (scheduler : LspScheduler Diag) : LspScheduler Diag :=
  { scheduler with backgroundMode := true }

def disableBackgroundMode (scheduler : LspScheduler Diag) : LspScheduler Diag :=
  { scheduler with backgroundMode := false, pendingDiagnostics := none, canceledRequestIds := [] }

/-- A batch that waits already is replaced. -/
def scheduleDiagnostics (now : Nat) (notifications : List (Notification Diag))
    (scheduler : LspScheduler Diag) : LspScheduler Diag :=
  { scheduler with
    nextRevision := scheduler.nextRevision + 1
    pendingDiagnostics := some
      { revision := scheduler.nextRevision + 1
        dueAt := now + scheduler.diagnosticDebounce
        notifications
        highPriorityDeferrals := 0 } }

def flushAll (scheduler : LspScheduler Diag) :
    LspScheduler Diag × List (Notification Diag) :=
  match scheduler.pendingDiagnostics with
  | some pending => ({ scheduler with pendingDiagnostics := none }, pending.notifications)
  | none => (scheduler, [])

def immediateOrDeferredNotifications (scheduler : LspScheduler Diag) :
    LspScheduler Diag × List (Notification Diag) :=
  if scheduler.backgroundMode then (scheduler, []) else scheduler.flushAll

/-- After a message: a batch that is due is flushed, unless the message is a request that
somebody waits for. -/
def flushDueAfter (now : Nat) (method : String) (scheduler : LspScheduler Diag) :
    LspScheduler Diag × List (Notification Diag) :=
  if !scheduler.backgroundMode then (scheduler, [])
  else
    match scheduler.pendingDiagnostics with
    | none => (scheduler, [])
    | some pending =>
      if now < pending.dueAt then (scheduler, [])
      else if isHighPriorityMethod method
          && pending.highPriorityDeferrals < maxHighPriorityDeferrals then
        ({ scheduler with
           pendingDiagnostics := some
             { pending with highPriorityDeferrals := pending.highPriorityDeferrals + 1 } }, [])
      else scheduler.flushAll

def flushDueTimeout (now : Nat) (scheduler : LspScheduler Diag) :
    LspScheduler Diag × List (Notification Diag) :=
  match scheduler.pendingDiagnostics with
  | none => (scheduler, [])
  | some pending => if pending.dueAt ≤ now then scheduler.flushAll else (scheduler, [])

def cancelRequest (id : String) (scheduler : LspScheduler Diag) : LspScheduler Diag :=
  { scheduler with canceledRequestIds := scheduler.canceledRequestIds.insert id }

/-- Whether a request was cancelled. It is forgotten once it has been asked for. -/
def takeCancellation (id : Option String) (scheduler : LspScheduler Diag) :
    LspScheduler Diag × Bool :=
  match id with
  | none => (scheduler, false)
  | some key =>
    ({ scheduler with canceledRequestIds := scheduler.canceledRequestIds.erase key },
      key ∈ scheduler.canceledRequestIds)

end LspScheduler

end TypePython.Lsp
