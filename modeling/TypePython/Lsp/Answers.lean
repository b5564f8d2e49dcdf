import Mathlib.Data.List.Forall2
import Mathlib.Data.List.Nodup
import Mathlib.Data.List.ReduceOption
import TypePython.Lsp.Rpc

/-!
# Requests and their answers

Every request is answered at most once, with its own id and in its turn. A request goes
without an answer if it is cancelled before it comes, or if its method is that of a
notification. The ids that are cancelled are kept until a message carries them
(`Remembers`), so an id that is used again after its request was answered and then cancelled
has no answer either (`reusedId_not_answered`).
-/

namespace TypePython.Lsp.Rpc

/-! ## What is written for a message -/

def Value.isResponse (value : Value) : Bool := (value.get "id").isSome

/-- The responses among what is written, without the notifications. -/
def responses (written : List Value) : List Value := written.filter Value.isResponse

theorem responses_append (written more : List Value) :
    responses (written ++ more) = responses written ++ responses more := List.filter_append ..

theorem responses_notifications (notifications : List (Notification Value)) :
    responses (notifications.map publishDiagnosticsNotification) = [] := by
  unfold responses
  rw [List.filter_eq_nil_iff]
  intro value hvalue
  rcases List.mem_map.1 hvalue with ⟨notification, -, rfl⟩
  exact Bool.false_ne_true

/-- A response to a request carries its id, and a result or an error. -/
def RespondsTo (id response : Value) : Prop :=
  response.get "id" = some id
    ∧ ((response.get "result").isSome ∨ (response.get "error").isSome)

theorem okResponse_respondsTo {id result response : Value}
    (h : requestOkResponse (some id) result = some response) : RespondsTo id response := by
  cases h
  exact ⟨rfl, .inl rfl⟩

theorem jsonrpcResponse_respondsTo (id : Value) (error : LspError) :
    RespondsTo id (error.jsonrpcResponse id) := ⟨rfl, .inr rfl⟩

theorem RespondsTo.isResponse {id response : Value} (h : RespondsTo id response) :
    response.isResponse = true := by
  unfold Value.isResponse
  rw [h.1]
  rfl

/-! ## Requests -/

/-- A request with the server it comes to, and all that came before it. -/
structure Request (Files Analysis : Type) where
  history : List (Event Files)
  server : Server Analysis
  files : Files
  now : Nat
  id : Value
  method : String
  params : Value

section

variable {Files Analysis : Type}

/-- A message is a request if it has an id and a method. -/
def requestOf (history : List (Event Files)) (server : Server Analysis) :
    Event Files → Option (Request Files Analysis)
  | .message now files message =>
    match message.get "id", messageMethod message with
    | some id, some method =>
      some { history, server, files, now, id, method
             params := (message.get "params").getD .null }
    | _, _ => none
  | _ => none

variable (handlers : Handlers Files Analysis)

/-- The requests of a run, until the server exits. -/
def requests (history : List (Event Files)) (session : Session Analysis) :
    List (Event Files) → List (Request Files Analysis)
  | [] => []
  | event :: events =>
    (if session.server.exited then none else requestOf history session.server event).toList
      ++ requests (history ++ [event]) (session.step handlers event) events

/-- An update of the documents that is published. -/
def UpdateSucceeds (request : Request Files Analysis) : Prop :=
  match handlers.applyUpdate request.files request.method request.params
      request.server.analysis with
  | (_, .error _) => False
  | (analysis, .ok _) => (handlers.publishDiagnostics request.files analysis).2.isOk = true

/-- The method is that of a notification, which has nothing to answer unless it fails. -/
def Silent (request : Request Files Analysis) : Prop :=
  request.method ∈ ["initialized", "$/cancelRequest", "exit"]
    ∨ request.method ∈ documentMethods ∧ UpdateSucceeds handlers request

/-- The event is a message with a method and this key. -/
def Carries (key : String) : Event Files → Prop
  | .message _ _ message =>
    (messageMethod message).isSome = true ∧ (message.get "id").bind requestIdKey = some key
  | _ => False

/-- The event is a message that cancels the request with this key. -/
def Cancels (key : String) : Event Files → Prop
  | .message _ _ message =>
    messageMethod message = some "$/cancelRequest"
      ∧ (((message.get "params").getD .null).get "id").bind requestIdKey = some key
  | _ => False

/-- The event is a notification: it has no id. -/
def IsNotification : Event Files → Prop
  | .message _ _ message => message.get "id" = none
  | _ => False

/-- The request with this key has been cancelled since a message last carried the key. -/
def CancelledSince (key : String) (history : List (Event Files)) : Prop :=
  ∃ before event after, history = before ++ event :: after ∧ Cancels key event
    ∧ ∀ later ∈ after, ¬ Carries key later

/-- A notification has cancelled the request before any message carried its key. -/
def CancelledFirst (key : String) (history : List (Event Files)) : Prop :=
  (∃ event ∈ history, IsNotification event ∧ Cancels key event)
    ∧ ∀ event ∈ history, ¬ Carries key event

/-- What becomes of a request: at most one answer, which carries its id. There is one unless
the request was cancelled or has nothing to answer. -/
structure Answers (request : Request Files Analysis) (answer : Option Value) : Prop where
  responds : ∀ response, answer = some response → RespondsTo request.id response
  answered : (∀ key, requestIdKey request.id = some key → ¬ CancelledSince key request.history) →
    ¬ Silent handlers request → answer.isSome = true
  silent : Silent handlers request → answer = none
  dropped : (∃ key, requestIdKey request.id = some key ∧ CancelledFirst key request.history) →
    answer = none

end

/-! ## What the server remembers -/

section

variable {Files Analysis : Type}

/-- The scheduler remembers what has been cancelled since it was last carried, and among it
whatever was never carried. -/
structure Remembers (history : List (Event Files)) (scheduler : LspScheduler Value) : Prop where
  nodup : scheduler.canceledRequestIds.Nodup
  since : ∀ key ∈ scheduler.canceledRequestIds, CancelledSince key history
  first : ∀ key, CancelledFirst key history → key ∈ scheduler.canceledRequestIds

namespace Remembers

variable {history : List (Event Files)} {scheduler next : LspScheduler Value}

/-- Nothing is remembered that was carried last, nothing else is forgotten, and a
notification that cancels is remembered. -/
theorem step (h : Remembers history scheduler) {event : Event Files}
    (hnodup : next.canceledRequestIds.Nodup)
    (hsince : ∀ key ∈ next.canceledRequestIds,
      (key ∈ scheduler.canceledRequestIds ∧ ¬ Carries key event) ∨ Cancels key event)
    (hkept : ∀ key ∈ scheduler.canceledRequestIds, ¬ Carries key event →
      key ∈ next.canceledRequestIds)
    (hfirst : ∀ key, IsNotification event → Cancels key event → key ∈ next.canceledRequestIds) :
    Remembers (history ++ [event]) next := by
  constructor
  · exact hnodup
  · intro key hkey
    rcases hsince key hkey with ⟨hbefore, hcarries⟩ | hcancels
    · -- cancelled earlier, and this event does not carry the key
      rcases h.since key hbefore with ⟨before, cancel, after, rfl, hcancel, hafter⟩
      refine ⟨before, cancel, after ++ [event], by simp, hcancel, ?_⟩
      intro later hlater
      rcases List.mem_append.1 hlater with hlater | hlater
      · exact hafter later hlater
      · rw [List.mem_singleton.1 hlater]
        exact hcarries
    · exact ⟨history, event, [], rfl, hcancels, by simp⟩
  · rintro key ⟨⟨cancel, hcancel, hnotification, hcancels⟩, hcarries⟩
    have hnow : ¬ Carries key event := hcarries event (by simp)
    rcases List.mem_append.1 hcancel with hcancel | hcancel
    · have hbefore : CancelledFirst key history :=
        ⟨⟨cancel, hcancel, hnotification, hcancels⟩,
          fun earlier hearlier => hcarries earlier (List.mem_append_left _ hearlier)⟩
      exact hkept key (h.first key hbefore) hnow
    · rw [List.mem_singleton.1 hcancel] at hnotification hcancels
      exact hfirst key hnotification hcancels

/-- An event that is no message, and a scheduler with the same ids. -/
theorem keep (h : Remembers history scheduler) {event : Event Files}
    (hsame : next.canceledRequestIds = scheduler.canceledRequestIds)
    (hcarries : ∀ key, ¬ Carries key event) (hcancels : ∀ key, ¬ Cancels key event) :
    Remembers (history ++ [event]) next := by
  apply h.step
  · rw [hsame]
    exact h.nodup
  · intro key hkey
    rw [hsame] at hkey
    exact .inl ⟨hkey, hcarries key⟩
  · intro key hkey _
    rw [hsame]
    exact hkey
  · intro key _ hcancel
    exact absurd hcancel (hcancels key)

end Remembers

end

/-! ## The scheduler -/

namespace Scheduling

variable {Diag : Type} (scheduler : LspScheduler Diag)

theorem canceled_flushAll :
    scheduler.flushAll.1.canceledRequestIds = scheduler.canceledRequestIds := by
  unfold LspScheduler.flushAll
  split <;> rfl

theorem canceled_flushDueAfter (now : Nat) (method : String) :
    (scheduler.flushDueAfter now method).1.canceledRequestIds = scheduler.canceledRequestIds := by
  unfold LspScheduler.flushDueAfter
  split
  · rfl
  split
  · rfl
  split
  · rfl
  split
  · rfl
  · exact canceled_flushAll scheduler

theorem canceled_flushDueTimeout (now : Nat) :
    (scheduler.flushDueTimeout now).1.canceledRequestIds = scheduler.canceledRequestIds := by
  unfold LspScheduler.flushDueTimeout
  split
  · rfl
  split
  · exact canceled_flushAll scheduler
  · rfl

theorem takeCancellation_iff (id : Option String) :
    (scheduler.takeCancellation id).2 = true
      ↔ ∃ key, id = some key ∧ key ∈ scheduler.canceledRequestIds := by
  cases id with
  | none => simp [LspScheduler.takeCancellation]
  | some key => simp [LspScheduler.takeCancellation]

theorem canceled_takeCancellation (id : Option String) (hnodup : scheduler.canceledRequestIds.Nodup)
    (key : String) :
    key ∈ (scheduler.takeCancellation id).1.canceledRequestIds
      ↔ key ∈ scheduler.canceledRequestIds ∧ id ≠ some key := by
  cases id with
  | none => simp [LspScheduler.takeCancellation]
  | some taken =>
    show key ∈ scheduler.canceledRequestIds.erase taken ↔ _
    rw [hnodup.mem_erase_iff]
    constructor
    · rintro ⟨hne, hmem⟩
      exact ⟨hmem, fun h => hne (Option.some.inj h).symm⟩
    · rintro ⟨hmem, hne⟩
      exact ⟨fun h => hne (congrArg some h.symm), hmem⟩

theorem nodup_takeCancellation (id : Option String)
    (hnodup : scheduler.canceledRequestIds.Nodup) :
    (scheduler.takeCancellation id).1.canceledRequestIds.Nodup := by
  cases id with
  | none => exact hnodup
  | some taken => exact hnodup.erase taken

theorem canceled_immediate :
    scheduler.immediateOrDeferredNotifications.1.canceledRequestIds
      = scheduler.canceledRequestIds := by
  unfold LspScheduler.immediateOrDeferredNotifications
  split
  · rfl
  · exact canceled_flushAll scheduler

end Scheduling

/-! ## One message -/

section

variable {Files Analysis : Type} (handlers : Handlers Files Analysis) (files : Files) (now : Nat)

/-- A batch is published or it fails, and what is written at once is notifications. -/
theorem scheduleDiagnosticsBatch_cases (cleared : List String) (server : Server Analysis) :
    (scheduleDiagnosticsBatch handlers files now cleared server).1.scheduler.canceledRequestIds
        = server.scheduler.canceledRequestIds
      ∧ ((∃ error, (handlers.publishDiagnostics files server.analysis).2 = .error error
            ∧ (scheduleDiagnosticsBatch handlers files now cleared server).2 = .error error)
        ∨ ((handlers.publishDiagnostics files server.analysis).2.isOk = true
            ∧ ∃ notifications : List (Notification Value),
            (scheduleDiagnosticsBatch handlers files now cleared server).2
              = .ok (notifications.map publishDiagnosticsNotification))) := by
  unfold scheduleDiagnosticsBatch
  split
  · rename_i analysis error hpublish
    rw [hpublish]
    exact ⟨rfl, .inl ⟨error, rfl, rfl⟩⟩
  · rename_i analysis notifications hpublish
    rw [hpublish]
    exact ⟨Scheduling.canceled_immediate _, .inr ⟨rfl, _, rfl⟩⟩

/-- What a dispatch writes for a request is one answer, unless the request is silent. -/
theorem dispatchMessage_answers (history : List (Event Files)) (method : String) (id params : Value)
    (server : Server Analysis) :
    ∃ answer : Option Value,
      responses (responsesOf (some id)
        (dispatchMessage handlers files now method (some id) params server).2) = answer.toList
      ∧ (∀ response, answer = some response → RespondsTo id response)
      ∧ (answer.isSome = true
        ↔ ¬ Silent handlers { history, server, files, now, id, method, params }) := by
  -- a response is the answer of a request that is not silent
  have hanswer : ∀ response, RespondsTo id response →
      ¬ Silent handlers { history, server, files, now, id, method, params } →
      ∃ answer : Option Value, responses [response] = answer.toList
        ∧ (∀ response, answer = some response → RespondsTo id response)
        ∧ (answer.isSome = true
          ↔ ¬ Silent handlers { history, server, files, now, id, method, params }) := by
    intro response hresponds hloud
    refine ⟨some response, ?_, ?_, iff_of_true rfl hloud⟩
    · exact List.filter_cons_of_pos hresponds.isResponse
    · rintro other ⟨⟩
      exact hresponds
  -- a silent request has none
  have hnone : ∀ written, responses written = [] →
      Silent handlers { history, server, files, now, id, method, params } →
      ∃ answer : Option Value, responses written = answer.toList
        ∧ (∀ response, answer = some response → RespondsTo id response)
        ∧ (answer.isSome = true
          ↔ ¬ Silent handlers { history, server, files, now, id, method, params }) := by
    intro written hwritten hsilent
    refine ⟨none, hwritten, ?_, iff_of_false Bool.false_ne_true (not_not_intro hsilent)⟩
    rintro response ⟨⟩
  unfold dispatchMessage
  split
  · rename_i hmethod
    apply hanswer
    · exact okResponse_respondsTo rfl
    · rintro (hmem | ⟨hmem, -⟩) <;> simp [hmethod, documentMethods] at hmem
  split
  · rename_i hmethod
    exact hnone [] rfl (.inl (by simp [hmethod]))
  split
  · rename_i hmethod
    exact hnone [] rfl (.inl (by simp [hmethod]))
  split
  · rename_i hmethod
    apply hanswer
    · exact okResponse_respondsTo rfl
    · rintro (hmem | ⟨hmem, -⟩) <;> simp [hmethod, documentMethods] at hmem
  split
  · rename_i hmethod
    exact hnone [] rfl (.inl (by simp [hmethod]))
  -- from here on only an update that succeeds is silent
  rename_i hinitialized hcancel _ hexit
  have hdocument : Silent handlers { history, server, files, now, id, method, params } →
      method ∈ documentMethods
        ∧ UpdateSucceeds handlers { history, server, files, now, id, method, params } := by
    rintro (hmem | hdocument)
    · simp [hinitialized, hcancel, hexit] at hmem
    · exact hdocument
  split
  · rename_i hmem
    split
    · rename_i analysis error hupdate
      apply hanswer
      · exact jsonrpcResponse_respondsTo id error
      · intro hsilent
        have hsucceeds := (hdocument hsilent).2
        unfold UpdateSucceeds at hsucceeds
        dsimp only at hsucceeds
        rw [hupdate] at hsucceeds
        exact hsucceeds
    · rename_i analysis cleared hupdate
      have hcases := scheduleDiagnosticsBatch_cases handlers files now cleared
        { server with analysis }
      rcases hcases.2 with ⟨error, hpublish, hbatch⟩ | ⟨hpublish, notifications, hbatch⟩
      · rw [hbatch]
        apply hanswer
        · exact jsonrpcResponse_respondsTo id error
        · intro hsilent
          have hsucceeds := (hdocument hsilent).2
          unfold UpdateSucceeds at hsucceeds
          dsimp only at hsucceeds
          rw [hupdate] at hsucceeds
          dsimp only at hsucceeds
          rw [hpublish] at hsucceeds
          cases hsucceeds
      · rw [hbatch]
        apply hnone
        · exact responses_notifications notifications
        · refine .inr ⟨hmem, ?_⟩
          unfold UpdateSucceeds
          dsimp only
          rw [hupdate]
          exact hpublish
  · rename_i hmem
    have hloud : ¬ Silent handlers { history, server, files, now, id, method, params } :=
      fun hsilent => hmem (hdocument hsilent).1
    split
    · split
      · exact hanswer _ (jsonrpcResponse_respondsTo id _) hloud
      · exact hanswer _ (okResponse_respondsTo rfl) hloud
    · exact hanswer _ (jsonrpcResponse_respondsTo id _) hloud

/-- Nothing is written to answer a message without an id. -/
theorem dispatchMessage_no_id (method : String) (params : Value) (server : Server Analysis) :
    responses (responsesOf none
      (dispatchMessage handlers files now method none params server).2) = [] := by
  unfold dispatchMessage
  repeat
    split
    · rfl
  split
  · split
    · rfl
    · rename_i analysis cleared _
      have hcases := scheduleDiagnosticsBatch_cases handlers files now cleared
        { server with analysis }
      rcases hcases.2 with ⟨error, -, hbatch⟩ | ⟨-, notifications, hbatch⟩
      · rw [hbatch]
        rfl
      · rw [hbatch]
        exact responses_notifications notifications
  split
  · split <;> rfl
  · rfl

/-- Only a cancellation changes the ids that are cancelled. -/
theorem dispatchMessage_canceled (method : String) (id : Option Value) (params : Value)
    (server : Server Analysis) :
    (dispatchMessage handlers files now method id params server).1.scheduler.canceledRequestIds
      = if method = "$/cancelRequest" then
          (cancelRequest params server.scheduler).canceledRequestIds
        else server.scheduler.canceledRequestIds := by
  unfold dispatchMessage
  split
  · rename_i hmethod
    rw [hmethod, if_neg (by decide)]
  split
  · rename_i hmethod
    rw [hmethod, if_neg (by decide)]
  split
  · rfl
  split
  · rfl
  split
  · rfl
  split
  · split
    · rfl
    · exact (scheduleDiagnosticsBatch_cases handlers files now _ _).1
  split
  · split <;> rfl
  split <;> rfl

/-- A cancellation remembers the key that its parameters name. -/
theorem mem_cancelRequest (params : Value) (scheduler : LspScheduler Value) (key : String) :
    key ∈ (cancelRequest params scheduler).canceledRequestIds
      ↔ key ∈ scheduler.canceledRequestIds ∨ (params.get "id").bind requestIdKey = some key := by
  unfold cancelRequest
  cases hkey : (params.get "id").bind requestIdKey with
  | none => simp
  | some named =>
    simp only [LspScheduler.cancelRequest, List.mem_insert_iff, Option.some.injEq]
    exact ⟨fun h => h.elim (fun h => .inr h.symm) .inl, fun h => h.elim .inr fun h => .inl h.symm⟩

theorem nodup_cancelRequest (params : Value) {scheduler : LspScheduler Value}
    (hnodup : scheduler.canceledRequestIds.Nodup) :
    (cancelRequest params scheduler).canceledRequestIds.Nodup := by
  unfold cancelRequest
  cases (params.get "id").bind requestIdKey with
  | none => exact hnodup
  | some named => exact List.Nodup.insert hnodup

/-- A message without a method is ignored, one whose key is cancelled is dropped, and any other
is dispatched. -/
theorem handleMessage_cases (message : Value) (server : Server Analysis) :
    (messageMethod message = none
        ∧ handleMessage handlers files now message server = (server, []))
      ∨ (∃ method, messageMethod message = some method
        ∧ (∃ key, (message.get "id").bind requestIdKey = some key
          ∧ key ∈ server.scheduler.canceledRequestIds)
        ∧ (handleMessage handlers files now message server).2 = []
        ∧ (handleMessage handlers files now message server).1.scheduler.canceledRequestIds
          = (server.scheduler.takeCancellation
              ((message.get "id").bind requestIdKey)).1.canceledRequestIds)
      ∨ (∃ method dispatched, messageMethod message = some method
        ∧ (¬ ∃ key, (message.get "id").bind requestIdKey = some key
          ∧ key ∈ server.scheduler.canceledRequestIds)
        ∧ dispatched = dispatchMessage handlers files now method (message.get "id")
          ((message.get "params").getD .null)
          { server with
            scheduler := (server.scheduler.takeCancellation
              ((message.get "id").bind requestIdKey)).1 }
        ∧ responses (handleMessage handlers files now message server).2
          = responses (responsesOf (message.get "id") dispatched.2)
        ∧ (handleMessage handlers files now message server).1.scheduler.canceledRequestIds
          = dispatched.1.scheduler.canceledRequestIds) := by
  have htaken := Scheduling.takeCancellation_iff server.scheduler
    ((message.get "id").bind requestIdKey)
  unfold handleMessage
  cases hmethod : messageMethod message with
  | none => exact .inl ⟨rfl, rfl⟩
  | some method =>
    dsimp only
    split
    · rename_i hcanceled
      exact .inr (.inl ⟨method, rfl, htaken.1 hcanceled, rfl, rfl⟩)
    · rename_i hcanceled
      refine .inr (.inr ⟨method, _, rfl, fun h => hcanceled (htaken.2 h), rfl, ?_, ?_⟩)
      · rw [responses_append, responses_notifications, List.append_nil]
      · exact Scheduling.canceled_flushDueAfter _ now method

/-- What is remembered after a message. -/
theorem handleMessage_remembers {history : List (Event Files)} {server : Server Analysis}
    (h : Remembers history server.scheduler) (message : Value) :
    Remembers (history ++ [.message now files message])
      (handleMessage handlers files now message server).1.scheduler := by
  have hmem := Scheduling.canceled_takeCancellation server.scheduler
    ((message.get "id").bind requestIdKey) h.nodup
  have hnodup := Scheduling.nodup_takeCancellation server.scheduler
    ((message.get "id").bind requestIdKey) h.nodup
  rcases handleMessage_cases handlers files now message server with
    ⟨hmethod, hhandled⟩ | ⟨method, hmethod, ⟨taken, hid, htaken⟩, -, hcanceled⟩
      | ⟨method, dispatched, hmethod, hkept, hdispatched, -, hcanceled⟩
  · rw [hhandled]
    apply h.keep rfl
    · rintro key ⟨hsome, -⟩
      rw [hmethod] at hsome
      cases hsome
    · rintro key ⟨hcancel, -⟩
      rw [hmethod] at hcancel
      cases hcancel
  · -- dropped: the key is forgotten
    apply h.step
    · rw [hcanceled]
      exact hnodup
    · intro key hkey
      rw [hcanceled, hmem] at hkey
      exact .inl ⟨hkey.1, fun hcarries => hkey.2 hcarries.2⟩
    · intro key hkey hcarries
      rw [hcanceled, hmem]
      exact ⟨hkey, fun hcarried => hcarries ⟨by rw [hmethod]; rfl, hcarried⟩⟩
    · -- a dropped message has an id
      intro key hnotification _
      have hnone : message.get "id" = none := hnotification
      rw [hnone] at hid
      cases hid
  · -- dispatched: only a cancellation adds a key
    rw [hdispatched, dispatchMessage_canceled] at hcanceled
    apply h.step
    · rw [hcanceled]
      split
      · exact nodup_cancelRequest _ hnodup
      · exact hnodup
    · intro key hkey
      rw [hcanceled] at hkey
      split at hkey
      · rename_i hcancel
        rcases (mem_cancelRequest _ _ key).1 hkey with hkey | hkey
        · have hbefore := (hmem key).1 hkey
          exact .inl ⟨hbefore.1, fun hcarries => hbefore.2 hcarries.2⟩
        · exact .inr ⟨by rw [hmethod, hcancel], hkey⟩
      · have hbefore := (hmem key).1 hkey
        exact .inl ⟨hbefore.1, fun hcarries => hbefore.2 hcarries.2⟩
    · intro key hkey hcarries
      have hafter : key ∈ (server.scheduler.takeCancellation
          ((message.get "id").bind requestIdKey)).1.canceledRequestIds :=
        (hmem key).2 ⟨hkey, fun hcarried => hcarries ⟨by rw [hmethod]; rfl, hcarried⟩⟩
      rw [hcanceled]
      split
      · exact (mem_cancelRequest _ _ key).2 (.inl hafter)
      · exact hafter
    · rintro key - ⟨hcancel, hnamed⟩
      have hname : method = "$/cancelRequest" := by
        rw [hmethod] at hcancel
        exact Option.some.inj hcancel
      rw [hcanceled, if_pos hname]
      exact (mem_cancelRequest _ _ key).2 (.inr hnamed)

/-- A request has at most one answer, and one unless it is cancelled or silent. -/
theorem handleMessage_answers {history : List (Event Files)} {server : Server Analysis}
    (h : Remembers history server.scheduler) {message : Value} {request : Request Files Analysis}
    (hrequest : requestOf history server (.message now files message) = some request) :
    ∃ answer : Option Value,
      responses (handleMessage handlers files now message server).2 = answer.toList
        ∧ Answers handlers request answer := by
  unfold requestOf at hrequest
  dsimp only at hrequest
  split at hrequest
  · rename_i id method hid hmethod
    cases hrequest
    rcases handleMessage_cases handlers files now message server with
      ⟨hnone, -⟩ | ⟨_, -, ⟨key, hkey, hcanceled⟩, hwritten, -⟩
        | ⟨other, dispatched, hother, hkept, hdispatched, hwritten, -⟩
    · rw [hmethod] at hnone
      cases hnone
    · rw [hid] at hkey
      refine ⟨none, by rw [hwritten]; rfl, ?_⟩
      constructor
      · rintro response ⟨⟩
      · intro hsince _
        exact absurd (h.since key hcanceled) (hsince key hkey)
      · intro _
        rfl
      · intro _
        rfl
    · rw [hmethod] at hother
      cases hother
      rw [hid] at hdispatched hkept hwritten
      rcases dispatchMessage_answers handlers files now history method id
        ((message.get "params").getD .null)
        { server with scheduler := (server.scheduler.takeCancellation
            ((some id).bind requestIdKey)).1 } with ⟨answer, hanswer, hresponds, hsome⟩
      refine ⟨answer, ?_, ?_⟩
      · rw [hwritten, hdispatched]
        exact hanswer
      constructor
      · exact hresponds
      · intro _ hloud
        exact hsome.2 hloud
      · intro hsilent
        rw [← Option.not_isSome_iff_eq_none]
        exact fun hanswered => hsome.1 hanswered hsilent
      · rintro ⟨key, hkey, hfirst⟩
        exact absurd ⟨key, hkey, h.first key hfirst⟩ hkept
  · cases hrequest

/-- A message that is no request has no answer. -/
theorem handleMessage_no_request {history : List (Event Files)} {server : Server Analysis}
    {message : Value}
    (hrequest : requestOf history server (.message now files message) = none) :
    responses (handleMessage handlers files now message server).2 = [] := by
  rcases handleMessage_cases handlers files now message server with
    ⟨-, hhandled⟩ | ⟨_, -, -, hwritten, -⟩ | ⟨method, dispatched, hmethod, -, hdispatched, hwritten, -⟩
  · rw [hhandled]
    rfl
  · rw [hwritten]
    rfl
  · have hid : message.get "id" = none := by
      unfold requestOf at hrequest
      dsimp only at hrequest
      rw [hmethod] at hrequest
      cases hid : message.get "id" with
      | none => rfl
      | some id =>
        rw [hid] at hrequest
        cases hrequest
    rw [hid] at hdispatched hwritten
    rw [hwritten, hdispatched]
    exact dispatchMessage_no_id handlers files now method _ _

end

/-! ## Runs -/

section

variable {Files Analysis : Type} (handlers : Handlers Files Analysis)

/-- The responses of a session, and what its server remembers as long as it serves. -/
def Serving (history : List (Event Files)) (session : Session Analysis) : Prop :=
  session.server.exited = false → Remembers history session.server.scheduler

theorem responses_stop (session : Session Analysis) :
    responses session.stop.written = responses session.written := by
  show responses (session.written ++ _) = _
  rw [responses_append, responses_notifications, List.append_nil]

/-- One step of the main loop: what it writes are the answers of its request, if it has one. -/
theorem step_answers {history : List (Event Files)} {session : Session Analysis}
    (h : Serving history session) (event : Event Files) :
    Serving (history ++ [event]) (session.step handlers event)
      ∧ ∃ answers : List (Option Value),
        responses (session.step handlers event).written
            = responses session.written ++ answers.reduceOption
          ∧ List.Forall₂ (Answers handlers)
            (if session.server.exited then none
              else requestOf history session.server event).toList answers := by
  unfold Session.step
  cases hexited : session.server.exited with
  | true =>
    refine ⟨fun hserving => ?_, [], by simp [List.reduceOption], by simp⟩
    rw [if_pos rfl, hexited] at hserving
    cases hserving
  | false =>
    have hremembers := h hexited
    simp only [Bool.false_eq_true, if_false]
    cases event with
    | message now files message =>
      have hnext := handleMessage_remembers handlers files now hremembers message
      dsimp only
      constructor
      · intro hserving
        split at hserving
        · cases hserving
        · rename_i hrunning
          rw [if_neg hrunning]
          exact hnext
      · have hwritten : ∀ server : Server Analysis, ∀ written,
            responses (if server.exited = true then
                Session.stop { server, written := session.written ++ written }
              else { server, written := session.written ++ written }).written
              = responses session.written ++ responses written := by
          intro server written
          rw [← responses_append]
          split
          · exact responses_stop _
          · rfl
        rw [hwritten]
        cases hrequest : requestOf history session.server (.message now files message) with
        | none =>
          refine ⟨[], ?_, .nil⟩
          rw [handleMessage_no_request handlers files now hrequest]
          rfl
        | some request =>
          rcases handleMessage_answers handlers files now hremembers hrequest with
            ⟨answer, hanswer, hanswers⟩
          refine ⟨[answer], ?_, .cons hanswers .nil⟩
          rw [hanswer]
          cases answer <;> rfl
    | timeout now =>
      refine ⟨fun _ => ?_, [], ?_, .nil⟩
      · exact hremembers.keep (Scheduling.canceled_flushDueTimeout _ now)
          (fun _ => id) (fun _ => id)
      · rw [responses_append, responses_notifications]
        rfl
    | endOfInput =>
      refine ⟨fun hserving => ?_, [], ?_, .nil⟩
      · cases hserving
      · rw [responses_stop]
        exact (List.append_nil _).symm

/-- A run of the main loop. -/
theorem run_answers {history : List (Event Files)} {session : Session Analysis}
    (h : Serving history session) (events : List (Event Files)) :
    ∃ answers : List (Option Value),
      responses (events.foldl (Session.step handlers) session).written
          = responses session.written ++ answers.reduceOption
        ∧ List.Forall₂ (Answers handlers) (requests handlers history session events) answers := by
  induction events generalizing history session with
  | nil => exact ⟨[], (List.append_nil _).symm, .nil⟩
  | cons event events ih =>
    rcases step_answers handlers h event with ⟨hnext, first, hfirst, hstep⟩
    rcases ih hnext with ⟨rest, hrest, hrun⟩
    refine ⟨first ++ rest, ?_, List.rel_append hstep hrun⟩
    rw [List.foldl_cons, hrest, hfirst, List.append_assoc, List.reduceOption_append]

/-- Of the requests that a server gets until it exits, in any order and with any
cancellations, each has at most one answer, with its id and in its turn: one unless it was
cancelled since its id was last used or has nothing to answer. -/
theorem requests_answered_in_turn (analysis : Analysis) (debounce : Nat)
    (events : List (Event Files)) :
    ∃ answers : List (Option Value),
      responses (events.foldl (Session.step handlers) (Session.start analysis debounce)).written
          = answers.reduceOption
        ∧ List.Forall₂ (Answers handlers)
          (requests handlers [] (Session.start analysis debounce) events) answers := by
  have hstart : Serving ([] : List (Event Files)) (Session.start analysis debounce) := by
    intro _
    constructor
    · exact List.nodup_nil
    · rintro key ⟨⟩
    · rintro key ⟨⟨event, ⟨⟩, -⟩, -⟩
  exact run_answers handlers hstart events

end

/-! ## An id that is used again -/

/-- Handlers of documents that have nothing in them. -/
def emptyHandlers : Handlers Unit Unit where
  applyUpdate := fun _ _ _ analysis => (analysis, .ok [])
  publishDiagnostics := fun _ analysis => (analysis, .ok [])
  query := fun _ _ _ analysis => (analysis, .ok .null)

def symbolRequest : Event Unit :=
  .message 0 () (.object [("jsonrpc", .string "2.0"), ("id", .number 1),
    ("method", .string "workspace/symbol"), ("params", .object [("query", .string "")])])

def cancellation : Event Unit :=
  .message 0 () (.object [("jsonrpc", .string "2.0"), ("method", .string "$/cancelRequest"),
    ("params", .object [("id", .number 1)])])

/-- A request is answered, then cancelled, and its id is used for another one. -/
def reusedId : List (Event Unit) := [symbolRequest, cancellation, symbolRequest]

/-- Not every request is answered. -/
theorem reusedId_not_answered :
    ¬ ∀ events : List (Event Unit),
      List.Forall₂ (fun request response => RespondsTo request.id response)
        (requests emptyHandlers [] (Session.start () 40) events)
        (responses (events.foldl (Session.step emptyHandlers) (Session.start () 40)).written) := by
  intro h
  have hrequests : (requests emptyHandlers [] (Session.start () 40) reusedId).length = 2 := by
    decide +kernel
  have hresponses : (responses (reusedId.foldl (Session.step emptyHandlers)
      (Session.start () 40)).written).length = 1 := by
    decide +kernel
  have hlength := (h reusedId).length_eq
  omega

end TypePython.Lsp.Rpc
