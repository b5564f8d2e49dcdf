import TypePython.Lib.LastEntry
import TypePython.Lib.Text
import TypePython.Lsp.Server

/-!
# What the client sees

Whether the diagnostics a client has been sent are those of the workspace. The batch that
waits is part of what the client is going to see, and a newer batch replaces it. So a notice
that clears a URI can be lost (`staleRun_not_shows`), and nothing else can
(`settled_shows`).
-/

namespace TypePython.Lsp

open Std
open TypePython.Lib

section

variable {Files Caches Diag Change : Type}

def diagnosticsOf (host : AnalysisHost Caches Diag) : DiagnosticsByUri Diag :=
  match host.cachedWorkspace with
  | some workspace => workspace.diagnosticsByUri
  | none => ∅

/-- The client sees the diagnostics of the workspace, and none of other URIs. -/
structure Shows (published : List (Notification Diag)) (diagnostics : DiagnosticsByUri Diag) :
    Prop where
  current : ∀ uri found, diagnostics[uri]? = some found → lastEntry published uri = some found
  cleared : ∀ uri, diagnostics[uri]? = none →
    lastEntry published uri = none ∨ lastEntry published uri = some []

/-- A batch has been scheduled and flushed, and no other waits. -/
def Settled (session : Session Caches Diag) : Prop :=
  session.server.scheduler.pendingDiagnostics = none
    ∧ 0 < session.server.scheduler.nextRevision

/-- The client sees diagnostics of a URI. -/
def SeesDiagnostics (published : List (Notification Diag)) (uri : String) : Prop :=
  ∃ found, lastEntry published uri = some found ∧ found ≠ []

/-! ## The scheduler loses nothing but what it replaces -/

namespace LspScheduler

/-- The notifications that wait. -/
def waiting (scheduler : LspScheduler Diag) : List (Notification Diag) :=
  match scheduler.pendingDiagnostics with
  | some pending => pending.notifications
  | none => []

/-- What is flushed and what still waits is what waited before. -/
def Conserves (before : LspScheduler Diag)
    (after : LspScheduler Diag × List (Notification Diag)) : Prop :=
  after.2 ++ after.1.waiting = before.waiting ∧ after.1.nextRevision = before.nextRevision

theorem conserves_self (scheduler : LspScheduler Diag) : Conserves scheduler (scheduler, []) :=
  ⟨rfl, rfl⟩

theorem conserves_flushAll (scheduler : LspScheduler Diag) :
    Conserves scheduler scheduler.flushAll := by
  unfold Conserves flushAll waiting
  cases hpending : scheduler.pendingDiagnostics with
  | none => simp [hpending]
  | some pending => simp

theorem conserves_immediate (scheduler : LspScheduler Diag) :
    Conserves scheduler scheduler.immediateOrDeferredNotifications := by
  unfold immediateOrDeferredNotifications
  split
  · exact conserves_self scheduler
  · exact conserves_flushAll scheduler

theorem conserves_flushDueAfter (now : Nat) (method : String) (scheduler : LspScheduler Diag) :
    Conserves scheduler (scheduler.flushDueAfter now method) := by
  unfold flushDueAfter
  split
  · exact conserves_self scheduler
  · split
    · exact conserves_self scheduler
    · rename_i pending hpending
      split
      · exact conserves_self scheduler
      · split
        · -- a deferral only counts
          unfold Conserves waiting
          rw [hpending]
          exact ⟨rfl, rfl⟩
        · exact conserves_flushAll scheduler

theorem conserves_flushDueTimeout (now : Nat) (scheduler : LspScheduler Diag) :
    Conserves scheduler (scheduler.flushDueTimeout now) := by
  unfold flushDueTimeout
  split
  · exact conserves_self scheduler
  · split
    · exact conserves_flushAll scheduler
    · exact conserves_self scheduler

theorem takeCancellation_waiting (id : Option String) (scheduler : LspScheduler Diag) :
    (scheduler.takeCancellation id).1.waiting = scheduler.waiting
      ∧ (scheduler.takeCancellation id).1.nextRevision = scheduler.nextRevision := by
  cases id <;> exact ⟨rfl, rfl⟩

end LspScheduler

/-! ## One batch -/

/-- The URIs of the open documents. -/
def openUris (overlays : Overlays) : List String :=
  (overlays.toList.map Prod.snd).map OverlayDocument.uri

/-- The notifications for a workspace say what its diagnostics are. -/
theorem lastEntry_notifications (overlays : Overlays) (diagnostics : DiagnosticsByUri Diag)
    (uri : String) :
    lastEntry (diagnosticNotifications overlays diagnostics) uri
      = match diagnostics[uri]? with
        | some found => some found
        | none => if uri ∈ openUris overlays then some [] else none := by
  have hopen : ((overlays.toList.map Prod.snd).filter fun overlay =>
      !diagnostics.contains overlay.uri).map (fun overlay => ((overlay.uri, []) : Notification Diag))
      = (((overlays.toList.map Prod.snd).filter fun overlay =>
          !diagnostics.contains overlay.uri).map OverlayDocument.uri).map fun uri => (uri, []) := by
    rw [List.map_map]
    rfl
  unfold diagnosticNotifications
  rw [lastEntry_append, lastEntry_toList, hopen, lastEntry_map_const]
  rcases hfound : diagnostics[uri]? with _ | found
  · -- a URI of no document of the workspace
    have hnot : diagnostics.contains uri = false := by
      rw [ExtTreeMap.contains_eq_isSome_getElem?, hfound, Option.isSome_none]
    have hmem : uri ∈ ((overlays.toList.map Prod.snd).filter fun overlay =>
        !diagnostics.contains overlay.uri).map OverlayDocument.uri ↔ uri ∈ openUris overlays := by
      unfold openUris
      simp only [List.mem_map, List.mem_filter]
      constructor
      · rintro ⟨overlay, ⟨hoverlay, -⟩, rfl⟩
        exact ⟨overlay, hoverlay, rfl⟩
      · rintro ⟨overlay, hoverlay, rfl⟩
        exact ⟨overlay, ⟨hoverlay, by rw [hnot]; rfl⟩, rfl⟩
    simp only [hmem, Option.or_none]
  · have hnot : uri ∉ ((overlays.toList.map Prod.snd).filter fun overlay =>
        !diagnostics.contains overlay.uri).map OverlayDocument.uri := by
      intro hmem
      obtain ⟨overlay, hoverlay, rfl⟩ := List.mem_map.1 hmem
      have hfiltered := (List.mem_filter.1 hoverlay).2
      rw [ExtTreeMap.contains_eq_isSome_getElem?, hfound] at hfiltered
      cases hfiltered
    rw [if_neg hnot, Option.none_or]

/-- A batch clears what the client sees, as long as nothing it sees is left out. -/
theorem batch_shows {published : List (Notification Diag)} {cleared : List String}
    {overlays : Overlays} {diagnostics : DiagnosticsByUri Diag}
    (h : ∀ uri, SeesDiagnostics published uri →
      uri ∈ diagnostics ∨ uri ∈ cleared ∨ uri ∈ openUris overlays) :
    Shows (published
      ++ ((cleared.map fun uri => (uri, [])) ++ diagnosticNotifications overlays diagnostics))
      diagnostics := by
  constructor
  · intro uri found hfound
    rw [lastEntry_append, lastEntry_append, lastEntry_notifications, hfound]
    rfl
  · intro uri hnone
    rw [lastEntry_append, lastEntry_append, lastEntry_notifications, lastEntry_map_const, hnone]
    by_cases hopen : uri ∈ openUris overlays
    · rw [if_pos hopen]
      exact .inr rfl
    rw [if_neg hopen, Option.none_or]
    by_cases hcleared : uri ∈ cleared
    · rw [if_pos hcleared]
      exact .inr rfl
    rw [if_neg hcleared, Option.none_or]
    rcases hlast : lastEntry published uri with _ | found
    · exact .inl rfl
    by_cases hempty : found = []
    · rw [hempty]
      exact .inr rfl
    · rcases h uri ⟨found, hlast, hempty⟩ with hmem | hmem | hmem
      · rw [ExtTreeMap.mem_iff_isSome_getElem?, hnone] at hmem
        cases hmem
      · exact absurd hmem hcleared
      · exact absurd hmem hopen

/-! ## Updates keep the workspace -/

theorem updateWorkspace_isSome
    (update : IncrementalWorkspace Caches Diag → WorkspaceUpdate Caches Diag)
    (host : AnalysisHost Caches Diag) :
    (updateWorkspace update host).1.cachedWorkspace.isSome = host.cachedWorkspace.isSome := by
  unfold updateWorkspace
  cases hcached : host.cachedWorkspace with
  | none => simp [hcached]
  | some workspace => cases hresult : (update workspace).result <;> simp [hresult]

variable (ops : WorkspaceOps Files Caches Diag Change) (files : Files)

theorem changeWatchedFiles_isSome (changes : List LspWatchedFileChange) (cleared : List String)
    (host : AnalysisHost Caches Diag) :
    (changeWatchedFiles ops files changes cleared host).1.cachedWorkspace.isSome
      = host.cachedWorkspace.isSome := by
  induction changes generalizing cleared host with
  | nil => rfl
  | cons change changes ih =>
    unfold changeWatchedFiles
    split
    · rfl
    · rename_i path _
      have hupdated := updateWorkspace_isSome (fun workspace =>
        ops.applyFileSystemPathUpdate files workspace path host.overlays[path]?) host
      dsimp only
      split
      · rename_i hupdate
        rw [ih, ← hupdated, hupdate]
      · rename_i hupdate
        rw [← hupdated, hupdate]

theorem updateAnalysis_isSome (message : Message Change) (host : AnalysisHost Caches Diag) :
    (updateAnalysis ops files message host).1.cachedWorkspace.isSome
      = host.cachedWorkspace.isSome := by
  cases message with
  | didOpen uri text version =>
    show (openDocument ops files uri text version host).1.cachedWorkspace.isSome = _
    unfold openDocument
    split
    · rfl
    · exact updateWorkspace_isSome _ _
  | didChange uri version contentChanges =>
    show (changeDocument ops files uri version contentChanges host).1.cachedWorkspace.isSome = _
    unfold changeDocument
    split
    · rfl
    split
    · rfl
    split
    · rfl
    split
    · rfl
    split
    · rfl
    · exact updateWorkspace_isSome _ _
  | didClose uri =>
    show (closeDocument ops files uri host).1.cachedWorkspace.isSome = _
    unfold closeDocument
    split
    · rfl
    split
    · rfl
    · exact updateWorkspace_isSome _ _
  | didChangeWatchedFiles changes =>
    unfold updateAnalysis
    dsimp only
    split
    · rfl
    · exact changeWatchedFiles_isSome ops files changes [] host
  | _ => rfl

/-! ## Runs -/

/-- The step clears what it takes away: when the update of a message succeeds, every URI the
client sees diagnostics of is one of the workspace, or is cleared by the message, or belongs to
an open document. When the update fails, the diagnostics of the workspace are as they were. -/
def ClearsWhatLeaves (session : Session Caches Diag) : Event Files Change → Prop
  | .message _ files _ message =>
    match updateAnalysis ops files message session.server.analysis with
    | (host, some (.ok cleared)) =>
      ∀ uri, SeesDiagnostics session.published uri →
        uri ∈ diagnosticsOf host ∨ uri ∈ cleared ∨ uri ∈ openUris host.overlays
    | (host, some (.error _)) =>
      diagnosticsOf host = diagnosticsOf session.server.analysis
    | (_, none) => True
  | _ => True

def AllClear (session : Session Caches Diag) : List (Event Files Change) → Prop
  | [] => True
  | event :: events => ClearsWhatLeaves ops session event ∧ AllClear (session.step ops event) events

/-- What the client has been sent, together with what waits for it, is what the workspace
says. Nothing is sent before the first batch, and no batch comes without a workspace. -/
structure Consistent (published : List (Notification Diag)) (server : Server Caches Diag) :
    Prop where
  silent : server.scheduler.nextRevision = 0 → published ++ server.scheduler.waiting = []
  workspace : 0 < server.scheduler.nextRevision → server.analysis.cachedWorkspace.isSome = true
  shows : 0 < server.scheduler.nextRevision →
    Shows (published ++ server.scheduler.waiting) (diagnosticsOf server.analysis)

namespace Consistent

variable {published : List (Notification Diag)} {server : Server Caches Diag}

/-- Flushing moves notifications, the analysis stays. -/
theorem flushed (h : Consistent published server)
    {after : LspScheduler Diag × List (Notification Diag)}
    (hconserves : server.scheduler.Conserves after) :
    Consistent (published ++ after.2) { server with scheduler := after.1 } := by
  have hwaiting : published ++ after.2 ++ after.1.waiting = published ++ server.scheduler.waiting := by
    rw [List.append_assoc, hconserves.1]
  constructor
  · intro hrevision
    show published ++ after.2 ++ after.1.waiting = []
    rw [hwaiting]
    exact h.silent (hconserves.2.symm.trans hrevision)
  · intro hrevision
    exact h.workspace (Nat.lt_of_lt_of_eq hrevision hconserves.2)
  · intro hrevision
    show Shows (published ++ after.2 ++ after.1.waiting) _
    rw [hwaiting]
    exact h.shows (Nat.lt_of_lt_of_eq hrevision hconserves.2)

/-- A scheduler with the same batch and another set of cancelled requests. -/
theorem rescheduled (h : Consistent published server) {scheduler : LspScheduler Diag}
    (hwaiting : scheduler.waiting = server.scheduler.waiting)
    (hrevision : scheduler.nextRevision = server.scheduler.nextRevision) :
    Consistent published { server with scheduler } := by
  have hconserves : server.scheduler.Conserves (scheduler, []) := ⟨hwaiting, hrevision⟩
  have hflushed := h.flushed hconserves
  rwa [List.append_nil] at hflushed

/-- An update that leaves the diagnostics alone. -/
theorem unpublished (h : Consistent published server) {host : AnalysisHost Caches Diag}
    (hsome : server.analysis.cachedWorkspace.isSome = true → host.cachedWorkspace.isSome = true)
    (hsame : server.analysis.cachedWorkspace.isSome = true →
      diagnosticsOf host = diagnosticsOf server.analysis) :
    Consistent published { server with analysis := host } := by
  refine ⟨h.silent, fun hrevision => hsome (h.workspace hrevision), fun hrevision => ?_⟩
  show Shows _ (diagnosticsOf host)
  rw [hsame (h.workspace hrevision)]
  exact h.shows hrevision

/-- The client sees nothing before there is a workspace. -/
theorem workspace_of_sees (h : Consistent published server) {uri : String}
    (hsees : SeesDiagnostics published uri) :
    server.analysis.cachedWorkspace.isSome = true := by
  apply h.workspace
  apply Nat.pos_of_ne_zero
  intro hrevision
  have hnothing := (List.append_eq_nil_iff.1 (h.silent hrevision)).1
  obtain ⟨found, hfound, -⟩ := hsees
  rw [hnothing] at hfound
  cases hfound

end Consistent

/-- The workspace that is asked for is the one there is. -/
theorem ensureWorkspace_of_isSome {host : AnalysisHost Caches Diag}
    (h : host.cachedWorkspace.isSome = true) :
    (ensureWorkspace ops files host).1 = host := by
  obtain ⟨workspace, hworkspace⟩ := Option.isSome_iff_exists.1 h
  unfold ensureWorkspace
  rw [hworkspace]

variable (now : Nat)

/-- A new batch takes the place of the one that waits, and says all that one did. -/
theorem scheduleDiagnosticsBatch_consistent {published : List (Notification Diag)}
    {server : Server Caches Diag} {cleared : List String} {host : AnalysisHost Caches Diag}
    (h : Consistent published server)
    (hsome : host.cachedWorkspace.isSome = server.analysis.cachedWorkspace.isSome)
    (hclears : ∀ uri, SeesDiagnostics published uri →
      uri ∈ diagnosticsOf host ∨ uri ∈ cleared ∨ uri ∈ openUris host.overlays) :
    Consistent
      (published
        ++ (scheduleDiagnosticsBatch ops files now cleared { server with analysis := host }).2)
      (scheduleDiagnosticsBatch ops files now cleared { server with analysis := host }).1 := by
  -- whichever workspace it is, the batch schedules what it says
  have hbatch : ∀ (host' : AnalysisHost Caches Diag) (workspace : IncrementalWorkspace Caches Diag),
      host'.cachedWorkspace = some workspace → host'.overlays = host.overlays →
      (∀ uri, SeesDiagnostics published uri →
        uri ∈ workspace.diagnosticsByUri ∨ uri ∈ cleared ∨ uri ∈ openUris host.overlays) →
      Consistent published
        { server with
          analysis := host'
          scheduler := server.scheduler.scheduleDiagnostics now
            ((cleared.map fun uri => (uri, []))
              ++ diagnosticNotifications host'.overlays workspace.diagnosticsByUri) } := by
    intro host' workspace hcached hoverlays hsees
    refine ⟨fun hrevision => absurd hrevision (Nat.succ_ne_zero _), fun _ => ?_, fun _ => ?_⟩
    · show host'.cachedWorkspace.isSome = true
      rw [hcached]
      rfl
    · have hdiagnostics : diagnosticsOf host' = workspace.diagnosticsByUri := by
        unfold diagnosticsOf
        rw [hcached]
      show Shows (published ++ (_ ++ diagnosticNotifications host'.overlays _)) (diagnosticsOf host')
      rw [hdiagnostics, hoverlays]
      exact batch_shows hsees
  unfold scheduleDiagnosticsBatch publishDiagnostics ensureWorkspace
  dsimp only
  cases hcached : host.cachedWorkspace with
  | some workspace =>
    apply (hbatch host workspace hcached rfl ?_).flushed (LspScheduler.conserves_immediate _)
    have hdiagnostics : diagnosticsOf host = workspace.diagnosticsByUri := by
      unfold diagnosticsOf
      rw [hcached]
    rw [← hdiagnostics]
    exact hclears
  | none =>
    -- no workspace yet, so nothing has been published
    have hnone : ¬ host.cachedWorkspace.isSome = true := by simp [hcached]
    have hsilent : ∀ uri, ¬ SeesDiagnostics published uri := by
      intro uri hsees
      exact hnone (hsome.trans (h.workspace_of_sees hsees))
    cases hnew : ops.new files host.overlays with
    | ok workspace =>
      exact (hbatch { host with cachedWorkspace := some workspace } workspace rfl rfl
        fun uri hsees => absurd hsees (hsilent uri)).flushed
          (LspScheduler.conserves_immediate _)
    | error error =>
      show Consistent (published ++ []) { server with analysis := host }
      rw [List.append_nil]
      have hbefore : ¬ server.analysis.cachedWorkspace.isSome = true := by
        rwa [← hsome]
      exact h.unpublished (fun hworkspace => absurd hworkspace hbefore)
        fun hworkspace => absurd hworkspace hbefore

theorem dispatchMessage_ok {message : Message Change} {server : Server Caches Diag}
    {host : AnalysisHost Caches Diag} {cleared : List String}
    (hresult : updateAnalysis ops files message server.analysis = (host, some (.ok cleared))) :
    dispatchMessage ops files now message server =
      scheduleDiagnosticsBatch ops files now cleared { server with analysis := host } := by
  cases message <;> first | cases hresult | (unfold dispatchMessage; dsimp only; rw [hresult])

theorem dispatchMessage_error {message : Message Change} {server : Server Caches Diag}
    {host : AnalysisHost Caches Diag} {error : LspErrorKind}
    (hresult : updateAnalysis ops files message server.analysis = (host, some (.error error))) :
    dispatchMessage ops files now message server = ({ server with analysis := host }, []) := by
  cases message <;> first | cases hresult | (unfold dispatchMessage; dsimp only; rw [hresult])

/-- A message keeps what the client sees consistent, if it clears what it takes away. -/
theorem dispatchMessage_consistent {published : List (Notification Diag)}
    {server : Server Caches Diag} (h : Consistent published server) (message : Message Change)
    (id : Option String)
    (hclears : ClearsWhatLeaves ops { server, published } (.message now files id message)) :
    Consistent (published ++ (dispatchMessage ops files now message server).2)
      (dispatchMessage ops files now message server).1 := by
  -- the messages about documents
  have hupdate : ∀ host result,
      updateAnalysis ops files message server.analysis = (host, some result) →
      Consistent (published ++ (dispatchMessage ops files now message server).2)
        (dispatchMessage ops files now message server).1 := by
    intro host result hresult
    have hsome := updateAnalysis_isSome ops files message server.analysis
    unfold ClearsWhatLeaves at hclears
    dsimp only at hclears
    rw [hresult] at hsome hclears
    cases result with
    | ok cleared =>
      rw [dispatchMessage_ok ops files now hresult]
      exact scheduleDiagnosticsBatch_consistent ops files now h hsome hclears
    | error error =>
      rw [dispatchMessage_error ops files now hresult, List.append_nil]
      exact h.unpublished (fun hworkspace => hsome.trans hworkspace) fun _ => hclears
  cases message with
  | cancelRequest id' =>
    show Consistent (published ++ []) _
    rw [List.append_nil]
    exact h.rescheduled rfl rfl
  | exit =>
    show Consistent (published ++ []) _
    rw [List.append_nil]
    exact ⟨h.silent, h.workspace, h.shows⟩
  | malformed method =>
    show Consistent (published ++ []) _
    rw [List.append_nil]
    exact h
  | request method usesWorkspace =>
    unfold dispatchMessage
    dsimp only
    split
    · show Consistent (published ++ []) _
      rw [List.append_nil]
      apply h.unpublished
      · intro hworkspace
        rw [ensureWorkspace_of_isSome ops files hworkspace]
        exact hworkspace
      · intro hworkspace
        rw [ensureWorkspace_of_isSome ops files hworkspace]
    · show Consistent (published ++ []) _
      rw [List.append_nil]
      exact h
  | didOpen uri text version => exact hupdate _ _ rfl
  | didChange uri version contentChanges => exact hupdate _ _ rfl
  | didClose uri => exact hupdate _ _ rfl
  | didChangeWatchedFiles changes =>
    rcases hresult : updateAnalysis ops files (.didChangeWatchedFiles changes) server.analysis
      with ⟨host, _ | result⟩
    · unfold updateAnalysis at hresult
      dsimp only at hresult
      split at hresult <;> cases hresult
    · exact hupdate host result hresult

theorem handleMessage_consistent {published : List (Notification Diag)}
    {server : Server Caches Diag} (h : Consistent published server) (id : Option String)
    (message : Message Change)
    (hclears : ClearsWhatLeaves ops { server, published } (.message now files id message)) :
    Consistent (published ++ (handleMessage ops files now id message server).2)
      (handleMessage ops files now id message server).1 := by
  have htaken : Consistent published
      { server with scheduler := (server.scheduler.takeCancellation id).1 } := by
    have hwaiting := LspScheduler.takeCancellation_waiting id server.scheduler
    exact h.rescheduled hwaiting.1 hwaiting.2
  unfold handleMessage
  dsimp only
  split
  · show Consistent (published ++ []) _
    rw [List.append_nil]
    exact htaken
  · have hdispatched := dispatchMessage_consistent ops files now htaken message id hclears
    have hflushed := hdispatched.flushed
      (LspScheduler.conserves_flushDueAfter now message.method _)
    rwa [List.append_assoc] at hflushed

theorem stop_consistent {session : Session Caches Diag}
    (h : Consistent session.published session.server) :
    Consistent session.stop.published session.stop.server := by
  have hflushed := h.flushed (LspScheduler.conserves_flushAll session.server.scheduler)
  have hidle : session.server.scheduler.flushAll.1.disableBackgroundMode.waiting =
      session.server.scheduler.flushAll.1.waiting := by
    unfold LspScheduler.flushAll LspScheduler.disableBackgroundMode LspScheduler.waiting
    cases hpending : session.server.scheduler.pendingDiagnostics <;> simp [hpending]
  have hstopped := hflushed.rescheduled hidle rfl
  exact ⟨hstopped.silent, hstopped.workspace, hstopped.shows⟩

/-- One step of the main loop. -/
theorem step_consistent {session : Session Caches Diag}
    (h : Consistent session.published session.server) (event : Event Files Change)
    (hclears : ClearsWhatLeaves ops session event) :
    Consistent (session.step ops event).published (session.step ops event).server := by
  unfold Session.step
  split
  · exact h
  cases event with
  | message now files id message =>
    have hhandled := handleMessage_consistent ops files now h id message hclears
    dsimp only
    split
    · exact stop_consistent hhandled
    · exact hhandled
  | timeout now =>
    exact h.flushed (LspScheduler.conserves_flushDueTimeout now session.server.scheduler)
  | endOfInput => exact stop_consistent h

theorem run_consistent (events : List (Event Files Change)) {session : Session Caches Diag}
    (h : Consistent session.published session.server) (hclear : AllClear ops session events) :
    Consistent (events.foldl (Session.step ops) session).published
      (events.foldl (Session.step ops) session).server := by
  induction events generalizing session with
  | nil => exact h
  | cons event events ih =>
    obtain ⟨hstep, hrest⟩ := hclear
    exact ih (step_consistent ops h event hstep) hrest

theorem start_consistent (debounce : Nat) (background : Bool) :
    Consistent (Session.start debounce background : Session Caches Diag).published
      (Session.start debounce background : Session Caches Diag).server := by
  constructor
  · cases background <;> exact fun _ => rfl
  · cases background <;> exact fun hrevision => absurd hrevision (Nat.lt_irrefl 0)
  · cases background <;> exact fun hrevision => absurd hrevision (Nat.lt_irrefl 0)

/-- Once the batch that waited has been flushed, the client sees the diagnostics of the
workspace and no others, in every run whose steps clear what they take away. -/
theorem settled_shows (debounce : Nat) (background : Bool) (events : List (Event Files Change))
    (hclear : AllClear ops (Session.start debounce background) events)
    (hsettled : Settled (events.foldl (Session.step ops) (Session.start debounce background))) :
    Shows (events.foldl (Session.step ops) (Session.start debounce background)).published
      (diagnosticsOf
        (events.foldl (Session.step ops) (Session.start debounce background)).server.analysis) := by
  have hconsistent := run_consistent ops events (start_consistent debounce background) hclear
  have hshows := hconsistent.shows hsettled.2
  unfold LspScheduler.waiting at hshows
  rwa [hsettled.1, List.append_nil] at hshows

end

/-! ## A notice that is lost -/

/-- A workspace of plain files, in which the text `bad` is the only error. -/
def plainDiagnostics (documents : ExtTreeMap String String) : DiagnosticsByUri String :=
  documents.toList.foldl (fun diagnostics (path, text) =>
    diagnostics.insert ("file://" ++ path) (if text = "bad" then ["error"] else [])) ∅

def plainUpdate (files : List (String × String))
    (workspace : IncrementalWorkspace (ExtTreeMap String String) String) (path : String)
    (overlay : Option OverlayDocument) : WorkspaceUpdate (ExtTreeMap String String) String :=
  let documents :=
    match (overlay.map OverlayDocument.text).or (files.lookup path) with
    | some text => workspace.caches.insert path text
    | none => workspace.caches.erase path
  { caches := documents, result := .ok (plainDiagnostics documents) }

def plainOps : WorkspaceOps (List (String × String)) (ExtTreeMap String String) String String where
  uriToPath := fun uri => (Text.stripPrefix "file://".toList uri.toList).map String.ofList
  applyContentChanges := fun text changes => .ok (changes.getLastD text)
  new := fun files overlays =>
    let documents := overlays.toList.foldl (fun documents (path, overlay) =>
      documents.insert path overlay.text) (ExtTreeMap.ofList files)
    .ok { caches := documents, diagnosticsByUri := plainDiagnostics documents }
  applyProjectPathUpdate := plainUpdate
  applyFileSystemPathUpdate := plainUpdate

/-- A document with an error is opened and its diagnostics are published. -/
def openingRun : List (Event (List (String × String)) String) :=
  [.message 0 [("/a", "bad"), ("/b", "")] none (.didOpen "file:///a" "bad" 1), .timeout 40]

/-- It is deleted and closed. -/
def closingRun : List (Event (List (String × String)) String) :=
  openingRun ++ [.message 100 [("/b", "")] none (.didClose "file:///a"), .timeout 140]

/-- It is deleted and closed, and another document is opened while the notice waits. -/
def staleRun : List (Event (List (String × String)) String) :=
  openingRun
    ++ [.message 100 [("/b", "")] none (.didClose "file:///a"),
      .message 120 [("/b", "")] none (.didOpen "file:///b" "" 1), .timeout 160]

def plainStart : Session (ExtTreeMap String String) String := Session.start 40 true

theorem closingRun_shows :
    Shows (closingRun.foldl (Session.step plainOps) plainStart).published
      (diagnosticsOf (closingRun.foldl (Session.step plainOps) plainStart).server.analysis) := by
  have hpublished : (openingRun.foldl (Session.step plainOps) plainStart).published
      = [("file:///a", ["error"]), ("file:///b", [])] := by decide +kernel
  apply settled_shows plainOps 40 true closingRun
  · refine ⟨?_, trivial, ?_, trivial, trivial⟩
    · -- nothing is seen yet
      rintro uri ⟨found, hfound, -⟩
      cases hfound
    · -- only the closed document is seen to have diagnostics
      rintro uri ⟨found, hfound, hne⟩
      have hmem : (uri, found) ∈ (openingRun.foldl (Session.step plainOps) plainStart).published :=
        mem_of_lastEntry hfound
      rw [hpublished, List.mem_cons, List.mem_singleton] at hmem
      rcases hmem with heq | heq
      · cases heq
        exact .inr (.inl (List.mem_singleton_self _))
      · cases heq
        exact absurd rfl hne
  · exact ⟨Option.isNone_iff_eq_none.1 (by decide +kernel), by decide +kernel⟩

/-- The client keeps the diagnostics of the deleted document. -/
theorem staleRun_not_shows :
    ¬ ∀ events : List (Event (List (String × String)) String),
      Settled (events.foldl (Session.step plainOps) plainStart) →
        Shows (events.foldl (Session.step plainOps) plainStart).published
          (diagnosticsOf (events.foldl (Session.step plainOps) plainStart).server.analysis) := by
  intro h
  have hpending : (staleRun.foldl (Session.step plainOps)
      plainStart).server.scheduler.pendingDiagnostics.isNone = true := by decide +kernel
  have hrevision : 0 < (staleRun.foldl (Session.step plainOps)
      plainStart).server.scheduler.nextRevision := by decide +kernel
  have hgone : (diagnosticsOf (staleRun.foldl (Session.step plainOps)
      plainStart).server.analysis)["file:///a"]? = none := by decide +kernel
  have hshown : lastEntry (staleRun.foldl (Session.step plainOps) plainStart).published
      "file:///a" = some ["error"] := by decide +kernel
  rcases (h staleRun ⟨Option.isNone_iff_eq_none.1 hpending, hrevision⟩).cleared _ hgone with
    hlast | hlast
  · rw [hshown] at hlast
    cases hlast
  · rw [hshown] at hlast
    cases hlast

end TypePython.Lsp
