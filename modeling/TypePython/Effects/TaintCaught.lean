import TypePython.Effects.TaintPaths

/-!
# What the pass catches along a path

The invariant of the pass: a local that holds an unsanitized value is recorded for the sink
(`Safe`). Every step that meets its condition keeps it (`Safe.step`), so at a sink call the
argument with its locals is seen as unsanitized whenever the argument without locals is
(`Safe.unsanitized`), and the call is reported (`sink_reported`).
-/

namespace TypePython.Effects.TaintFlow

open TypePython.Lib

variable {tables : TaintTables} {node : ModuleNode} {owner : Option String}

/-! ## What a step of the pass does -/

/-- Only assignments change what is recorded. -/
theorem taintStep_taintedLocals (state : TaintState) (event : TaintEvent)
    (hcall : event.assignment? = none) :
    (taintStep tables node state event).taintedLocals = state.taintedLocals := by
  cases event with
  | assignment site => simp [TaintEvent.assignment?] at hcall
  | call site =>
    simp only [taintStep, callStep]
    split <;> rfl
  | methodCall site =>
    simp only [taintStep, methodCallStep]
    split <;> rfl

theorem assignmentStep_taintedLocals (state : TaintState) (site : AssignmentSite)
    (name : String) :
    (assignmentStep tables state site).taintedLocals site.ownerName name =
      if name = site.name then updatedContexts tables state site
      else state.taintedLocals site.ownerName name := by
  simp [assignmentStep, setEntry]

/-- A step never takes a diagnostic back. -/
theorem taintStep_diagnostics (state : TaintState) (event : TaintEvent) :
    state.diagnostics ⊆ (taintStep tables node state event).diagnostics := by
  cases event with
  | assignment site => exact List.Subset.refl _
  | call site =>
    simp only [taintStep, callStep]
    split
    · exact List.subset_append_left _ _
    · exact List.Subset.refl _
  | methodCall site =>
    simp only [taintStep, methodCallStep]
    split
    · exact List.subset_append_left _ _
    · exact List.Subset.refl _

theorem taintRun_diagnostics (state : TaintState) (events : List TaintEvent) :
    state.diagnostics ⊆ (taintRun tables node state events).diagnostics := by
  induction events generalizing state with
  | nil => exact List.Subset.refl _
  | cons event rest ih => exact List.Subset.trans (taintStep_diagnostics state event) (ih _)

theorem taintRun_taintedLocals (tables : TaintTables) (node : ModuleNode) (state : TaintState) (events : List TaintEvent)
    (hcalls : ∀ e ∈ events, e.assignment? = none) :
    (taintRun tables node state events).taintedLocals = state.taintedLocals := by
  induction events generalizing state with
  | nil => rfl
  | cons event rest ih =>
    have hrest := ih (taintStep tables node state event)
      fun e he => hcalls e (List.mem_cons_of_mem _ he)
    exact hrest.trans (taintStep_taintedLocals state event (hcalls event List.mem_cons_self))

theorem taintRun_append (state : TaintState) (first second : List TaintEvent) :
    taintRun tables node state (first ++ second)
      = taintRun tables node (taintRun tables node state first) second :=
  List.foldl_append

/-- What an assignment records matches a sink exactly when it keeps the taint for it. -/
theorem recordedFor_assignmentStep (state : TaintState) (site : AssignmentSite)
    (required : TaintContexts) :
    recordedFor (assignmentStep tables state site) site.ownerName site.name required
      = keepsTaint tables state site required := by
  have hempty : taintContextsMatchingRequired ∅ (some required) = ∅ := rfl
  have hnonEmpty : ∀ contexts : TaintContexts, ((nonEmpty contexts).any fun c =>
      decide (taintContextsMatchingRequired c (some required) ≠ ∅))
        = decide (taintContextsMatchingRequired contexts (some required) ≠ ∅) := by
    intro contexts
    by_cases hcontexts : contexts = ∅
    · simp [nonEmpty, hcontexts, hempty]
    · simp [nonEmpty, hcontexts]
  unfold recordedFor keepsTaint
  rw [assignmentStep_taintedLocals, if_pos rfl]
  unfold updatedContexts
  by_cases hsanitized : assignmentSanitizedContexts tables state site = ∅
  · simpa [hsanitized] using hnonEmpty (assignmentTaintedContexts tables state site)
  · by_cases hall : sanitizerContextsCoverAll (assignmentSanitizedContexts tables state site)
    · simp [hsanitized, hall]
    · cases hexisting : state.taintedLocals site.ownerName site.name with
      | none => simp [hsanitized, hall]
      | some existing =>
        simpa [hsanitized, hall] using
          hnonEmpty (existing \ assignmentSanitizedContexts tables state site)

/-! ## The invariant -/

/-- A local that holds an unsanitized value is recorded for the sink. -/
def Safe (tables : TaintTables) (node : ModuleNode) (owner : Option String)
    (state : TaintState) (last : LastAssigned) : Prop :=
  ∀ required ∈ node.sinks tables, ∀ name value, last name = some value →
    Unsanitized tables required value → recordedFor state owner name required = true

theorem safe_empty (state : TaintState) : Safe tables node owner state fun _ => none := by
  intro required _ name value hvalue
  cases hvalue

variable {value : DirectExpr} {name : String}

theorem localName_eq_some (h : value.localName = some name) :
    value = .mk none (some name) none none [] := by
  unfold DirectExpr.localName at h
  split at h
  · rw [h]
  · cases h

variable {required : TaintContexts}

theorem argumentIsUnsanitizedSource_iff {locals : TaintedLocals} :
    tables.argumentIsUnsanitizedSource locals owner value required = true
      ↔ (tables.argumentTaintContexts locals owner (some required) value).Nonempty := by
  simp [TaintTables.argumentIsUnsanitizedSource, Finset.nonempty_iff_ne_empty]

/-- A bare local brings what is recorded for it. -/
theorem argumentTaintContexts_local (locals : TaintedLocals) (required : Option TaintContexts)
    (name : String) :
    tables.argumentTaintContexts locals owner required (.mk none (some name) none none [])
      = (locals owner name).elim ∅ (taintContextsMatchingRequired · required) := by
  simp [TaintTables.argumentTaintContexts, TaintTables.calleeContexts,
    TaintTables.methodContexts, TaintTables.taintMethodFacts, TaintTables.innerTaintContexts]

variable {state : TaintState} {last : LastAssigned}

mutual

/-- What is unsanitized with its locals written out is unsanitized with them: a local that
holds an unsanitized value is recorded. -/
theorem Safe.nonempty_of_expand (hsafe : Safe tables node owner state last)
    (hrequired : required ∈ node.sinks tables) : ∀ value : DirectExpr,
      (tables.argumentTaintContexts (fun _ _ => none) none (some required)
        (expand last value)).Nonempty →
      (tables.argumentTaintContexts state.taintedLocals owner (some required) value).Nonempty
  | .mk callee name methodOwner methodName inner => by
    intro hnonempty
    rw [expand] at hnonempty
    split at hnonempty
    case h_1 held hheld =>
      obtain ⟨localName, hname, hlast⟩ := Option.bind_eq_some_iff.mp hheld
      have hrecorded := hsafe required hrequired localName held hlast
        (argumentIsUnsanitizedSource_iff.mpr hnonempty)
      rw [localName_eq_some hname, argumentTaintContexts_local]
      obtain ⟨contexts, hcontexts, hmatch⟩ := Option.any_eq_true _ _ |>.mp hrecorded
      rw [hcontexts]
      exact Finset.nonempty_iff_ne_empty.mpr (of_decide_eq_true hmatch)
    case h_2 =>
      have hinner := hsafe.nonempty_of_expandInner hrequired inner
      rw [TaintTables.argumentTaintContexts] at hnonempty ⊢
      split
      · rename_i sanitizer hsanitizer
        simpa only [hsanitizer] using hnonempty
      · rename_i hsanitizer
        simp only [hsanitizer] at hnonempty
        split
        · rename_i sanitizer hmethod
          simpa only [hmethod] using hnonempty
        · rename_i hmethod
          simp only [hmethod] at hnonempty
          have hbind : (name.bind fun _ => (none : Option TaintContexts)) = none := by
            cases name <;> rfl
          -- the callee and the method bring the same, the name alone brings nothing
          simp only [hbind, Option.elim_none, Finset.union_empty,
            Finset.union_nonempty] at hnonempty ⊢
          rcases hnonempty with (hcallee | hmethods) | hrest
          · exact .inl (.inl (.inl hcallee))
          · exact .inl (.inl (.inr hmethods))
          · exact .inr (hinner hrest)

theorem Safe.nonempty_of_expandInner (hsafe : Safe tables node owner state last)
    (hrequired : required ∈ node.sinks tables) : ∀ inner : List DirectExpr,
      (tables.innerTaintContexts (fun _ _ => none) none (some required)
        (expandInner last inner)).Nonempty →
      (tables.innerTaintContexts state.taintedLocals owner (some required) inner).Nonempty
  | [] => by
    intro hnonempty
    simp [expandInner, TaintTables.innerTaintContexts] at hnonempty
  | value :: rest => by
    intro hnonempty
    rw [expandInner, TaintTables.innerTaintContexts, Finset.union_nonempty] at hnonempty
    rw [TaintTables.innerTaintContexts, Finset.union_nonempty]
    rcases hnonempty with hvalue | hrest
    · exact .inl (hsafe.nonempty_of_expand hrequired value hvalue)
    · exact .inr (hsafe.nonempty_of_expandInner hrequired rest hrest)

end

/-- At a sink, an argument is seen as unsanitized when it is without its locals. -/
theorem Safe.unsanitized (hsafe : Safe tables node owner state last)
    (hrequired : required ∈ node.sinks tables)
    (hvalue : Unsanitized tables required (expand last value)) :
    tables.argumentIsUnsanitizedSource state.taintedLocals owner value required = true :=
  argumentIsUnsanitizedSource_iff.mpr
    (hsafe.nonempty_of_expand hrequired value (argumentIsUnsanitizedSource_iff.mp hvalue))

/-! ## Steps and runs -/

variable {site : AssignmentSite}

theorem assign_of_ne (hname : name ≠ site.name) : assign last site name = last name := by
  unfold assign
  cases site.value with
  | none => rfl
  | some value => simp [hname]

variable {done : List AssignmentSite}

/-- A local that holds a value was assigned. -/
theorem exists_assigned (hvalue : lastAssigned done name = some value) :
    (done.any fun earlier => earlier.name = name) = true := by
  induction done using List.reverseRecOn generalizing value with
  | nil => cases hvalue
  | append_singleton done site ih =>
    rw [List.any_append]
    by_cases hname : name = site.name
    · simp [hname]
    · have hlast : lastAssigned (done ++ [site]) = assign (lastAssigned done) site := by
        simp [lastAssigned]
      rw [hlast, assign_of_ne hname] at hvalue
      simp [ih hvalue]

theorem lastAssigned_executedOf (done : List AssignmentSite) (site : AssignmentSite)
    (executed : Bool) :
    lastAssigned (done ++ executedOf (.assignment site) executed) =
      if executed then assign (lastAssigned done) site else lastAssigned done := by
  cases executed <;> simp [lastAssigned, executedOf, TaintEvent.assignment?]

variable {event : TaintEvent}

theorem executedOf_call (hcall : event.assignment? = none) (executed : Bool) :
    executedOf event executed = [] := by
  cases executed <;> simp [executedOf, hcall]

theorem recordedFor_congr {state' : TaintState}
    (h : state'.taintedLocals owner name = state.taintedLocals owner name)
    (required : TaintContexts) :
    recordedFor state' owner name required = recordedFor state owner name required := by
  simp only [recordedFor, h]

variable {executed : Bool}

/-- What threatens a sink is kept by a step that meets its condition. -/
theorem keepsTaint_of_stepOk (howner : site.ownerName = owner)
    (hok : stepOk tables node owner done state (.assignment site) executed = true)
    (hrequired : required ∈ node.sinks tables)
    (hthreat : threatens tables done executed state site required = true) :
    keepsTaint tables state site required = true := by
  simp only [stepOk, howner, ne_eq, not_true_eq_false, decide_false, Bool.and_false,
    Bool.false_or, List.all_eq_true] at hok
  have hone := hok required hrequired
  simpa [hthreat] using hone

/-- The invariant after an assignment of the function, on the path or not. -/
theorem Safe.assignmentStep (hsafe : Safe tables node owner state (lastAssigned done))
    (howner : site.ownerName = owner)
    (hok : stepOk tables node owner done state (.assignment site) executed = true) :
    Safe tables node owner (assignmentStep tables state site)
      (lastAssigned (done ++ executedOf (.assignment site) executed)) := by
  intro required hrequired name held hheld hunsanitized
  rw [lastAssigned_executedOf] at hheld
  by_cases hname : name = site.name
  · subst hname
    -- the assigned local: what it holds threatens the sink, so the step keeps the taint
    have hthreat : threatens tables done executed state site required = true := by
      have hskipped : lastAssigned done site.name = some held →
          ((done.any fun earlier => earlier.name = site.name)
            && recordedFor state site.ownerName site.name required) = true := by
        intro hlast
        rw [exists_assigned hlast, howner, hsafe required hrequired _ held hlast hunsanitized]
        rfl
      cases hexecuted : executed with
      | false =>
        have hlast : lastAssigned done site.name = some held := by simpa [hexecuted] using hheld
        simpa [threatens] using hskipped hlast
      | true =>
        cases hvalue : site.value with
        | none =>
          have hlast : lastAssigned done site.name = some held := by
            simpa [hexecuted, assign, hvalue] using hheld
          simpa [threatens, hvalue] using hskipped hlast
        | some value =>
          have hexpand : expand (lastAssigned done) value = held := by
            simpa [hexecuted, assign, hvalue] using hheld
          subst hexpand
          simpa [threatens, hvalue, howner] using hsafe.unsanitized hrequired hunsanitized
    have hkeeps := keepsTaint_of_stepOk howner hok hrequired hthreat
    rw [← recordedFor_assignmentStep, howner] at hkeeps
    exact hkeeps
  · -- another local: neither what it holds nor its record changes
    have hlast : lastAssigned done name = some held := by
      cases executed with
      | false => simpa using hheld
      | true => simpa [assign_of_ne hname] using hheld
    have hsame : (TaintFlow.assignmentStep tables state site).taintedLocals owner name
        = state.taintedLocals owner name := by
      rw [← howner, assignmentStep_taintedLocals, if_neg hname]
    rw [recordedFor_congr hsame]
    exact hsafe required hrequired name held hlast hunsanitized

/-- The invariant after any event. -/
theorem Safe.step (hsafe : Safe tables node owner state (lastAssigned done))
    (howner : ∀ site ∈ executedOf event executed, site.ownerName = owner)
    (hok : stepOk tables node owner done state event executed = true) :
    Safe tables node owner (taintStep tables node state event)
      (lastAssigned (done ++ executedOf event executed)) := by
  cases hevent : event.assignment? with
  | none =>
    intro required hrequired name held hheld hunsanitized
    rw [executedOf_call hevent, List.append_nil] at hheld
    rw [recordedFor_congr (congrFun (congrFun (taintStep_taintedLocals state event hevent) _) _)]
    exact hsafe required hrequired name held hheld hunsanitized
  | some site =>
    cases event with
    | call _ => cases hevent
    | methodCall _ => cases hevent
    | assignment site =>
      by_cases hsite : site.ownerName = owner
      · exact hsafe.assignmentStep hsite hok
      · -- an assignment of another owner is not on the path
        have hexecuted : executed = false := by
          by_contra hne
          have htrue : executed = true := by simpa using hne
          exact hsite (howner site (by simp [executedOf, htrue, TaintEvent.assignment?]))
        subst hexecuted
        intro required hrequired name held hheld hunsanitized
        rw [lastAssigned_executedOf, if_neg (by decide)] at hheld
        have hsame : (taintStep tables node state (.assignment site)).taintedLocals owner name
            = state.taintedLocals owner name := by
          simp [taintStep, TaintFlow.assignmentStep, setEntry, Ne.symm hsite]
        rw [recordedFor_congr hsame]
        exact hsafe required hrequired name held hheld hunsanitized

/-- The invariant after a whole run whose steps meet their conditions. -/
theorem Safe.run {marked : MarkedEvents}
    (hsafe : Safe tables node owner state (lastAssigned done))
    (howner : ∀ site ∈ marked.executed, site.ownerName = owner)
    (hok : stepsOk tables node owner done state marked = true) :
    Safe tables node owner (taintRun tables node state (marked.map Prod.fst))
      (lastAssigned (done ++ marked.executed)) := by
  induction marked generalizing done state with
  | nil => simpa [MarkedEvents.executed, taintRun] using hsafe
  | cons mark rest ih =>
    rcases mark with ⟨event, executed⟩
    rw [stepsOk, Bool.and_eq_true] at hok
    have hmem : ∀ site ∈ executedOf event executed ++ MarkedEvents.executed rest,
        site.ownerName = owner := by simpa [MarkedEvents.executed] using howner
    have hstep := hsafe.step (fun site hsite => hmem site (List.mem_append_left _ hsite)) hok.1
    have hrun := ih hstep (fun site hsite => hmem site (List.mem_append_right _ hsite)) hok.2
    simpa [MarkedEvents.executed, taintRun] using hrun

/-! ## Sink calls -/

theorem assignment?_eq_none (hsink : event.sinkContexts tables = some required) :
    event.assignment? = none := by
  cases event with
  | assignment _ => cases hsink
  | call _ => rfl
  | methodCall _ => rfl

/-- Events of one key are all assignments or all calls. -/
theorem assignment?_of_sortKey {event' : TaintEvent} (hevent : event.assignment? = none)
    (hkey : event'.sortKey = event.sortKey) : event'.assignment? = none := by
  cases event <;> cases event' <;> simp_all [TaintEvent.assignment?, TaintEvent.sortKey]

/-- A step over a sink call with an argument it sees as unsanitized reports the call. -/
theorem reported_of_step (node : ModuleNode) (hsink : event.sinkContexts tables = some required)
    {arg : DirectExpr} (harg : arg ∈ event.argValues)
    (hseen : tables.argumentIsUnsanitizedSource state.taintedLocals (event.ownerName node) arg
      required = true) : ∃ diagnostic, event.diagnostic? node = some diagnostic
      ∧ diagnostic ∈ (taintStep tables node state event).diagnostics := by
  cases event with
  | assignment _ => cases hsink
  | call site =>
    have hcontexts : tables.calleeContexts .sink (some site.callee) = some required := hsink
    have hargs : argsUnsanitized tables state (node.ownerAt site.line) site.argValues
        (tables.calleeContexts .sink (some site.callee)) = true := by
      rw [hcontexts]
      exact List.any_eq_true.mpr ⟨arg, harg, hseen⟩
    refine ⟨_, rfl, ?_⟩
    simp only [taintStep, callStep]
    rw [if_pos hargs]
    exact List.mem_append_right _ (List.mem_singleton.mpr rfl)
  | methodCall site =>
    have hcontexts : site.contexts tables .sink = some required := hsink
    have hargs : argsUnsanitized tables (recordMethodCall tables node state site)
        (methodCallOwner node site) site.argValues (site.contexts tables .sink) = true := by
      rw [hcontexts]
      exact List.any_eq_true.mpr ⟨arg, harg, hseen⟩
    refine ⟨_, rfl, ?_⟩
    simp only [taintStep, methodCallStep]
    rw [if_pos hargs]
    exact List.mem_append_right _ (List.mem_singleton.mpr rfl)

/-- The pass comes to a sink call with the record of the events before it: of the others on
its line only assignments change the record, and these come later. -/
theorem reported_of_eventsBefore (hmem : event ∈ node.events)
    (hsink : event.sinkContexts tables = some required) {arg : DirectExpr}
    (harg : arg ∈ event.argValues)
    (hseen : tables.argumentIsUnsanitizedSource
      (taintRun tables node .empty (node.eventsBefore event)).taintedLocals (event.ownerName node)
      arg required = true) : event.Reported tables node := by
  have hsorted : node.sortedEvents.Pairwise fun a b => a.sortKey ≤ b.sortKey :=
    pairwise_sortBy TaintEvent.sortKey node.events
  have hmem : event ∈ node.sortedEvents := (perm_sortBy _ _).mem_iff.mpr hmem
  obtain ⟨same, rest, hsplit, hsame⟩ := exists_dropWhile_eq hsorted hmem
  have hcalls : ∀ e ∈ same, e.assignment? = none := fun e he =>
    assignment?_of_sortKey (assignment?_eq_none hsink) (hsame e he)
  have hevents : node.sortedEvents = node.eventsBefore event ++ (same ++ event :: rest) := by
    rw [← hsplit]
    exact List.takeWhile_append_dropWhile.symm
  have hlocals := taintRun_taintedLocals tables node
    (taintRun tables node .empty (node.eventsBefore event)) same hcalls
  rw [← hlocals] at hseen
  obtain ⟨diagnostic, hdiagnostic, hreported⟩ := reported_of_step node hsink harg hseen
  refine ⟨diagnostic, hdiagnostic, ?_⟩
  rw [taintSourceSinkDiagnostics, hevents, taintRun_append, taintRun_append]
  exact taintRun_diagnostics _ rest hreported

theorem SomeUnsanitized.byPosition {before : List TaintEvent}
    (hpass : PassKeeps tables node owner before event)
    (hsome : SomeUnsanitized tables before event (event.argValues ++ event.otherArgValues)) :
    SomeUnsanitized tables before event event.argValues := by
  obtain ⟨required, hsink, arg, harg, hunsanitized⟩ := hsome
  rcases List.mem_append.mp harg with harg | harg
  · exact ⟨required, hsink, arg, harg, hunsanitized⟩
  · exact hpass.byPosition ⟨required, hsink, arg, harg, hunsanitized⟩

section Fixed

def localOf (name : String) : DirectExpr := .mk none (some name) none none []

def callOf (callee : String) : DirectExpr := .mk (some callee) none none none []

/-- A source and a sink of every context, a sanitizer and a sink of one context. -/
def fixedTables : TaintTables where
  decorated := fun name =>
    if name = "read_input" then some {⟨.source, none⟩}
    else if name = "run_query" then some {⟨.sink, none⟩}
    else if name = "run_sql" then some {⟨.sink, some "sql"⟩}
    else if name = "escape_html" then some {⟨.sanitizer, some "html"⟩}
    else none
  decoratedMethods := fun _ => none

def assignOf (name : String) (value : DirectExpr) (callee : Option String) (line : Nat) :
    AssignmentSite where
  name := name
  value := some value
  valueCallee := callee
  valueMethodOwnerName := none
  valueMethodName := none
  ownerName := some "handler"
  line := line

def sinkCallOf (callee : String) (arg : DirectExpr) (line : Nat) : CallSite where
  callee := callee
  argValues := [arg]
  starredArgValues := []
  keywordArgValues := []
  keywordExpansionValues := []
  line := line

def nodeOf (assignments : List AssignmentSite) (call : CallSite) : ModuleNode where
  modulePath := "app.tpy"
  assignments := assignments
  calls := [call]
  methodCalls := []
  returns := []

def readInput : AssignmentSite := assignOf "x" (callOf "read_input") (some "read_input") 3

def escapeInput : AssignmentSite := assignOf "x" (callOf "escape_html") (some "escape_html") 3

/-- `x = read_input()`, then `run_query(x)`. -/
def straightNode : ModuleNode := nodeOf [readInput] (sinkCallOf "run_query" (localOf "x") 6)

def straightBody : List Stmt :=
  [.event (.assignment readInput), .event (.call (sinkCallOf "run_query" (localOf "x") 6))]

/-- `x = escape_html(read_input())`, then `run_sql(x)`: written inline the value is
unsanitized for `sql`, as a value of its own it brings no context. -/
def partialNode : ModuleNode := nodeOf [escapeInput] (sinkCallOf "run_sql" (localOf "x") 4)

def partialBody : List Stmt :=
  [.event (.assignment escapeInput), .event (.call (sinkCallOf "run_sql" (localOf "x") 4))]

end Fixed

end TypePython.Effects.TaintFlow
