import TypePython.Effects.Taint

/-!
# Tainted values along a path

A function body is run along one of its paths, and the argument of a sink call is written
without locals: each local is replaced by the expression last assigned to it on the path. The
pass reports the call when that argument is unsanitized, as long as every assignment keeps
what the pass has recorded (`sink_reported`). The pass knows no paths, so an assignment that
the path does not run changes the record as well.
-/

namespace TypePython.Effects.TaintFlow

open TypePython.Lib

/-! ## Bodies and their paths -/

/-- A body is a list of events and of branches. The calls inside an expression are events of
their own, before the statement they are part of. -/
inductive Stmt where
  | event (event : TaintEvent)
  | ifElse (body orelse : List Stmt)

mutual

def Stmt.events : Stmt → List TaintEvent
  | .event event => [event]
  | .ifElse body orelse => bodyEvents body ++ bodyEvents orelse

def bodyEvents : List Stmt → List TaintEvent
  | [] => []
  | stmt :: rest => stmt.events ++ bodyEvents rest

end

/-- The events along one path through a body, in the order they happen. -/
inductive Path : List Stmt → List TaintEvent → Prop
  | done : Path [] []
  | event {e : TaintEvent} {rest : List Stmt} {trace : List TaintEvent} :
      Path rest trace → Path (.event e :: rest) (e :: trace)
  | ifTrue {body orelse rest : List Stmt} {inside after : List TaintEvent} :
      Path body inside → Path rest after → Path (.ifElse body orelse :: rest) (inside ++ after)
  | ifFalse {body orelse rest : List Stmt} {inside after : List TaintEvent} :
      Path orelse inside → Path rest after →
      Path (.ifElse body orelse :: rest) (inside ++ after)

theorem Path.mem_bodyEvents {body : List Stmt} {trace : List TaintEvent}
    (hpath : Path body trace) : ∀ e ∈ trace, e ∈ bodyEvents body := by
  induction hpath with
  | done => intro e he; exact he
  | event _ ih =>
    intro e he
    rcases List.mem_cons.mp he with rfl | he
    · simp [bodyEvents, Stmt.events]
    · simp [bodyEvents, ih e he]
  | ifTrue _ _ ihInside ihAfter =>
    intro e he
    rcases List.mem_append.mp he with he | he
    · simp [bodyEvents, Stmt.events, ihInside e he]
    · simp [bodyEvents, ihAfter e he]
  | ifFalse _ _ ihInside ihAfter =>
    intro e he
    rcases List.mem_append.mp he with he | he
    · simp [bodyEvents, Stmt.events, ihInside e he]
    · simp [bodyEvents, ihAfter e he]

/-! ## Writing an expression without locals -/

/-- The expression each local holds, itself written without locals. -/
abbrev LastAssigned := String → Option DirectExpr

/-- The local an expression is, when it is nothing else. -/
def DirectExpr.localName : DirectExpr → Option String
  | .mk none name none none [] => name
  | _ => none

section

variable (last : LastAssigned)

mutual

def expand : DirectExpr → DirectExpr
  | .mk callee name methodOwner methodName inner =>
    match (DirectExpr.mk callee name methodOwner methodName inner).localName.bind last with
    | some value => value
    | none => .mk callee name methodOwner methodName (expandInner inner)

def expandInner : List DirectExpr → List DirectExpr
  | [] => []
  | inner :: rest => expand inner :: expandInner rest

end

/-- An assignment makes its local hold its value, written without locals. -/
def assign (site : AssignmentSite) : LastAssigned :=
  match site.value with
  | none => last
  | some value => fun name => if name = site.name then some (expand last value) else last name

end

/-- What the locals hold after these assignments. -/
def lastAssigned (executed : List AssignmentSite) : LastAssigned :=
  executed.foldl assign fun _ => none

def TaintEvent.assignment? : TaintEvent → Option AssignmentSite
  | .assignment site => some site
  | _ => none

/-- The assignments among the events of a path. -/
def assignmentsOf (trace : List TaintEvent) : List AssignmentSite :=
  trace.filterMap TaintEvent.assignment?

/-! ## What is unsanitized -/

variable (tables : TaintTables)

/-- An expression without locals is unsanitized for a sink with these contexts. -/
def Unsanitized (required : TaintContexts) (value : DirectExpr) : Prop :=
  tables.argumentIsUnsanitizedSource (fun _ _ => none) none value required = true

instance (required : TaintContexts) (value : DirectExpr) :
    Decidable (Unsanitized tables required value) :=
  inferInstanceAs (Decidable (_ = true))

/-- The contexts of the sink that an event calls. -/
def TaintEvent.sinkContexts : TaintEvent → Option TaintContexts
  | .call site => tables.calleeContexts .sink (some site.callee)
  | .methodCall site => site.contexts tables .sink
  | .assignment _ => none

def TaintEvent.argValues : TaintEvent → List DirectExpr
  | .call site => site.argValues
  | .methodCall site => site.argValues
  | .assignment _ => []

/-- The arguments that are not given by position. -/
def TaintEvent.otherArgValues : TaintEvent → List DirectExpr
  | .call site =>
    site.starredArgValues ++ site.keywordArgValues ++ site.keywordExpansionValues
  | .methodCall site =>
    site.starredArgValues ++ site.keywordArgValues ++ site.keywordExpansionValues
  | .assignment _ => []

/-- The contexts of the sinks that are called in the module. -/
def ModuleNode.sinks (node : ModuleNode) : List TaintContexts :=
  node.events.filterMap (TaintEvent.sinkContexts tables)

/-- What is recorded for a local matches a sink with these contexts. -/
def recordedFor (state : TaintState) (owner : Option String) (name : String)
    (required : TaintContexts) : Bool :=
  (state.taintedLocals owner name).any fun contexts =>
    taintContextsMatchingRequired contexts (some required) ≠ ∅

/-! ## When a step keeps the record -/

/-- The assignment sanitizes nothing and brings a match for the sink, or it sanitizes some
contexts only and of those recorded before a match is left. -/
def keepsTaint (state : TaintState) (site : AssignmentSite) (required : TaintContexts) : Bool :=
  let sanitized := assignmentSanitizedContexts tables state site
  if sanitized = ∅ then
    taintContextsMatchingRequired (assignmentTaintedContexts tables state site) (some required)
      ≠ ∅
  else
    !sanitizerContextsCoverAll sanitized
      && (state.taintedLocals site.ownerName site.name).any fun existing =>
        taintContextsMatchingRequired (existing \ sanitized) (some required) ≠ ∅

/-- The sink has to be kept apart from the local: an assignment on the path gives it a value
the pass sees as unsanitized, or the local, assigned on the path already, is recorded. -/
def threatens (done : List AssignmentSite) (executed : Bool) (state : TaintState)
    (site : AssignmentSite) (required : TaintContexts) : Bool :=
  match executed, site.value with
  | true, some value =>
    tables.argumentIsUnsanitizedSource state.taintedLocals site.ownerName value required
  | _, _ =>
    (done.any fun earlier => earlier.name = site.name)
      && recordedFor state site.ownerName site.name required

variable (node : ModuleNode) (owner : Option String)

/-- The condition on one event, `executed` when it is on the path. -/
def stepOk (done : List AssignmentSite) (state : TaintState) (event : TaintEvent)
    (executed : Bool) : Bool :=
  match event with
  | .assignment site =>
    (!executed && site.ownerName ≠ owner) || (node.sinks tables).all fun required =>
      !threatens tables done executed state site required
        || keepsTaint tables state site required
  | _ => true

/-- Events with a mark on those that are on the path. -/
abbrev MarkedEvents := List (TaintEvent × Bool)

/-- The assignment an event makes on the path. -/
def executedOf (event : TaintEvent) (executed : Bool) : List AssignmentSite :=
  if executed then event.assignment?.toList else []

def MarkedEvents.executed (marked : MarkedEvents) : List AssignmentSite :=
  marked.flatMap fun mark => executedOf mark.1 mark.2

/-- Every event meets the condition, in the state the pass has come to. -/
def stepsOk (done : List AssignmentSite) (state : TaintState) : MarkedEvents → Bool
  | [] => true
  | (event, executed) :: rest =>
    stepOk tables node owner done state event executed
      && stepsOk (done ++ executedOf event executed) (taintStep tables node state event) rest

/-! ## Sink calls on a path -/

def TaintEvent.ownerName : TaintEvent → Option String
  | .call site => node.ownerAt site.line
  | .methodCall site => methodCallOwner node site
  | .assignment site => site.ownerName

/-- The diagnostic a sink call is reported with. -/
def TaintEvent.diagnostic? : TaintEvent → Option Diagnostic
  | .call site => some (taintSinkDiagnostic node site.callee site.line)
  | .methodCall site => some (taintSinkDiagnostic node site.sinkName site.line)
  | .assignment _ => none

/-- The events that come up before those on the event's line, or before its assignments. -/
def ModuleNode.eventsBefore (event : TaintEvent) : List TaintEvent :=
  node.sortedEvents.takeWhile fun earlier => decide (earlier.sortKey < event.sortKey)

def TaintEvent.Reported (event : TaintEvent) : Prop :=
  ∃ diagnostic, event.diagnostic? node = some diagnostic
    ∧ diagnostic ∈ taintSourceSinkDiagnostics tables node

/-- The events of a body are events of the module, and its assignments have one owner. -/
structure IsBodyOf (body : List Stmt) : Prop where
  mem_events : ∀ e ∈ bodyEvents body, e ∈ node.events
  ownerName_eq : ∀ site, .assignment site ∈ bodyEvents body → site.ownerName = owner

/-- Some of these arguments, with its locals written out after the events of the path, is
unsanitized for a sink that the event calls. -/
def SomeUnsanitized (before : List TaintEvent) (event : TaintEvent) (args : List DirectExpr) :
    Prop :=
  ∃ required, event.sinkContexts tables = some required ∧ ∃ arg ∈ args,
    Unsanitized tables required (expand (lastAssigned (assignmentsOf before)) arg)

/-- Every path that calls a sink with an unsanitized argument has the call reported. -/
def CaughtAlong (body : List Stmt) : Prop :=
  ∀ before event after, Path body (before ++ event :: after) →
    SomeUnsanitized tables before event (event.argValues ++ event.otherArgValues) →
    event.Reported tables node

/-- The condition on the run up to a sink call. The assignments of the path come up in its
order before the call and each event keeps what is recorded, the line of the call belongs to
the function, and the argument is given by position. -/
structure PassKeeps (before : List TaintEvent) (event : TaintEvent) : Prop where
  steps : ∃ marked : MarkedEvents, marked.map Prod.fst = node.eventsBefore event
    ∧ marked.executed = assignmentsOf before
    ∧ stepsOk tables node owner [] .empty marked = true
  owner_eq : event.ownerName node = owner
  byPosition : SomeUnsanitized tables before event event.otherArgValues →
    SomeUnsanitized tables before event event.argValues

end TypePython.Effects.TaintFlow
