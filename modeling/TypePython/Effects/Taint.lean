import Mathlib.Data.Finset.Image
import Mathlib.Data.Prod.Lex
import TypePython.Effects.Export
import TypePython.Lib.SortDedup

/-!
# Taint diagnostics

`taintSourceSinkDiagnostics` makes one pass over the assignments and calls of a module, in the
order of their lines, and keeps for every local of every owner the contexts it is tainted in.
A call of a sink is reported when one of its arguments by position is unsanitized for it.

The facts of the decorated callables (those of the module, of its adapters and of its imports)
are a parameter, and of an expression the parts are kept that the pass looks at.
-/

namespace TypePython.Effects.TaintFlow

open TypePython.Lib

/-! ## Facts and contexts -/

abbrev TaintFacts := Finset TaintFact

/-- The context `none` stands for every context. -/
abbrev TaintContexts := Finset (Option String)

/-- The contexts recorded for the locals of each owner. A local without an entry is clean. -/
abbrev TaintedLocals := Option String → String → Option TaintContexts

def taintContextsForKind (facts : TaintFacts) (kind : TaintFactKind) : Option TaintContexts :=
  let contexts := (facts.filter fun fact => fact.kind = kind).image TaintFact.context
  if contexts = ∅ then none else some contexts

def taintSourceContexts (facts : TaintFacts) : Option TaintContexts :=
  taintContextsForKind facts .source

def taintSinkContexts (facts : TaintFacts) : Option TaintContexts :=
  taintContextsForKind facts .sink

def taintSanitizerContexts (facts : TaintFacts) : Option TaintContexts :=
  taintContextsForKind facts .sanitizer

def taintContextMatches (source sink : Option String) : Bool :=
  source.isNone || sink.isNone || source = sink

/-- Without required contexts every context counts. -/
def taintContextsMatchingRequired (contexts : TaintContexts) (required : Option TaintContexts) :
    TaintContexts :=
  match required with
  | none => contexts
  | some required =>
    contexts.filter fun context => ∃ r ∈ required, taintContextMatches context r

def sanitizerContextCovers (sanitizer required : Option String) : Bool :=
  sanitizer.isNone || (required.isSome && sanitizer = required)

/-- Without required contexts a sanitizer leaves nothing, whatever its own contexts are. -/
def unsanitizedContextsAfterSanitizer (sanitizer : TaintContexts)
    (required : Option TaintContexts) : TaintContexts :=
  match required with
  | none => ∅
  | some required =>
    required.filter fun r => ¬ ∃ s ∈ sanitizer, sanitizerContextCovers s r

def sanitizerContextsCoverAll (contexts : TaintContexts) : Bool :=
  none ∈ contexts

/-! ## Expressions -/

/-- The callee, name and method of an expression, and the expressions inside it that are
walked: the target of a subscript, both values of a conditional, both sides of a boolean and
of a binary operator, those that are there and in this order. -/
inductive DirectExpr where
  | mk (callee name methodOwner methodName : Option String) (inner : List DirectExpr)

/-- The facts of the decorated functions and methods that are visible in the module. -/
structure TaintTables where
  decorated : String → Option TaintFacts
  decoratedMethods : String × String → Option TaintFacts

namespace TaintTables

variable (tables : TaintTables)

def taintMethodFacts (owner method : Option String) : Option TaintFacts :=
  match owner, method with
  | some owner, some method => tables.decoratedMethods (owner, method)
  | _, _ => none

/-- The contexts of one kind that a call by name or through a method has. -/
def calleeContexts (kind : TaintFactKind) (callee : Option String) : Option TaintContexts :=
  (callee.bind tables.decorated).bind fun facts => taintContextsForKind facts kind

def methodContexts (kind : TaintFactKind) (owner method : Option String) :
    Option TaintContexts :=
  (tables.taintMethodFacts owner method).bind fun facts => taintContextsForKind facts kind

variable (locals : TaintedLocals) (owner : Option String) (required : Option TaintContexts)

mutual

def argumentTaintContexts : DirectExpr → TaintContexts
  | .mk callee name methodOwner methodName inner =>
    match tables.calleeContexts .sanitizer callee with
    | some sanitizer => unsanitizedContextsAfterSanitizer sanitizer required
    | none =>
      match tables.methodContexts .sanitizer methodOwner methodName with
      | some sanitizer => unsanitizedContextsAfterSanitizer sanitizer required
      | none =>
        ((tables.calleeContexts .source callee).elim ∅
            (taintContextsMatchingRequired · required))
          ∪ ((tables.methodContexts .source methodOwner methodName).elim ∅
            (taintContextsMatchingRequired · required))
          ∪ ((name.bind (locals owner)).elim ∅
            (taintContextsMatchingRequired · required))
          ∪ innerTaintContexts inner

def innerTaintContexts : List DirectExpr → TaintContexts
  | [] => ∅
  | inner :: rest => argumentTaintContexts inner ∪ innerTaintContexts rest

end

def argumentIsUnsanitizedSource (arg : DirectExpr) (required : TaintContexts) : Bool :=
  tables.argumentTaintContexts locals owner (some required) arg ≠ ∅

end TaintTables

/-! ## Sites -/

structure AssignmentSite where
  name : String
  value : Option DirectExpr
  valueCallee : Option String
  valueMethodOwnerName : Option String
  valueMethodName : Option String
  ownerName : Option String
  line : Nat

structure CallSite where
  callee : String
  argValues : List DirectExpr
  starredArgValues : List DirectExpr
  keywordArgValues : List DirectExpr
  keywordExpansionValues : List DirectExpr
  line : Nat

structure MethodCallSite where
  currentOwnerName : Option String
  ownerName : String
  method : String
  argValues : List DirectExpr
  starredArgValues : List DirectExpr
  keywordArgValues : List DirectExpr
  keywordExpansionValues : List DirectExpr
  line : Nat

structure ReturnSite where
  ownerName : String
  line : Nat

structure ModuleNode where
  modulePath : String
  assignments : List AssignmentSite
  calls : List CallSite
  methodCalls : List MethodCallSite
  returns : List ReturnSite

/-! ## Owners of lines -/

/-- The order of owners: the module first, then the functions by name. -/
def ownerBefore : Option String → Option String → Bool
  | none, some _ => true
  | some a, some b => a < b
  | _, none => false

abbrev OwnerRanges := List (Option String × Nat × Nat)

/-- The ranges stay in the order of their owners. -/
def extendOwnerRange (ranges : OwnerRanges) (owner : Option String) (line : Nat) :
    OwnerRanges :=
  match ranges with
  | [] => [(owner, line, line)]
  | (key, start, stop) :: rest =>
    if key = owner then (key, min start line, max stop line) :: rest
    else if ownerBefore owner key then (owner, line, line) :: (key, start, stop) :: rest
    else (key, start, stop) :: extendOwnerRange rest owner line

namespace ModuleNode

variable (node : ModuleNode)

/-- The lines that name their owner: those of assignments, then those of returns. -/
def ownedLines : List (Nat × Option String) :=
  (node.assignments.map fun assignment => (assignment.line, assignment.ownerName))
    ++ node.returns.map fun site => (site.line, some site.ownerName)

def ownerLineRanges : OwnerRanges :=
  node.ownedLines.foldl (fun ranges owned => extendOwnerRange ranges owned.2 owned.1) []

def ownerLineMarkers : List (Nat × Option String) :=
  sortBy Prod.fst node.ownedLines

end ModuleNode

/-- The first function whose range holds the line, or the owner of the last line before. -/
def ownerForLine (ranges : OwnerRanges) (markers : List (Nat × Option String)) (line : Nat) :
    Option String :=
  let inRange := ranges.findSome? fun range =>
    if range.2.1 ≤ line ∧ line ≤ range.2.2 then range.1 else none
  inRange <|> (markers.reverse.find? fun marker => marker.1 ≤ line).bind Prod.snd

/-! ## Events -/

inductive TaintEvent where
  | assignment (site : AssignmentSite)
  | call (site : CallSite)
  | methodCall (site : MethodCallSite)

/-- On one line calls come before assignments. -/
def TaintEvent.sortKey : TaintEvent → Nat ×ₗ Nat
  | .call site => toLex (site.line, 0)
  | .methodCall site => toLex (site.line, 0)
  | .assignment site => toLex (site.line, 1)

def ModuleNode.events (node : ModuleNode) : List TaintEvent :=
  node.assignments.map .assignment ++ node.calls.map .call ++ node.methodCalls.map .methodCall

def ModuleNode.sortedEvents (node : ModuleNode) : List TaintEvent :=
  sortBy TaintEvent.sortKey node.events

structure Diagnostic where
  code : String
  message : String
  path : String
  line : Nat
  note : String
deriving DecidableEq

def taintSinkDiagnostic (node : ModuleNode) (sinkName : String) (line : Nat) : Diagnostic where
  code := "TPY4028"
  message := "tainted source result flows into sink \x60" ++ sinkName
    ++ "\x60 without a sanitizer"
  path := node.modulePath
  line := line
  note := "wrap the source value in a callable marked \x60@sanitizer\x60 before passing it to "
    ++ "a \x60@sink\x60"

/-! ## The pass -/

structure TaintState where
  taintedLocals : TaintedLocals
  sourceMethodCallLines : Option String → Nat → Option TaintContexts
  sanitizerMethodCallLines : Option String → Nat → Option TaintContexts
  diagnostics : List Diagnostic

def TaintState.empty : TaintState where
  taintedLocals := fun _ _ => none
  sourceMethodCallLines := fun _ _ => none
  sanitizerMethodCallLines := fun _ _ => none
  diagnostics := []

/-- Replace what a table with two keys holds at one place. -/
def setEntry {κ ι α : Type} [DecidableEq κ] [DecidableEq ι] (table : κ → ι → Option α) (k : κ)
    (i : ι) (entry : Option α) : κ → ι → Option α :=
  fun k' i' => if k' = k ∧ i' = i then entry else table k' i'

section

variable (tables : TaintTables) (node : ModuleNode)

def ModuleNode.ownerAt (node : ModuleNode) (line : Nat) : Option String :=
  ownerForLine node.ownerLineRanges node.ownerLineMarkers line

/-- Some argument by position is unsanitized for a sink with these contexts. -/
def argsUnsanitized (state : TaintState) (owner : Option String) (args : List DirectExpr)
    (sink : Option TaintContexts) : Bool :=
  match sink with
  | none => false
  | some required =>
    args.any fun arg =>
      tables.argumentIsUnsanitizedSource state.taintedLocals owner arg required

def callStep (state : TaintState) (site : CallSite) : TaintState :=
  let owner := node.ownerAt site.line
  if argsUnsanitized tables state owner site.argValues
      (tables.calleeContexts .sink (some site.callee)) then
    { state with
      diagnostics := state.diagnostics ++ [taintSinkDiagnostic node site.callee site.line] }
  else state

def methodCallOwner (site : MethodCallSite) : Option String :=
  site.currentOwnerName <|> node.ownerAt site.line

def MethodCallSite.contexts (site : MethodCallSite) (kind : TaintFactKind) :
    Option TaintContexts :=
  tables.methodContexts kind (some site.ownerName) (some site.method)

/-- Note the contexts of the sources and sanitizers that are called on the line. -/
def recordMethodCall (state : TaintState) (site : MethodCallSite) : TaintState :=
  let owner := methodCallOwner node site
  { state with
    sourceMethodCallLines :=
      match site.contexts tables .source with
      | none => state.sourceMethodCallLines
      | some contexts => setEntry state.sourceMethodCallLines owner site.line (some contexts)
    sanitizerMethodCallLines :=
      match site.contexts tables .sanitizer with
      | none => state.sanitizerMethodCallLines
      | some contexts =>
        setEntry state.sanitizerMethodCallLines owner site.line (some contexts) }

def MethodCallSite.sinkName (site : MethodCallSite) : String :=
  site.ownerName ++ "." ++ site.method

def methodCallStep (state : TaintState) (site : MethodCallSite) : TaintState :=
  let recorded := recordMethodCall tables node state site
  if argsUnsanitized tables recorded (methodCallOwner node site) site.argValues
      (site.contexts tables .sink) then
    { recorded with
      diagnostics := recorded.diagnostics ++ [taintSinkDiagnostic node site.sinkName site.line] }
  else recorded

/-- The contexts the value brings, required by no sink yet. -/
def assignmentTaintedContexts (state : TaintState) (site : AssignmentSite) : TaintContexts :=
  site.value.elim ∅
      (tables.argumentTaintContexts state.taintedLocals site.ownerName none)
    ∪ (tables.calleeContexts .source site.valueCallee).getD ∅
    ∪ (tables.methodContexts .source site.valueMethodOwnerName site.valueMethodName).getD ∅
    ∪ (state.sourceMethodCallLines site.ownerName site.line).getD ∅

def assignmentSanitizedContexts (state : TaintState) (site : AssignmentSite) : TaintContexts :=
  (tables.calleeContexts .sanitizer site.valueCallee).getD ∅
    ∪ (tables.methodContexts .sanitizer site.valueMethodOwnerName site.valueMethodName).getD ∅
    ∪ (state.sanitizerMethodCallLines site.ownerName site.line).getD ∅

def nonEmpty (contexts : TaintContexts) : Option TaintContexts :=
  if contexts = ∅ then none else some contexts

/-- What is recorded for the assigned local afterwards. A sanitizer of some contexts takes
these from what was recorded before. -/
def updatedContexts (state : TaintState) (site : AssignmentSite) : Option TaintContexts :=
  let sanitized := assignmentSanitizedContexts tables state site
  if sanitized ≠ ∅ then
    if sanitizerContextsCoverAll sanitized then none
    else (state.taintedLocals site.ownerName site.name).bind fun existing =>
      nonEmpty (existing \ sanitized)
  else nonEmpty (assignmentTaintedContexts tables state site)

def assignmentStep (state : TaintState) (site : AssignmentSite) : TaintState :=
  { state with
    taintedLocals := setEntry state.taintedLocals site.ownerName site.name
      (updatedContexts tables state site) }

def taintStep (state : TaintState) : TaintEvent → TaintState
  | .call site => callStep tables node state site
  | .methodCall site => methodCallStep tables node state site
  | .assignment site => assignmentStep tables state site

/-- The state after the events, in their order. -/
def taintRun (state : TaintState) (events : List TaintEvent) : TaintState :=
  events.foldl (taintStep tables node) state

def taintSourceSinkDiagnostics : List Diagnostic :=
  (taintRun tables node .empty node.sortedEvents).diagnostics

end

end TypePython.Effects.TaintFlow
