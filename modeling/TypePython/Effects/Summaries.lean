import Std.Data.ExtTreeMap
import Std.Data.ExtTreeSet
import TypePython.Checking.ImportedSymbols
import TypePython.Lib.SortDedup

/-!
# Effect summaries

The effect rows of a module's callables. Rows are declared by decorators, known of the
standard library, or inferred along the calls between the callables
(`collectInferredEffectSummaries`). What is read off the text of a module, its decorated
callables, framework adapters and call edges, is a parameter of the model.
-/

namespace TypePython.Effects

open Std
open TypePython.Lib.Text
open TypePython.Lib
open TypePython.Binding
open TypePython.Checking

attribute [local instance] lexOrd

/-! ## Rows -/

inductive EffectKind where
  | unsafeCode
  | ioFs
  | ioNet
  | ioProc
  | time
  | random
  | runtimeValidation
  | taintSanitize
  | declared (name : String)
deriving DecidableEq, Repr

namespace EffectKind

def label : EffectKind → String
  | unsafeCode => "unsafe"
  | ioFs => "io.fs"
  | ioNet => "io.net"
  | ioProc => "io.proc"
  | time => "time"
  | random => "random"
  | runtimeValidation => "runtime.validation"
  | taintSanitize => "taint.sanitize"
  | declared name => name

def rank : EffectKind → Nat
  | unsafeCode => 0
  | ioFs => 1
  | ioNet => 2
  | ioProc => 3
  | time => 4
  | random => 5
  | runtimeValidation => 6
  | taintSanitize => 7
  | declared _ => 8

instance : Ord EffectKind := ⟨compareLex (compareOn rank) (compareOn label)⟩

instance : TransOrd EffectKind :=
  inferInstanceAs <| TransCmp (compareLex (compareOn rank) (compareOn label))

instance : LawfulEqOrd EffectKind where
  eq_of_compare {a b} h := by
    obtain ⟨hrank, hlabel⟩ : compareOn rank a b = .eq ∧ compareOn label a b = .eq :=
      compareLex_eq_eq.1 h
    have hrank' : a.rank = b.rank := LawfulEqOrd.eq_of_compare hrank
    have hlabel' : a.label = b.label := LawfulEqOrd.eq_of_compare hlabel
    cases a <;> cases b <;> simp_all [rank, label]

end EffectKind

def effectKindFromLabel (label : String) : EffectKind :=
  match label with
  | "unsafe" => .unsafeCode
  | "io.fs" => .ioFs
  | "io.net" => .ioNet
  | "io.proc" => .ioProc
  | "time" => .time
  | "random" => .random
  | "runtime.validation" => .runtimeValidation
  | "taint.sanitize" => .taintSanitize
  | other => .declared other

abbrev EffectRow := ExtTreeSet EffectKind

namespace EffectRow

def extend (row other : EffectRow) : EffectRow := row ∪ other

def labels (row : EffectRow) : List String := row.toList.map EffectKind.label

def fromLabels (labels : List String) : EffectRow :=
  labels.foldl (fun row label => row.insert (effectKindFromLabel label)) ∅

end EffectRow

/-! ## Summaries -/

inductive EffectSource where
  | decorator (name : String)
  | lifecycle (name : String)
  | unsafeBlock
  | inferred (name : String)
  | stdlib (name : String)
deriving DecidableEq, Repr

/-- A callable: the type that owns it, and its name. -/
abbrev CallableKey := Option String × String

instance : TransOrd CallableKey := inferInstanceAs <| TransOrd (Option String × String)

structure EffectSummary where
  callable : String
  ownerTypeName : Option String
  pure : Bool
  row : EffectRow
  sources : List EffectSource
  line : Nat

namespace EffectSummary

def displayName (summary : EffectSummary) : String :=
  match summary.ownerTypeName with
  | some owner => owner ++ "." ++ summary.callable
  | none => summary.callable

def key (summary : EffectSummary) : CallableKey := (summary.ownerTypeName, summary.callable)

def hasDeclaredEffectRow (summary : EffectSummary) : Bool :=
  !summary.row.isEmpty && summary.sources.any fun source =>
    match source with
    | .inferred _ => false
    | _ => true

end EffectSummary

/-- The first summary of each function. -/
def functionSummariesByName (summaries : List EffectSummary) : ExtTreeMap String EffectSummary :=
  (summaries.filter (·.ownerTypeName.isNone)).foldl
    (fun byName summary => byName.insertIfNew summary.callable summary) ∅

/-- The first summary of each method. -/
def methodSummariesByName (summaries : List EffectSummary) :
    ExtTreeMap (String × String) EffectSummary :=
  (summaries.filterMap fun summary =>
      summary.ownerTypeName.map fun owner => ((owner, summary.callable), summary)).foldl
    (fun byName (name, summary) => byName.insertIfNew name summary) ∅

def effectfulFunctionSummariesByName (summaries : List EffectSummary) :
    ExtTreeMap String EffectSummary :=
  (functionSummariesByName summaries).filter fun _ summary => !summary.row.isEmpty

def effectfulMethodSummariesByName (summaries : List EffectSummary) :
    ExtTreeMap (String × String) EffectSummary :=
  (methodSummariesByName summaries).filter fun _ summary => !summary.row.isEmpty

/-! ## Inference along calls -/

inductive EffectCallCallee where
  | function (name : String)
  | method (ownerTypeName methodName : String)
deriving DecidableEq, Repr

/-- A call in the body of a callable, the owner of the edge. -/
structure EffectCallEdge where
  ownerTypeName : Option String
  ownerName : String
  callee : EffectCallCallee
  line : Nat
deriving DecidableEq, Repr

def EffectCallEdge.ownerKey (edge : EffectCallEdge) : CallableKey :=
  (edge.ownerTypeName, edge.ownerName)

abbrev InferredSummaries := ExtTreeMap CallableKey EffectSummary

/-- The callables that are not inferred: pure ones, and those with a declared row. -/
def declaredKeys (seeds : List EffectSummary) : List CallableKey :=
  (seeds.filter fun summary => summary.pure || summary.hasDeclaredEffectRow).map
    EffectSummary.key

structure InferenceRound where
  inferred : InferredSummaries
  changed : Bool

section Inference

variable (functionEffects : ExtTreeMap String EffectSummary)
  (methodEffects : ExtTreeMap (String × String) EffectSummary)

def calleeSummary : EffectCallCallee → Option EffectSummary
  | .function callee => functionEffects[callee]?
  | .method ownerTypeName methodName => methodEffects[(ownerTypeName, methodName)]?

/-- The summary of a caller before anything is inferred for it. -/
def newInferredSummary (edge : EffectCallEdge) : EffectSummary where
  callable := edge.ownerName
  ownerTypeName := edge.ownerTypeName
  pure := false
  row := ∅
  sources := []
  line := edge.line

/-- Take on the effects of a callee that is called on a line. -/
def EffectSummary.absorb (entry callee : EffectSummary) (line : Nat) : EffectSummary :=
  let inferredSource := EffectSource.inferred callee.displayName
  { entry with
    row := entry.row.extend callee.row
    sources := if inferredSource ∈ entry.sources then entry.sources
      else entry.sources ++ [inferredSource]
    line := min entry.line line }

/-- Add the row of a callee to the row of its caller. -/
def inferEdge (declared : List CallableKey) (round : InferenceRound) (edge : EffectCallEdge) :
    InferenceRound :=
  if edge.ownerKey ∈ declared then round
  else
    match calleeSummary functionEffects methodEffects edge.callee with
    | none => round
    | some callee =>
      if callee.row.isEmpty then round
      else
        let entry := (round.inferred[edge.ownerKey]?).getD (newInferredSummary edge)
        let extended := entry.absorb callee edge.line
        { inferred := round.inferred.insert edge.ownerKey extended
          changed := round.changed || extended.row != entry.row }

end Inference

/-- The summaries a round looks callees up in: the seeds, then what is inferred so far. -/
def roundSummaries (seeds : List EffectSummary) (inferred : InferredSummaries) :
    List EffectSummary :=
  seeds ++ inferred.toList.map Prod.snd

def inferRound (edges : List EffectCallEdge) (seeds : List EffectSummary)
    (inferred : InferredSummaries) : InferenceRound :=
  let summaries := roundSummaries seeds inferred
  edges.foldl
    (inferEdge (effectfulFunctionSummariesByName summaries)
      (effectfulMethodSummariesByName summaries) (declaredKeys seeds))
    { inferred, changed := false }

def inferRounds (edges : List EffectCallEdge) (seeds : List EffectSummary) :
    Nat → InferredSummaries → InferredSummaries
  | 0, inferred => inferred
  | rounds + 1, inferred =>
    let round := inferRound edges seeds inferred
    if round.changed then inferRounds edges seeds rounds round.inferred else round.inferred

def collectInferredEffectSummaries (edges : List EffectCallEdge) (seeds : List EffectSummary) :
    List EffectSummary :=
  (inferRounds edges seeds 8 ∅).toList.map Prod.snd

end TypePython.Effects
