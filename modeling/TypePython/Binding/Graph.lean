import TypePython.Binding.Declaration

/-!
# Module graphs

The flow sites the binder records for a module, and the module nodes that carry them.
Every site names the function it stands in (`ownerName`) and the type block of a method
(`ownerTypeName`), and the line it starts on.
-/

namespace TypePython.Binding

structure SourceRange where
  start : Nat
  stop : Nat
deriving DecidableEq, Repr

/-- The shape of a direct expression: the name it refers to, if it is one. -/
structure DirectExprMetadata where
  valueName : Option String := none
deriving DecidableEq, Repr

structure CallSite where
  callee : String
  sourceRange : Option SourceRange := none
  argValues : List DirectExprMetadata := []
  line : Nat
deriving DecidableEq, Repr

/-- Whether a call is the one at the given line, and in the given range when one is known. -/
def CallSite.matchesSourceCall (site : CallSite) (callee : String) (line : Nat)
    (sourceRange : Option SourceRange) : Bool :=
  site.callee == callee && site.line == line
    && match sourceRange with
       | some range => site.sourceRange == some range
       | none => true

structure ReturnSite where
  ownerName : String
  ownerTypeName : Option String := none
  line : Nat
deriving DecidableEq, Repr

inductive GuardConditionSite where
  | isNone (name : String) (negated : Bool)
  | isInstance (name : String) (types : List String)
  | predicateCall (name : String) (callee : String)
  | truthyName (name : String)
  | not (inner : GuardConditionSite)
  | and (parts : List GuardConditionSite)
  | or (parts : List GuardConditionSite)

/-- The guard of an `if` and the line ranges of its branches. -/
structure IfGuardSite where
  ownerName : Option String
  ownerTypeName : Option String := none
  guard : Option GuardConditionSite
  line : Nat
  trueStartLine : Nat
  trueEndLine : Nat
  falseStartLine : Option Nat
  falseEndLine : Option Nat

structure AssertGuardSite where
  ownerName : Option String
  ownerTypeName : Option String := none
  guard : Option GuardConditionSite
  line : Nat

inductive InvalidationKind where
  | rebindLike
  | delete
  | scopeChange
deriving DecidableEq, Repr

/-- A statement that invalidates what is known of some names. -/
structure InvalidationSite where
  kind : InvalidationKind
  ownerName : Option String
  ownerTypeName : Option String := none
  names : List String
  line : Nat
deriving DecidableEq, Repr

structure AssignmentSite where
  name : String
  valueCallee : Option String := none
  callSourceRange : Option SourceRange := none
  valueName : Option String := none
  ownerName : Option String := none
  ownerTypeName : Option String := none
  line : Nat
deriving DecidableEq, Repr

inductive SourceKind where
  | typePython
  | python
  | stub
deriving DecidableEq, Repr

structure ModuleNode where
  moduleKey : String
  modulePath : String := ""
  moduleKind : SourceKind := .typePython
  declarations : List Declaration := []
  calls : List CallSite := []
  returns : List ReturnSite := []
  ifGuards : List IfGuardSite := []
  asserts : List AssertGuardSite := []
  invalidations : List InvalidationSite := []
  assignments : List AssignmentSite := []

/-- A module as the binder gives it. -/
structure BoundModule where
  node : ModuleNode
  isBound : ∀ declaration ∈ node.declarations, declaration.IsBound

structure ModuleGraph where
  nodes : List ModuleNode := []

end TypePython.Binding
