import TypePython.Binding.FunctionBody
import TypePython.Checking.SemanticType
import TypePython.Lib.SortDedup
import Std.Data.ExtTreeMap

/-!
# Flow-sensitive lookup

How the checker finds the type of a local variable at a line: which assignments it takes
into account, and which guards narrow the result. Control flow is not followed: everything
is read off the line ranges of the recorded sites.
-/

namespace TypePython.Checking

open Std
open TypePython.Lib
open TypePython.Binding

section

variable (node : ModuleNode) (currentOwnerName currentOwnerTypeName : Option String)

/-! ## Reassignments -/

/-- Whether a name is assigned or invalidated strictly between two lines. -/
def directlyReassignedAfterLine (valueName : String) (afterLine currentLine : Nat) : Bool :=
  (node.assignments.any fun assignment =>
    assignment.name == valueName
      && assignment.ownerName == currentOwnerName
      && assignment.ownerTypeName == currentOwnerTypeName
      && decide (afterLine < assignment.line)
      && decide (assignment.line < currentLine))
  || (node.invalidations.any fun site =>
    site.names.contains valueName
      && site.ownerName == currentOwnerName
      && site.ownerTypeName == currentOwnerTypeName
      && decide (afterLine < site.line)
      && decide (site.line < currentLine))

/-- One assignment of the alias scan; the state is the aliases found and the names tracked. -/
def trackAlias (valueName : String) (state : ExtTreeMap String Nat × ExtTreeMap String Nat)
    (assignment : AssignmentSite) : ExtTreeMap String Nat × ExtTreeMap String Nat :=
  match assignment.valueName with
  | none => state
  | some sourceName =>
    if sourceName ∈ state.2 ∧ assignment.name ≠ valueName then
      (state.1.insertIfNew assignment.name assignment.line,
        state.2.insertIfNew assignment.name assignment.line)
    else state

/-- The names that become aliases of `valueName` between two lines, and since which line. -/
def aliasesAfterLine (valueName : String) (afterLine currentLine : Nat) :
    ExtTreeMap String Nat :=
  let assignments := sortBy AssignmentSite.line (node.assignments.filter fun assignment =>
    assignment.ownerName == currentOwnerName
      && assignment.ownerTypeName == currentOwnerTypeName
      && decide (afterLine < assignment.line)
      && decide (assignment.line < currentLine))
  (assignments.foldl (trackAlias valueName)
    (∅, (∅ : ExtTreeMap String Nat).insert valueName afterLine)).1

/-- Whether a name, or an alias of it, is reassigned between two lines. -/
def nameReassignedAfterLine (valueName : String) (afterLine currentLine : Nat) : Bool :=
  directlyReassignedAfterLine node currentOwnerName currentOwnerTypeName valueName afterLine
      currentLine
  || (aliasesAfterLine node currentOwnerName currentOwnerTypeName valueName afterLine
      currentLine).toList.any fun (aliasName, aliasLine) =>
        directlyReassignedAfterLine node currentOwnerName currentOwnerTypeName aliasName
          aliasLine currentLine

/-- The line of the last `del` of a name before a line. -/
def latestDeleteInvalidationLine (currentLine : Nat) (valueName : String) : Option Nat :=
  (node.invalidations.reverse.find? fun site =>
    site.kind == .delete
      && site.names.contains valueName
      && site.ownerName == currentOwnerName
      && site.ownerTypeName == currentOwnerTypeName
      && decide (site.line < currentLine)).map InvalidationSite.line

/-! ## Assignments -/

def latestAssignmentInRange (valueName : String) (startLine endLine : Nat) :
    Option AssignmentSite :=
  node.assignments.reverse.find? fun assignment =>
    assignment.name == valueName
      && assignment.ownerName == currentOwnerName
      && assignment.ownerTypeName == currentOwnerTypeName
      && decide (startLine ≤ assignment.line)
      && decide (assignment.line ≤ endLine)

/-- The line an `if` with an `else` ends on, when it ends before `currentLine`. -/
def joinLine (currentLine : Nat) (guard : IfGuardSite) : Option (Nat × IfGuardSite) :=
  match guard.falseStartLine, guard.falseEndLine with
  | some _, some falseEnd =>
    let afterLine := max guard.trueEndLine falseEnd
    if afterLine < currentLine then some (afterLine, guard) else none
  | _, _ => none

/-- The `if` with an `else` the lookup joins at: the last to end before the line with no
reassignment in between. -/
def joinGuard (currentLine : Nat) (valueName : String) : Option (Nat × IfGuardSite) :=
  let guards := (node.ifGuards.filter fun guard =>
    guard.ownerName == currentOwnerName && guard.ownerTypeName == currentOwnerTypeName).filterMap
      (joinLine currentLine)
  (sortBy Prod.fst guards).reverse.find? fun (afterLine, _) =>
    !nameReassignedAfterLine node currentOwnerName currentOwnerTypeName valueName afterLine
      currentLine

/-- The last assignment in either branch of the `if` the lookup joins at. -/
def joinedAssignments (currentLine : Nat) (valueName : String) :
    Option (AssignmentSite × AssignmentSite) := do
  let (_, guard) ← joinGuard node currentOwnerName currentOwnerTypeName currentLine valueName
  let trueAssignment ← latestAssignmentInRange node currentOwnerName currentOwnerTypeName
    valueName guard.trueStartLine guard.trueEndLine
  let falseAssignment ← latestAssignmentInRange node currentOwnerName currentOwnerTypeName
    valueName (← guard.falseStartLine) (← guard.falseEndLine)
  return (trueAssignment, falseAssignment)

/-- The join of the types of those two assignments; `siteType` types an assignment. -/
def resolvePostIfJoinedAssignment (siteType : AssignmentSite → Option SemanticType)
    (currentLine : Nat) (valueName : String) : Option SemanticType := do
  let (trueAssignment, falseAssignment) ←
    joinedAssignments node currentOwnerName currentOwnerTypeName currentLine valueName
  let trueType ← siteType trueAssignment
  let falseType ← siteType falseAssignment
  return joinSemanticTypeCandidates [trueType, falseType]

/-- The last assignment before a line, and after the `del` of the name if there is one. -/
def latestAssignmentBefore (deletedAfterLine : Option Nat) (currentLine : Nat)
    (valueName : String) : Option AssignmentSite :=
  node.assignments.reverse.find? fun assignment =>
    assignment.name == valueName
      && assignment.ownerName == currentOwnerName
      && assignment.ownerTypeName == currentOwnerTypeName
      && decide (assignment.line < currentLine)
      && (deletedAfterLine.all fun deletedLine => decide (deletedLine < assignment.line))

/-- The type of a local variable at a line; nothing outside of functions. -/
def resolveLocalAssignmentReference (siteType : AssignmentSite → Option SemanticType)
    (currentLine : Nat) (valueName : String) : Option SemanticType :=
  match currentOwnerName with
  | none => none
  | some ownerName =>
    let deletedAfterLine :=
      latestDeleteInvalidationLine node (some ownerName) currentOwnerTypeName currentLine
        valueName
    let joined := (resolvePostIfJoinedAssignment node (some ownerName) currentOwnerTypeName
      siteType currentLine valueName).filter fun _ => deletedAfterLine.isNone
    match joined with
    | some joined => some joined
    | none =>
      (latestAssignmentBefore node (some ownerName) currentOwnerTypeName deletedAfterLine
        currentLine valueName).bind siteType

end

/-! ## Guard conditions -/

/-- What narrowing asks of the modules: whether two types match structurally, and the kind
of guard a predicate function declares, with the type it guards and whether it is trusted. -/
structure GuardContext where
  semanticTypeMatches : SemanticType → SemanticType → Bool
  parseGuardReturnKind : String → Option (String × SemanticType × Bool) := fun _ => none
  validatorWitnessesEnabled : Bool := false

/-- The base type without its `None` branches, if it is a union and something is left. -/
def removeNoneSemanticBranch (baseType : SemanticType) : Option SemanticType := do
  let branches ← semanticUnionBranches baseType
  let kept := branches.filter fun branch => branch.stripAnnotated ≠ .name "None"
  if kept = [] then none else some (joinSemanticTypeCandidates kept)

def semanticLiteralBoolValue (ty : SemanticType) : Option Bool :=
  match ty.genericParts with
  | some (head, [arg]) =>
    if head ≠ "Literal" then none
    else if arg.stripAnnotated = .name "True" then some true
    else if arg.stripAnnotated = .name "False" then some false
    else none
  | _ => none

/-- Whether a branch of a union is taken to be true whenever it is tested. -/
def semanticIsDefinitelyTruthyBranch (branch : SemanticType) : Bool :=
  match semanticLiteralBoolValue branch with
  | some value => value
  | none =>
    match branch.stripAnnotated with
    | .name name =>
      decide (name ∉ ["None", "bool", "bytes", "str", "int", "float", "complex", "list", "dict",
        "set", "tuple"])
    | _ => true

/-- Narrowing by a truthiness test. -/
def applyTruthySemanticNarrowing (baseType : SemanticType) (branchTrue : Bool) : SemanticType :=
  match semanticLiteralBoolValue baseType with
  | some value =>
    if branchTrue = value then baseType
    else .generic "Literal" [.name (if value then "False" else "True")]
  | none =>
    if baseType.stripAnnotated = .name "bool" then baseType
    else
      match semanticUnionBranches baseType with
      | none => baseType
      | some branches =>
        let nonNone := branches.filter fun branch => branch.stripAnnotated ≠ .name "None"
        if branches.any (fun branch => branch.stripAnnotated = .name "None")
            && nonNone.all semanticIsDefinitelyTruthyBranch then
          if branchTrue then joinSemanticTypeCandidates nonNone else .name "None"
        else baseType

-- a list counts as true, empty or not
example : applyTruthySemanticNarrowing (.union [.generic "list" [.name "int"], .name "None"]) false
    = .name "None" := by decide

section

variable (context : GuardContext)

/-- The branches some of the types match, or the types themselves if there are none. -/
def narrowToInstanceSemanticTypes (baseType : SemanticType) (types : List SemanticType) :
    SemanticType :=
  let kept := ((semanticUnionBranches baseType).getD []).filter fun branch =>
    types.any fun ty => context.semanticTypeMatches ty branch
  if kept = [] then joinSemanticTypeCandidates types else joinSemanticTypeCandidates kept

/-- The branches none of the types matches, if the base type is a union and there are some. -/
def removeInstanceSemanticTypes (baseType : SemanticType) (types : List SemanticType) :
    SemanticType :=
  match semanticUnionBranches baseType with
  | none => baseType
  | some branches =>
    let kept := branches.filter fun branch =>
      !types.any fun ty => context.semanticTypeMatches ty branch
    if kept = [] then baseType else joinSemanticTypeCandidates kept

/-- Narrowing by the call of a predicate. -/
def applyPredicateGuard (baseType : SemanticType) (callee : String) (branchTrue : Bool) :
    SemanticType :=
  match context.parseGuardReturnKind callee with
  | none => baseType
  | some (kind, guardedType, trustedWitness) =>
    match kind, branchTrue with
    | "TypeGuard", true => narrowToInstanceSemanticTypes context baseType [guardedType]
    | "TypeIs", true => narrowToInstanceSemanticTypes context baseType [guardedType]
    | "ValidatorWitness", true =>
      if context.validatorWitnessesEnabled ∧ trustedWitness
          ∧ baseType.stripAnnotated = .name "unknown" then guardedType
      else baseType
    | "TypeIs", false => removeInstanceSemanticTypes context baseType [guardedType]
    | _, _ => baseType

variable (valueName : String)

mutual

/-- The type of a variable once a guard is known to be true or false. -/
def applyGuardCondition : GuardConditionSite → SemanticType → Bool → SemanticType
  | .isNone name negated, baseType, branchTrue =>
    if name ≠ valueName then baseType
    else if branchTrue ≠ negated then .name "None"
    else (removeNoneSemanticBranch baseType).getD baseType
  | .isInstance name types, baseType, branchTrue =>
    if name ≠ valueName then baseType
    else if branchTrue then
      narrowToInstanceSemanticTypes context baseType (types.map lowerTypeTextOrName)
    else removeInstanceSemanticTypes context baseType (types.map lowerTypeTextOrName)
  | .predicateCall name callee, baseType, branchTrue =>
    if name ≠ valueName then baseType
    else applyPredicateGuard context baseType callee branchTrue
  | .truthyName name, baseType, branchTrue =>
    if name ≠ valueName then baseType else applyTruthySemanticNarrowing baseType branchTrue
  | .not inner, baseType, branchTrue => applyGuardCondition inner baseType (!branchTrue)
  | .and parts, baseType, branchTrue =>
    if branchTrue then applyEach parts baseType true
    else joinSemanticTypeCandidates (applyEither parts baseType false)
  | .or parts, baseType, branchTrue =>
    if branchTrue then joinSemanticTypeCandidates (applyEither parts baseType true)
    else applyEach parts baseType false

/-- All parts have the given truth value: narrow by one after the other. -/
def applyEach : List GuardConditionSite → SemanticType → Bool → SemanticType
  | [], current, _ => current
  | part :: rest, current, branchTrue =>
    applyEach rest (applyGuardCondition part current branchTrue) branchTrue

/-- One part is the first with the given truth value: the narrowed type for each choice. -/
def applyEither : List GuardConditionSite → SemanticType → Bool → List SemanticType
  | [], _, _ => []
  | part :: rest, current, branchTrue =>
    applyGuardCondition part current branchTrue
      :: applyEither rest (applyGuardCondition part current (!branchTrue)) branchTrue

end

end

/-! ## Which guards apply -/

/-- A guard to narrow by: the line of its statement, its truth value and its condition. -/
structure AppliedGuard where
  line : Nat
  branchTrue : Bool
  condition : GuardConditionSite

section

variable (node : ModuleNode) (currentOwnerName currentOwnerTypeName : Option String)

/-- Whether some return of the function lies in a line range. -/
def branchHasReturn (startLine endLine : Nat) : Bool :=
  node.returns.any fun site =>
    site.ownerName == currentOwnerName.getD ""
      && site.ownerTypeName == currentOwnerTypeName
      && decide (startLine ≤ site.line)
      && decide (site.line ≤ endLine)

/-- The branch of an `if` whose lines hold the current line. -/
def enclosingBranch (currentLine : Nat) (guard : IfGuardSite) : Option Bool :=
  if guard.trueStartLine ≤ currentLine ∧ currentLine ≤ guard.trueEndLine then some true
  else
    match guard.falseStartLine, guard.falseEndLine with
    | some falseStart, some falseEnd =>
      if falseStart ≤ currentLine ∧ currentLine ≤ falseEnd then some false else none
    | _, _ => none

/-- The truth value of an `if` that is over, when exactly one of its branches has a return. -/
def branchAfter (guard : IfGuardSite) : Option Bool :=
  let trueTerminal := branchHasReturn node currentOwnerName currentOwnerTypeName
    guard.trueStartLine guard.trueEndLine
  let falseTerminal :=
    match guard.falseStartLine, guard.falseEndLine with
    | some falseStart, some falseEnd =>
      branchHasReturn node currentOwnerName currentOwnerTypeName falseStart falseEnd
    | _, _ => false
  match trueTerminal, falseTerminal, guard.falseStartLine.isSome with
  | true, false, _ => some false
  | false, true, true => some true
  | _, _, _ => none

/-- A guard of the function before the line, with no reassignment in between. -/
def guardInForce (currentLine : Nat) (valueName : String) (ownerName ownerTypeName : Option String)
    (line : Nat) : Bool :=
  ownerName == currentOwnerName
    && ownerTypeName == currentOwnerTypeName
    && decide (line < currentLine)
    && !nameReassignedAfterLine node currentOwnerName currentOwnerTypeName valueName line currentLine

/-- The guards of the `if` statements around the line. -/
def enclosingGuards (currentLine : Nat) (valueName : String) : List AppliedGuard :=
  let guards := (node.ifGuards.filter fun guard =>
    guardInForce node currentOwnerName currentOwnerTypeName currentLine valueName guard.ownerName
      guard.ownerTypeName guard.line).filterMap fun guard => do
        return ⟨guard.line, ← enclosingBranch currentLine guard, ← guard.guard⟩
  sortBy AppliedGuard.line guards

/-- The guards of the `if` statements before the line. -/
def postIfGuards (currentLine : Nat) (valueName : String) : List AppliedGuard :=
  let guards := (node.ifGuards.filter fun guard =>
    guardInForce node currentOwnerName currentOwnerTypeName currentLine valueName guard.ownerName
        guard.ownerTypeName guard.line
      && decide (guard.falseEndLine.getD guard.trueEndLine < currentLine)).filterMap fun guard => do
        return ⟨guard.line, ← branchAfter node currentOwnerName currentOwnerTypeName guard,
          ← guard.guard⟩
  sortBy AppliedGuard.line guards

/-- The conditions of the assertions before the line. -/
def assertGuards (currentLine : Nat) (valueName : String) : List AppliedGuard :=
  let guards := (node.asserts.filter fun guard =>
    guardInForce node currentOwnerName currentOwnerTypeName currentLine valueName guard.ownerName
      guard.ownerTypeName guard.line).filterMap fun guard => do
        return ⟨guard.line, true, ← guard.guard⟩
  sortBy AppliedGuard.line guards

/-- The guards to narrow by, in the order in which they are applied. -/
def appliedGuards (currentLine : Nat) (valueName : String) : List AppliedGuard :=
  enclosingGuards node currentOwnerName currentOwnerTypeName currentLine valueName
    ++ postIfGuards node currentOwnerName currentOwnerTypeName currentLine valueName
    ++ assertGuards node currentOwnerName currentOwnerTypeName currentLine valueName

/-- The type of a variable at a line, narrowed by the guards that apply there. -/
def applyGuardNarrowing (context : GuardContext) (currentLine : Nat) (valueName : String)
    (baseType : SemanticType) : SemanticType :=
  (appliedGuards node currentOwnerName currentOwnerTypeName currentLine valueName).foldl
    (fun narrowed guard =>
      applyGuardCondition context valueName guard.condition narrowed guard.branchTrue) baseType

end

end TypePython.Checking
