import TypePython.Checking.ClassGraph
import TypePython.Lib.StackSearch

/-!
# Matches over sealed classes

The patterns of a `match` statement, what is recorded of them, and the check that the cases of
a match over a sealed class name all of its subclasses. Only the class of a class pattern is
recorded, and classes are compared by the text of their bases.
-/

namespace TypePython.Checking

open Std
open TypePython.Lib
open TypePython.Lib.Text
open TypePython.Binding

/-! ## Patterns -/

/-- A pattern of a case. The value of a pattern and the class of a class pattern are kept as
they are written. A capture without a name is `_`. -/
inductive Pattern where
  | value (text : String)
  | singleton (text : String)
  | sequence (patterns : List Pattern)
  | mapping (patterns : List Pattern) (rest : Option String)
  | classPattern (cls : String) (patterns : List Pattern) (keywords : List (String × Pattern))
  | star (name : Option String)
  | capture (name : Option String)
  | asPattern (pattern : Pattern) (name : Option String)
  | or (patterns : List Pattern)

structure MatchCase where
  pattern : Pattern
  hasGuard : Bool

inductive MatchPatternSite where
  | wildcard
  | literal (text : String)
  | classPattern (name : String)
  | unsupported
deriving DecidableEq, Repr

structure MatchCaseSite where
  patterns : List MatchPatternSite
  hasGuard : Bool
deriving DecidableEq, Repr

section Extraction

/-! `isWildcard` is the test of the parser for patterns that take every value. -/

variable (isWildcard : Pattern → Bool)

mutual

/-- What is recorded of a pattern: its alternatives, without what is inside them. -/
def extractMatchPatterns : Pattern → List MatchPatternSite
  | .or patterns =>
    if isWildcard (.or patterns) then [.wildcard] else extractAllMatchPatterns patterns
  | .classPattern cls patterns keywords =>
    if isWildcard (.classPattern cls patterns keywords) then [.wildcard] else [.classPattern cls]
  | .value text => if isWildcard (.value text) then [.wildcard] else [.literal text]
  | .singleton text => if isWildcard (.singleton text) then [.wildcard] else [.literal text]
  | .sequence patterns => if isWildcard (.sequence patterns) then [.wildcard] else [.unsupported]
  | .mapping patterns rest =>
    if isWildcard (.mapping patterns rest) then [.wildcard] else [.unsupported]
  | .star name => if isWildcard (.star name) then [.wildcard] else [.unsupported]
  | .capture name => if isWildcard (.capture name) then [.wildcard] else [.unsupported]
  | .asPattern pattern name =>
    if isWildcard (.asPattern pattern name) then [.wildcard] else [.unsupported]

def extractAllMatchPatterns : List Pattern → List MatchPatternSite
  | [] => []
  | pattern :: rest => extractMatchPatterns pattern ++ extractAllMatchPatterns rest

end

def extractMatchCase (case : MatchCase) : MatchCaseSite where
  patterns := extractMatchPatterns isWildcard case.pattern
  hasGuard := case.hasGuard

end Extraction

def patternClassName : MatchPatternSite → Option String
  | .classPattern name => some name
  | _ => none

/-! ## Sealed classes -/

section

variable (nodes : List ModuleNode)

/-- The first sealed class among a class and its bases that are not visited yet; and the
classes visited then. -/
def resolveSealedRootFrom : Nat → List ClassKey → ModuleNode → String →
    Option (ModuleNode × Declaration) × List ClassKey
  | 0, visited, _, _ => (none, visited)
  | fuel + 1, visited, node, typeName =>
    match resolveDirectBase nodes node typeName with
    | none => (none, visited)
    | some (resolvedNode, resolvedDecl) =>
      if classKey resolvedNode resolvedDecl ∈ visited then (none, visited)
      else if resolvedDecl.classKind = some .sealedClass then
        (some (resolvedNode, resolvedDecl), classKey resolvedNode resolvedDecl :: visited)
      else
        resolvedDecl.renderedClassBases.foldl
          (fun (found, visited) base =>
            if found.isSome then (found, visited)
            else resolveSealedRootFrom fuel visited resolvedNode base)
          (none, classKey resolvedNode resolvedDecl :: visited)

def resolveSealedRoot (node : ModuleNode) (typeName : String) :
    Option (ModuleNode × Declaration) :=
  (resolveSealedRootFrom nodes (classFuel nodes node) [] node typeName).1

/-- A class that is sealed is found at once. -/
theorem resolveSealedRoot_of_sealed {nodes : List ModuleNode} {node : ModuleNode}
    {typeName : String} {cls : ModuleNode × Declaration}
    (hresolved : resolveDirectBase nodes node typeName = some cls)
    (hsealed : cls.2.classKind = some .sealedClass) :
    resolveSealedRoot nodes node typeName = some cls := by
  show (match resolveDirectBase nodes node typeName with
    | none => (none, [])
    | some (resolvedNode, resolvedDecl) =>
      if classKey resolvedNode resolvedDecl ∈ ([] : List ClassKey) then (none, [])
      else if resolvedDecl.classKind = some DeclarationOwnerKind.sealedClass then
        (some (resolvedNode, resolvedDecl), [classKey resolvedNode resolvedDecl])
      else _).1 = some cls
  simp [hresolved, hsealed]

/-- The classes of a module with a base of this name. -/
def directSubclasses (node : ModuleNode) (baseName : String) : List String :=
  (node.declarations.filter fun declaration =>
    declaration.kind = .classDecl && declaration.owner.isNone
      && declaration.hasClassBase baseName).map Declaration.name

def collectSealedDescendants (node : ModuleNode) (rootName : String) : ExtTreeSet String :=
  (StackSearch.run (directSubclasses node) (node.declarations.length + 2)
    ⟨[rootName], ∅⟩).getD ∅

/-- Whether a base of a class has a name, or one of the bases does that are not visited yet;
and the classes visited then. -/
def sealedDescendsFromVisited : Nat → List ClassKey → ModuleNode × Declaration → String →
    Bool × List ClassKey
  | 0, visited, _, _ => (false, visited)
  | fuel + 1, visited, (node, declaration), rootName =>
    if classKey node declaration ∈ visited then (false, visited)
    else
      declaration.renderedClassBases.foldl
        (fun (found, visited) base =>
          if found then (true, visited)
          else if base = rootName then (true, visited)
          else
            match resolveDirectBase nodes node base with
            | none => (false, visited)
            | some baseClass => sealedDescendsFromVisited fuel visited baseClass rootName)
        (false, classKey node declaration :: visited)

def sealedDescendsFrom (node : ModuleNode) (declaration : Declaration) (rootName : String) :
    Bool :=
  (sealedDescendsFromVisited nodes (classFuel nodes node) [] (node, declaration) rootName).1

/-! ## Exhaustiveness -/

structure MatchDiagnostic where
  code : String
  message : String
  renderedCases : List String
deriving DecidableEq, Repr

variable (node : ModuleNode)

/-- The subclasses of a sealed class that a pattern covers. -/
def coveredBy (sealedNode : ModuleNode) (sealedDecl : Declaration)
    (sealedClosure : ExtTreeSet String) (pattern : MatchPatternSite) : List String :=
  match (patternClassName pattern).bind (resolveDirectBase nodes node) with
  | none => []
  | some (caseNode, caseDecl) =>
    if caseNode.moduleKey = sealedNode.moduleKey then
      if caseDecl.name = sealedDecl.name then sealedClosure.toList
      else if sealedDescendsFrom nodes caseNode caseDecl sealedDecl.name then
        caseDecl.name :: (collectSealedDescendants sealedNode caseDecl.name).toList
      else []
    else []

def hasWildcardCase (cases : List MatchCaseSite) : Bool :=
  cases.any fun case => !case.hasGuard && case.patterns.contains .wildcard

/-- The subclasses that no case without a guard covers. -/
def missingSubclasses (sealedNode : ModuleNode) (sealedDecl : Declaration)
    (cases : List MatchCaseSite) : List String :=
  let sealedClosure := collectSealedDescendants sealedNode sealedDecl.name
  let covered := (cases.filter fun case => !case.hasGuard).flatMap fun case =>
    case.patterns.flatMap (coveredBy nodes node sealedNode sealedDecl sealedClosure)
  sealedClosure.toList.filter fun name => !covered.contains name

/-- The diagnostic of a match over a subject of a type, if there is one. -/
def sealedMatchExhaustivenessDiagnostic (subjectType : Option SemanticType)
    (cases : List MatchCaseSite) : Option MatchDiagnostic :=
  if hasWildcardCase cases then none
  else do
    let subjectType ← subjectType
    let (sealedNode, sealedDecl) ← resolveSealedRoot nodes node (renderSemanticType subjectType)
    if (collectSealedDescendants sealedNode sealedDecl.name).isEmpty then none
    else
      let missing := missingSubclasses nodes node sealedNode sealedDecl cases
      if missing.isEmpty then none
      else
        some
          { code := "TPY4009"
            message := "non-exhaustive \x60match\x60 over sealed root \x60" ++ sealedDecl.name
              ++ "\x60 in module \x60" ++ node.modulePath ++ "\x60; missing subclasses: "
              ++ join ", " missing
            renderedCases := missing.map fun name => "case " ++ name ++ ":\n    ..." }

end

end TypePython.Checking
