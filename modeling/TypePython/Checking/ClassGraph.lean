import Mathlib.Logic.Relation
import Std.Data.ExtTreeMap
import TypePython.Checking.ImportedSymbols
import TypePython.Checking.TypeSubstitution

/-!
# Classes, interfaces and aliases of a module graph

How the names of a module are resolved to classes and aliases, which classes are interfaces, the
members an interface asks for and the members a class has. The searches through base classes
visit no class twice; `classFuel` is more than they can visit.
-/

namespace TypePython.Checking

open Std
open TypePython.Lib.Text
open TypePython.Syntax
open TypePython.Binding

variable (nodes : List ModuleNode)

/-! ## Resolution -/

abbrev ClassRef := ModuleNode × Declaration

def topLevelNamed (kind : DeclarationKind) (node : ModuleNode) (name : String) :
    Option Declaration :=
  node.declarations.find? fun declaration =>
    declaration.name = name && declaration.owner.isNone && declaration.kind = kind

def resolveDirectBase (node : ModuleNode) (baseName : String) :
    Option (ModuleNode × Declaration) :=
  match topLevelNamed .classDecl node baseName with
  | some declaration => some (node, declaration)
  | none => (resolveImportedSymbolSemanticTarget node nodes baseName).bind (·.classProvider)

/-- A top-level class of a module. -/
structure TopLevelClass (owner : ModuleNode) (decl : Declaration) : Prop where
  declared : decl ∈ owner.declarations
  isClass : decl.kind = .classDecl
  topLevel : decl.owner = none

theorem topLevelNamed_spec {kind : DeclarationKind} {owner : ModuleNode} {name : String}
    {decl : Declaration} (h : topLevelNamed kind owner name = some decl) :
    decl ∈ owner.declarations ∧ decl.name = name ∧ decl.owner = none ∧ decl.kind = kind := by
  have hmem := List.mem_of_find?_eq_some h
  have htest := List.find?_some h
  simp only [Bool.and_eq_true, decide_eq_true_eq, Option.isNone_iff_eq_none] at htest
  exact ⟨hmem, htest.1.1, htest.1.2, htest.2⟩

/-- What a name is resolved to is a top-level class of the module or of one of the graph. -/
theorem resolveDirectBase_spec {nodes : List ModuleNode} {owner : ModuleNode} {text : String}
    {cls : ClassRef}
    (h : resolveDirectBase nodes owner text = some cls) :
    cls.1 ∈ owner :: nodes ∧ TopLevelClass cls.1 cls.2 := by
  unfold resolveDirectBase at h
  split at h
  · rename_i decl hnamed
    cases h
    rcases topLevelNamed_spec hnamed with ⟨hmem, -, howner, hkind⟩
    exact ⟨List.mem_cons_self, hmem, hkind, howner⟩
  · -- an imported class: the import names a symbol of a module of the graph
    rcases Option.bind_eq_some_iff.1 h with ⟨target, htarget, hprovider⟩
    rcases Option.bind_eq_some_iff.1 htarget with ⟨importDecl, -, hresolved⟩
    rcases Option.bind_eq_some_iff.1 hresolved with ⟨importTarget, -, hfound⟩
    rcases Option.bind_eq_some_iff.1 hprovider with ⟨decl, hdecl, hclass⟩
    split at hfound
    · cases hfound
      cases hdecl
    · rcases Option.bind_eq_some_iff.1 hfound with ⟨symbolTarget, -, hprovided⟩
      rcases Option.bind_eq_some_iff.1 hprovided with ⟨providerNode, hnode, hsymbol⟩
      rcases Option.bind_eq_some_iff.1 hsymbol with ⟨found, hmem, heq⟩
      cases heq
      cases hdecl
      dsimp only at hclass
      split at hclass
      · rename_i htest
        rw [Bool.and_eq_true, Option.isNone_iff_eq_none, decide_eq_true_eq] at htest
        cases hclass
        exact ⟨List.mem_cons_of_mem _ (List.mem_of_find?_eq_some hnode),
          List.mem_of_find?_eq_some hmem, htest.2, htest.1⟩
      · cases hclass

/-- The name of a class without its type arguments. -/
def classHead (text : String) : String := String.ofList (text.toList.takeWhile (· ≠ '['))

/-- A class is one of the bases of another: type arguments do not matter at run time. -/
def DirectBase (cls base : ClassRef) : Prop :=
  ∃ text ∈ cls.2.renderedClassBases, resolveDirectBase nodes cls.1 (classHead text) = some base

def IsSubclass (cls base : ClassRef) : Prop := Relation.ReflTransGen (DirectBase nodes) cls base

/-- An alias that is named with its module, by its key or as it is imported. -/
def resolveQualifiedTypeAlias (node : ModuleNode) (moduleKey symbolName : String) :
    Option (ModuleNode × Declaration) :=
  let ofModule : Option (ModuleNode × Declaration) := do
    let targetNode ← nodes.find? fun candidate => candidate.moduleKey = moduleKey
    let targetDecl ← topLevelNamed .typeAlias targetNode symbolName
    return (targetNode, targetDecl)
  let ofImport : Option (ModuleNode × Declaration) := do
    let importDecl ← node.declarations.find? fun declaration =>
      declaration.kind = .importDecl && declaration.name = moduleKey
    let target ← resolveImportedSymbolSemanticTargetFromDeclaration nodes importDecl
    let targetNode ← target.moduleTarget
    let targetDecl ← topLevelNamed .typeAlias targetNode symbolName
    return (targetNode, targetDecl)
  ofModule.or ofImport

def resolveDirectTypeAlias (node : ModuleNode) (name : String) :
    Option (ModuleNode × Declaration) :=
  match topLevelNamed .typeAlias node name with
  | some declaration => some (node, declaration)
  | none =>
    ((rsplitOnce '.' name.toList).bind fun (moduleKey, symbolName) =>
      resolveQualifiedTypeAlias nodes node (String.ofList moduleKey)
        (String.ofList symbolName)).or
      ((resolveImportedSymbolSemanticTarget node nodes name).bind (·.typeAliasProvider))

/-! ## New types -/

def isNewTypeCallee (callee : String) : Bool := callee ∈ ["NewType", "typing.NewType"]

/-- The base of a name that a module assigns a call of `NewType`. -/
def moduleNewtypeBaseSemanticType (module : ModuleNode) (name : String) :
    Option SemanticType := do
  let assignment ← module.assignments.find? fun assignment =>
    assignment.ownerName.isNone && assignment.name = name
      && (assignment.valueCallee.map isNewTypeCallee).getD false
  let call ← module.calls.find? fun call =>
    isNewTypeCallee call.callee
      && call.matchesSourceCall call.callee assignment.line assignment.callSourceRange
  let baseName ← call.argValues[1]?.bind DirectExprMetadata.valueName
  return .name baseName

def resolveNewtypeBaseSemanticType (node : ModuleNode) (name : String) : Option SemanticType :=
  (moduleNewtypeBaseSemanticType node name).or
    ((resolveImportedSymbolSemanticTarget node nodes name).bind fun target =>
      moduleNewtypeBaseSemanticType target.providerNode name)

/-! ## Interfaces -/

/-- A class, as a search remembers it. -/
abbrev ClassKey := String × String

def classKey (node : ModuleNode) (declaration : Declaration) : ClassKey :=
  (node.moduleKey, declaration.name)

/-- More steps down the base classes than there are declarations. -/
def classFuel (node : ModuleNode) : Nat :=
  ((node :: nodes).flatMap ModuleNode.declarations).length + 1

/-- The classes among the bases of a class. -/
def baseClasses (node : ModuleNode) (declaration : Declaration) :
    List (ModuleNode × Declaration) :=
  declaration.renderedClassBases.filterMap (resolveDirectBase nodes node)

/-- Whether a class is an interface or has one among its bases that are not visited yet; and
the classes visited then. -/
def isInterfaceLikeFrom : Nat → List ClassKey → ModuleNode × Declaration → Bool × List ClassKey
  | 0, visited, _ => (false, visited)
  | fuel + 1, visited, (node, declaration) =>
    if declaration.classKind = some .interface then (true, visited)
    else if classKey node declaration ∈ visited then (false, visited)
    else
      (baseClasses nodes node declaration).foldl
        (fun (found, visited) base =>
          if found then (true, visited) else isInterfaceLikeFrom fuel visited base)
        (false, classKey node declaration :: visited)

def isInterfaceLikeDeclaration (node : ModuleNode) (declaration : Declaration) : Bool :=
  (isInterfaceLikeFrom nodes (classFuel nodes node) [] (node, declaration)).1

/-! ## Members -/

def isOwnedBy (className : String) (member : Declaration) : Bool :=
  (member.owner.map DeclarationOwner.name) = some className

/-- Add the members of an interface and of its bases; the first of a name is kept. -/
def collectInterfaceMembersFrom :
    Nat → List ClassKey × ExtTreeMap String Declaration → ModuleNode × Declaration →
      List ClassKey × ExtTreeMap String Declaration
  | 0, state, _ => state
  | fuel + 1, (visited, requirements), (node, declaration) =>
    if classKey node declaration ∈ visited then (visited, requirements)
    else
      let members := node.declarations.filter fun candidate =>
        isOwnedBy declaration.name candidate
          && (candidate.kind = .value || candidate.kind = .function)
      let requirements := members.foldl
        (fun requirements member => requirements.insertIfNew member.name member) requirements
      ((baseClasses nodes node declaration).filter fun (baseNode, baseDecl) =>
          isInterfaceLikeDeclaration nodes baseNode baseDecl).foldl
        (collectInterfaceMembersFrom fuel)
        (classKey node declaration :: visited, requirements)

/-- The members an interface asks for, by name. -/
def collectInterfaceMembers (node : ModuleNode) (declaration : Declaration) : List Declaration :=
  (collectInterfaceMembersFrom nodes (classFuel nodes node) ([], ∅) (node, declaration)).2.values

/-- The member of a name and a kind that a class has, itself or from bases that are not
interfaces; and the classes visited. -/
def findApparentMemberFrom (kind : DeclarationKind) (memberName : String) :
    Nat → List ClassKey → ModuleNode × Declaration → Option Declaration × List ClassKey
  | 0, visited, _ => (none, visited)
  | fuel + 1, visited, (node, declaration) =>
    if classKey node declaration ∈ visited then (none, visited)
    else
      let visited := classKey node declaration :: visited
      let own := node.declarations.find? fun candidate =>
        isOwnedBy declaration.name candidate && candidate.name = memberName
          && candidate.kind = kind
      match own with
      | some member => (some member, visited)
      | none =>
        ((baseClasses nodes node declaration).filter fun (baseNode, baseDecl) =>
            !isInterfaceLikeDeclaration nodes baseNode baseDecl).foldl
          (fun (found, visited) base =>
            if found.isSome then (found, visited)
            else findApparentMemberFrom kind memberName fuel visited base)
          (none, visited)

def findApparentMemberDeclaration (kind : DeclarationKind) (node : ModuleNode)
    (declaration : Declaration) (memberName : String) : Option Declaration :=
  (findApparentMemberFrom nodes kind memberName (classFuel nodes node) [] (node, declaration)).1

def findApparentValueDeclaration : ModuleNode → Declaration → String → Option Declaration :=
  findApparentMemberDeclaration nodes .value

def findApparentCallableDeclaration : ModuleNode → Declaration → String → Option Declaration :=
  findApparentMemberDeclaration nodes .function

/-! ## The types of members -/

def declarationSignatureReturnSemanticType (declaration : Declaration) : Option SemanticType :=
  (declarationSemanticFacts declaration).callable.bind SemanticCallableDeclaration.returnType

def declarationSignatureReturnSemanticTypeWithSelf (declaration : Declaration)
    (ownerTypeName : String) : Option SemanticType :=
  (declarationSignatureReturnSemanticType declaration).map fun ty =>
    substituteSelfSemanticType ty ownerTypeName

def declarationSemanticSignatureParams (declaration : Declaration) :
    Option (List SemanticCallableParam) :=
  (declarationSemanticFacts declaration).callable.map SemanticCallableDeclaration.semanticParams

def declarationSignatureParamCount (declaration : Declaration) : Option Nat :=
  (declarationSemanticSignatureParams declaration).map List.length

def declarationValueAnnotationSemanticType (declaration : Declaration) : Option SemanticType :=
  (declarationSemanticFacts declaration).value.bind SemanticValueDeclaration.annotation

def declarationEffectiveValueSemanticType (declaration : Declaration) : Option SemanticType :=
  (declarationValueAnnotationSemanticType declaration).or
    (declaration.inferredValueType.map fun bound => lowerTypeExpr bound.expr)

end TypePython.Checking
