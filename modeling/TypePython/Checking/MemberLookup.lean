import TypePython.Lib.Searches
import TypePython.Checking.ClassGraph
import TypePython.Checking.GenericInference

/-!
# Searches of base classes

The lookups that go from a class to its bases, each with the classes it has visited. The lookups
of members carry the type of the owner with them and specialise it base by base; slicing the
arguments of a type pack can panic, which ends a lookup.
-/

namespace TypePython.Checking

open Std
open TypePython.Lib
open TypePython.Lib.Text
open TypePython.Syntax
open TypePython.Binding

def ClassRef.key (cls : ClassRef) : ClassKey := classKey cls.1 cls.2

/-! ## The types of owners -/

/-- `expanded_args[arg_index..pack_end]` with an end before its start. -/
inductive LookupPanic where
  | packSlice
deriving DecidableEq, Repr

/-- Bind type parameters from the front, `argIndex` arguments being taken. -/
def bindOwnerArgs (args : List SemanticType) :
    List GenericTypeParam → Nat → GenericSolution → Except LookupPanic GenericSolution
  | [], _, substitutions => .ok substitutions
  | typeParam :: rest, argIndex, substitutions =>
    match typeParam.kind with
    | .typeVar =>
      match args[argIndex]? with
      | none => .ok substitutions
      | some actual =>
        bindOwnerArgs args rest (argIndex + 1)
          { substitutions with types := substitutions.types.insert typeParam.name actual }
    | .typeVarTuple =>
      let trailing := (rest.filter fun candidate => candidate.kind ≠ .typeVarTuple).length
      let packEnd := args.length - trailing
      if packEnd < argIndex then .error .packSlice
      else
        bindOwnerArgs args rest packEnd
          { substitutions with
            typePacks := substitutions.typePacks.insert typeParam.name
              { types := (args.take packEnd).drop argIndex } }
    | .paramSpec => bindOwnerArgs args rest argIndex substitutions

/-- What the type parameters of a class stand for in the type of an owner. -/
def ownerGenericSubstitutions (ownerType : SemanticType) (classDeclaration : Declaration) :
    Except LookupPanic GenericSolution :=
  if classDeclaration.typeParams.isEmpty then .ok {}
  else
    match ownerType.genericParts with
    | none => .ok {}
    | some (head, args) =>
      if head ≠ classDeclaration.name then .ok {}
      else
        let typePackNames := (classDeclaration.typeParams.filter fun typeParam =>
          typeParam.kind = .typeVarTuple).map GenericTypeParam.name
        let expandedArgs :=
          expandInferredGenericArgs { genericNames := [], typePackNames } args
        bindOwnerArgs expandedArgs classDeclaration.typeParams 0 {}

/-- The class as the owner has it: under its own name, with the arguments of the owner. -/
def specializedClassType (ownerType : SemanticType) (classDecl : Declaration) : SemanticType :=
  match ownerType.stripAnnotated with
  | .generic _ args => .generic classDecl.name args
  | _ => .name classDecl.name

def specializedClassBaseType (classDecl : Declaration) (declaringType : SemanticType)
    (renderedBase : String) : Except LookupPanic SemanticType :=
  (ownerGenericSubstitutions declaringType classDecl).map fun substitutions =>
    substituteSemanticTypeParams substitutions (lowerTypeTextOrName renderedBase)

/-! ## Lookups of members -/

section

variable (nodes : List ModuleNode)

/-- A class with the type a lookup has come to it with. -/
structure OwnedClass where
  cls : ClassRef
  ownerType : SemanticType

namespace OwnedClass

variable (place : OwnedClass)

def key : ClassKey := place.cls.key

def declaringType : SemanticType := specializedClassType place.ownerType place.cls.2

/-- The members of the class with a name. -/
def ownMembers (memberName : String) : List Declaration :=
  place.cls.1.declarations.filter fun declaration =>
    isOwnedBy place.cls.2.name declaration && declaration.name = memberName

/-- A base of the class, with what it is given there. -/
def base (renderedBase : String) : Except LookupPanic (Option OwnedClass) :=
  (specializedClassBaseType place.cls.2 place.declaringType renderedBase).map fun baseType =>
    ((semanticNominalOwnerName baseType).bind (resolveDirectBase nodes place.cls.1)).map
      fun cls => { cls, ownerType := baseType }

/-- What a base adds to the list of a lookup. -/
def baseItem {R : Type} (renderedBase : String) : Option (Except LookupPanic R ⊕ OwnedClass) :=
  match place.base nodes renderedBase with
  | .error panicked => some (.inl (.error panicked))
  | .ok owned => owned.map .inr

/-- The bases of the class that resolve, in their order. -/
def bases {R : Type} : List (Except LookupPanic R ⊕ OwnedClass) :=
  place.cls.2.renderedClassBases.filterMap (place.baseItem nodes)

end OwnedClass

structure ResolvedMemberDeclaration where
  declaration : Declaration
  declaringNode : ModuleNode
  declaringClass : Declaration
  declaringType : SemanticType

/-- The member as a class that a lookup has come to declares it. -/
def OwnedClass.member (place : OwnedClass) (declaration : Declaration) :
    ResolvedMemberDeclaration where
  declaration := declaration
  declaringNode := place.cls.1
  declaringClass := place.cls.2
  declaringType := place.declaringType

/-- A lookup in the classes themselves, before their bases. -/
def ownedSearch {R : Type} (own : OwnedClass → Option R) :
    RememberingSearch OwnedClass ClassKey (Except LookupPanic R) Unit where
  key := OwnedClass.key
  atOnce := fun _ => none
  enter := fun place _ => ((own place).map Except.ok, ())
  next := fun place => place.bases nodes

def OwnedClass.resolvedMember (memberName : String) (predicate : Declaration → Bool)
    (place : OwnedClass) : Option ResolvedMemberDeclaration :=
  ((place.ownMembers memberName).find? predicate).map place.member

def findResolvedMemberDeclaration (memberName : String) (predicate : Declaration → Bool) :
    RememberingSearch OwnedClass ClassKey (Except LookupPanic ResolvedMemberDeclaration) Unit :=
  ownedSearch nodes (OwnedClass.resolvedMember memberName predicate)

/-- All the overloads of a method. -/
def OwnedClass.resolvedCallables (memberName : String) (place : OwnedClass) :
    Option (List ResolvedMemberDeclaration) :=
  match (place.ownMembers memberName).filter fun declaration =>
      declaration.kind = .function ∨ declaration.kind = .overload with
  | [] => none
  | declarations => some (declarations.map place.member)

/-- The first class that has any decides. -/
def findResolvedCallableDeclarations (memberName : String) :
    RememberingSearch OwnedClass ClassKey
      (Except LookupPanic (List ResolvedMemberDeclaration)) Unit :=
  ownedSearch nodes (OwnedClass.resolvedCallables memberName)

inductive WritableAttributeTarget where
  | value (member : ResolvedMemberDeclaration)
  | propertySetter (member : ResolvedMemberDeclaration)
  | readOnlyProperty
  | nonWritable

/-- What a class makes of an assignment to a member. -/
def OwnedClass.writableTarget (place : OwnedClass) (memberName : String) :
    Option WritableAttributeTarget :=
  let own := place.ownMembers memberName
  match own.find? fun declaration => declaration.kind = .value ∧ ¬ declaration.isClassVar with
  | some declaration => some (.value (place.member declaration))
  | none =>
    match own.find? fun declaration =>
        declaration.kind = .function ∧ declaration.methodKind = some .propertySetter with
    | some setter => some (.propertySetter (place.member setter))
    | none =>
      if own.any fun declaration =>
          declaration.kind = .function ∧ declaration.methodKind = some .property then
        some .readOnlyProperty
      else if own.isEmpty then none
      else some .nonWritable

def findOwnedWritableMemberTarget (memberName : String) :
    RememberingSearch OwnedClass ClassKey (Except LookupPanic WritableAttributeTarget) Unit :=
  ownedSearch nodes fun place => place.writableTarget memberName

/-! ## Lookups without types -/

/-- The bases of a class that resolve, without their arguments. -/
def basesOf {R : Type} (cls : ClassRef) : List (R ⊕ ClassRef) :=
  (baseClasses nodes cls.1 cls.2).map .inr

def isInterfaceLikeWithVisited : RememberingSearch ClassRef ClassKey Unit Unit where
  key := ClassRef.key
  atOnce := fun cls => if cls.2.classKind = some .interface then some () else none
  enter := fun _ _ => (none, ())
  next := basesOf nodes

def ownedBy (cls : ClassRef) : List Declaration :=
  cls.1.declarations.filter (isOwnedBy cls.2.name)

/-- The members of interfaces are gathered, and nothing is answered. -/
def collectInterfaceMembersWithVisited :
    RememberingSearch ClassRef ClassKey Empty (ExtTreeMap String Declaration) where
  key := ClassRef.key
  atOnce := fun _ => none
  enter := fun cls requirements =>
    (none, ((ownedBy cls).filter fun member =>
        member.kind = .value ∨ member.kind = .function).foldl
      (fun requirements member => requirements.insertIfNew member.name member) requirements)
  next := fun cls => ((baseClasses nodes cls.1 cls.2).filter fun base =>
    isInterfaceLikeDeclaration nodes base.1 base.2).map .inr

def findApparentMemberDeclarationWithVisited (memberName : String)
    (predicate : Declaration → Bool) :
    RememberingSearch ClassRef ClassKey Declaration Unit where
  key := ClassRef.key
  atOnce := fun _ => none
  enter := fun cls _ =>
    ((ownedBy cls).find? fun member => member.name = memberName && predicate member, ())
  next := fun cls => ((baseClasses nodes cls.1 cls.2).filter fun base =>
    ! isInterfaceLikeDeclaration nodes base.1 base.2).map .inr

/-- The sealed class a class is or derives from. -/
def resolveSealedRootWithVisited : RememberingSearch ClassRef ClassKey ClassRef Unit where
  key := ClassRef.key
  atOnce := fun _ => none
  enter := fun cls _ => (if cls.2.classKind = some .sealedClass then some cls else none, ())
  next := basesOf nodes

/-- Whether a class names another among its bases, or a base does. -/
def sealedDescendsFromWithVisited (rootName : String) :
    RememberingSearch ClassRef ClassKey Unit Unit where
  key := ClassRef.key
  atOnce := fun _ => none
  enter := fun _ _ => (none, ())
  next := fun cls => cls.2.renderedClassBases.filterMap fun base =>
    if base = rootName then some (.inl ())
    else (resolveDirectBase nodes cls.1 base).map .inr

/-- The name of a base without its arguments. -/
def baseHead (base : String) : String :=
  String.ofList (trim (base.toList.takeWhile (· ≠ '[')))

/-- Whether a base of a class, or of one of its bases, does not resolve. -/
def classSurfaceIsOpen : RememberingSearch ClassRef ClassKey Unit Unit where
  key := ClassRef.key
  atOnce := fun _ => none
  enter := fun _ _ => (none, ())
  next := fun cls => cls.2.renderedClassBases.filterMap fun base =>
    if baseHead base ∈ ["object", "Generic", "Protocol", "typing.Generic", "typing.Protocol"] then
      none
    else
      some (match resolveDirectBase nodes cls.1 (baseHead base) with
        | none => .inl ()
        | some baseClass => .inr baseClass)

/-! ## Members assigned in `__init__` -/

inductive FrozenFieldMutationKind where
  | assignment
  | augmentedAssignment
  | delete
deriving DecidableEq, Repr

structure FrozenFieldMutationSite where
  kind : FrozenFieldMutationKind
  fieldName : String
  target : DirectExprMetadata
  value : Option DirectExprMetadata
  ownerTypeName : Option String
  definitelyInitializesInstance : Bool
  line : Nat

/-- A class, and the line before which an assignment in it counts. -/
structure AssignedClass where
  cls : ClassRef
  beforeLine : Option Nat

def AssignedClass.initializes (place : AssignedClass) (memberName : String)
    (site : FrozenFieldMutationSite) : Bool :=
  site.kind = .assignment
    && site.definitelyInitializesInstance
    && site.fieldName = memberName
    && site.ownerTypeName = some place.cls.2.name
    && (match place.beforeLine with
        | none => true
        | some line => site.line < line)
    && site.target.valueName = some "self"

/-- In the bases every assignment counts. -/
def AssignedClass.bases {R : Type} (place : AssignedClass) : List (R ⊕ AssignedClass) :=
  (baseClasses nodes place.cls.1 place.cls.2).map fun cls => .inr { cls, beforeLine := none }

section

variable (loadFrozenFieldMutationSites : ModuleNode → List FrozenFieldMutationSite)

def hasOwnedInstanceAssignmentMember (memberName : String) :
    RememberingSearch AssignedClass ClassKey Unit Unit where
  key := fun place => place.cls.key
  atOnce := fun _ => none
  enter := fun place _ =>
    (if (loadFrozenFieldMutationSites place.cls.1).any (place.initializes memberName) then some ()
      else none, ())
  next := fun place => place.bases nodes

/-- The last assignment decides; when its value has no type, the bases of the class are not
asked any more. -/
def ownedInstanceAssignmentMemberSemanticType (memberName : String)
    (resolveValue : ClassRef → Nat → DirectExprMetadata → Option SemanticType) :
    RememberingSearch AssignedClass ClassKey SemanticType Unit where
  key := fun place => place.cls.key
  atOnce := fun _ => none
  enter := fun place _ =>
    (((loadFrozenFieldMutationSites place.cls.1).reverse.find?
        (place.initializes memberName)).bind fun site =>
      site.value.bind (resolveValue place.cls site.line), ())
  next := fun place =>
    if (loadFrozenFieldMutationSites place.cls.1).any (place.initializes memberName) then []
    else place.bases nodes

end

/-! ## Enumerations -/

def enumBaseNames : List String :=
  ["Enum", "IntEnum", "StrEnum", "Flag", "IntFlag",
    "enum.Enum", "enum.IntEnum", "enum.StrEnum", "enum.Flag", "enum.IntFlag"]

def flagEnumBaseNames : List String := ["Flag", "IntFlag", "enum.Flag", "enum.IntFlag"]

/-- A search for bases with certain names. It does not remember the classes it has come to. -/
def baseNameSearch (names : List String) : SearchSpace ClassRef Unit where
  look := fun _ => none
  next := fun cls => cls.2.renderedClassBases.filterMap fun base =>
    if base ∈ names then some (.inl ())
    else (resolveDirectBase nodes cls.1 base).map .inr

/-- `none` when the fuel is used up. -/
def isEnumLikeClass (fuel : Nat) (node : ModuleNode) (declaration : Declaration) : Option Bool :=
  ((baseNameSearch nodes enumBaseNames).run fuel (node, declaration)).map Option.isSome

def isFlagEnumLikeClass (fuel : Nat) (node : ModuleNode) (declaration : Declaration) :
    Option Bool :=
  ((baseNameSearch nodes flagEnumBaseNames).run fuel (node, declaration)).map Option.isSome

end

end TypePython.Checking
