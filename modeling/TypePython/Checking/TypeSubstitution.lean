import TypePython.Checking.DeclarationSemantics
import TypePython.Checking.GenericSolver

/-!
# Substitution in types

What replaces the type parameters of an alias, the `Self` of a method and the names imported
from `typing`.
-/

namespace TypePython.Checking

open Std
open TypePython.Lib.Text
open TypePython.Syntax
open TypePython.Binding

/-! ## Type parameters -/

/-- The annotation a parameter list contributes for a parameter. -/
def paramAnnotationSemanticType (param : DirectFunctionParamSite) : SemanticType :=
  (param.annotation.map fun text =>
    lowerParamAnnotationText text param.variadic param.keywordVariadic).getD (.name "dynamic")

def ParamListBinding.semanticTypes (binding : ParamListBinding) : List SemanticType :=
  binding.params.map paramAnnotationSemanticType

def paramListBindingSemanticGenericArg (binding : ParamListBinding) : SemanticType :=
  .name (renderSemanticCallableParams (.paramList binding.semanticTypes))

/-- The binding a name has as a parameter list. -/
def GenericSolution.paramListOf (substitutions : GenericSolution) :
    SemanticType → Option ParamListBinding
  | .name name => substitutions.paramLists[String.ofList (trim name.toList)]?
  | _ => none

/-- The binding a name has as a type pack. -/
def GenericSolution.typePackOf (substitutions : GenericSolution) :
    SemanticType → Option TypePackBinding
  | .name name => substitutions.typePacks[String.ofList (trim name.toList)]?
  | _ => none

def TypePackBinding.expanded (binding : TypePackBinding) : List SemanticType :=
  binding.types
    ++ match binding.variadicTail with
       | some variadicTail => [variadicTail, .name "..."]
       | none => []

/-- The arguments that stand for an unpacked one: those of a type pack, or of a fixed tuple. -/
def unpackedSemanticArgs (substitutions : GenericSolution) (arg : SemanticType) :
    Option (List SemanticType) := do
  let inner ← arg.unpackedInner
  ((substitutions.typePackOf inner).map TypePackBinding.expanded).or
    (unpackedFixedTupleSemanticElements inner)

mutual

def substituteSemanticTypeParams (substitutions : GenericSolution) : SemanticType → SemanticType
  | .name name => substitutions.types[name]?.getD (.name name)
  | .generic head args => .generic head (expandSubstitutedSemanticGenericArgs substitutions args)
  | .callable params returnType =>
    .callable (substituteSemanticCallableParamExpr substitutions params)
      (substituteSemanticTypeParams substitutions returnType)
  | .union branches => joinSemanticTypeCandidates (substituteAll substitutions branches)
  | .annotated value metadata => .annotated (substituteSemanticTypeParams substitutions value) metadata
  | .unpack inner => .unpack (substituteSemanticTypeParams substitutions inner)

def substituteSemanticCallableParamExpr (substitutions : GenericSolution) :
    SemanticCallableParams → SemanticCallableParams
  | .ellipsis => .ellipsis
  | .paramList types => .paramList (expandSubstitutedSemanticGenericArgs substitutions types)
  | .concatenate types =>
    match types.getLast?.bind substitutions.paramListOf with
    | some binding =>
      .paramList ((substituteAll substitutions types).dropLast ++ binding.semanticTypes)
    | none => .concatenate (substituteAll substitutions types)
  | .single expr =>
    match substitutions.paramListOf expr with
    | some binding => .paramList binding.semanticTypes
    | none => .single (substituteSemanticTypeParams substitutions expr)

def expandSubstitutedSemanticGenericArgs (substitutions : GenericSolution) :
    List SemanticType → List SemanticType
  | [] => []
  | arg :: rest =>
    (match substitutions.paramListOf arg, unpackedSemanticArgs substitutions arg with
      | some binding, _ => [paramListBindingSemanticGenericArg binding]
      | none, some args => args
      | none, none => [substituteSemanticTypeParams substitutions arg])
      ++ expandSubstitutedSemanticGenericArgs substitutions rest

def substituteAll (substitutions : GenericSolution) : List SemanticType → List SemanticType
  | [] => []
  | ty :: rest => substituteSemanticTypeParams substitutions ty :: substituteAll substitutions rest

end

/-! ## The parameters of an alias -/

/-- The argument of a parameter, else its default. -/
def argumentOrDefault (typeParam : GenericTypeParam) (argument : Option SemanticType) :
    Option SemanticType :=
  argument.or (typeParam.defaultExpr.map fun default => lowerTypeTextOrName default.render)

/-- Bind parameters to arguments from the front; what is left of the arguments stays. -/
def bindLeading : List GenericTypeParam → List SemanticType →
    Option (List (String × SemanticType) × List SemanticType)
  | [], args => some ([], args)
  | typeParam :: rest, args => do
    let argument ← argumentOrDefault typeParam args.head?
    let (bound, left) ← bindLeading rest args.tail
    return ((typeParam.name, argument) :: bound, left)

def insertTypes (types : ExtTreeMap String SemanticType) (bound : List (String × SemanticType)) :
    ExtTreeMap String SemanticType :=
  bound.foldl (fun types (name, argument) => types.insert name argument) types

/-- What the arguments of an alias are bound to. A type pack takes the arguments that its
neighbours on both sides leave; the parameters after it are bound from the back. -/
def aliasTypeParamSubstitutionsSemantic (aliasDecl : Declaration) (args : List SemanticType) :
    Option GenericSolution :=
  let isPack (typeParam : GenericTypeParam) : Bool := typeParam.kind = .typeVarTuple
  if (aliasDecl.typeParams.filter isPack).length > 1 then none
  else
    match aliasDecl.typeParams.span fun typeParam => !isPack typeParam with
    | (leading, typePack :: trailing) => do
      let (boundLeading, args) ← bindLeading leading args
      let (boundTrailing, args) ← bindLeading trailing.reverse args.reverse
      return {
        types := insertTypes (insertTypes ∅ boundLeading) boundTrailing.reverse
        typePacks := (∅ : ExtTreeMap String TypePackBinding).insert typePack.name
          { types := args.reverse } }
    | (typeParams, []) => do
      if args.length > typeParams.length then none
      else
        let (bound, _) ← bindLeading typeParams args
        return { types := insertTypes ∅ bound }

/-! ## `Self` -/

mutual

def substituteSelfSemanticTypeWithType (selfType : SemanticType) : SemanticType → SemanticType
  | .name name => if name = "Self" then selfType else .name name
  | .generic head args => .generic head (substituteSelfAll selfType args)
  | .callable params returnType =>
    .callable (substituteSelfSemanticCallableParamsWithType selfType params)
      (substituteSelfSemanticTypeWithType selfType returnType)
  | .union branches => .union (substituteSelfAll selfType branches)
  | .annotated value metadata =>
    .annotated (substituteSelfSemanticTypeWithType selfType value) metadata
  | .unpack inner => .unpack (substituteSelfSemanticTypeWithType selfType inner)

def substituteSelfSemanticCallableParamsWithType (selfType : SemanticType) :
    SemanticCallableParams → SemanticCallableParams
  | .ellipsis => .ellipsis
  | .paramList types => .paramList (substituteSelfAll selfType types)
  | .concatenate types => .concatenate (substituteSelfAll selfType types)
  | .single expr => .single (substituteSelfSemanticTypeWithType selfType expr)

def substituteSelfAll (selfType : SemanticType) : List SemanticType → List SemanticType
  | [] => []
  | ty :: rest =>
    substituteSelfSemanticTypeWithType selfType ty :: substituteSelfAll selfType rest

end

def substituteSelfSemanticType (ty : SemanticType) (ownerTypeName : String) : SemanticType :=
  substituteSelfSemanticTypeWithType (lowerTypeTextOrName ownerTypeName) ty

/-! ## Names from `typing` -/

mutual

def rewriteImportedTypingSemanticType (node : ModuleNode) : SemanticType → SemanticType
  | .name name => .name (rewriteImportedTypingToken node name)
  | .generic head args => .generic (rewriteImportedTypingToken node head) (rewriteAll node args)
  | .callable params returnType =>
    .callable (rewriteImportedTypingSemanticCallableParams node params)
      (rewriteImportedTypingSemanticType node returnType)
  | .union branches => .union (rewriteAll node branches)
  | .annotated value metadata => .annotated (rewriteImportedTypingSemanticType node value) metadata
  | .unpack inner => .unpack (rewriteImportedTypingSemanticType node inner)

def rewriteImportedTypingSemanticCallableParams (node : ModuleNode) :
    SemanticCallableParams → SemanticCallableParams
  | .ellipsis => .ellipsis
  | .paramList types => .paramList (rewriteAll node types)
  | .concatenate types => .concatenate (rewriteAll node types)
  | .single expr => .single (rewriteImportedTypingSemanticType node expr)

def rewriteAll (node : ModuleNode) : List SemanticType → List SemanticType
  | [] => []
  | ty :: rest => rewriteImportedTypingSemanticType node ty :: rewriteAll node rest

end

end TypePython.Checking
