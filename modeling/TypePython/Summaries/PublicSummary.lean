import Mathlib.Data.Prod.Lex
import Mathlib.Data.String.Basic
import TypePython.Checking.DeclarationSemantics
import TypePython.Effects.Export
import TypePython.Incremental.DependencyIndex

/-!
# Public summaries

What a module tells its importers (`semanticPublicSummary`): an export and a fact for every
top-level declaration, the roots of sealed hierarchies, a fingerprint of the shape of every
class, and the effect facts. The fingerprint of a class is a hash of a text; the text itself
stands for it here.
-/

namespace TypePython.Summaries

open Std
open TypePython.Lib
open TypePython.Lib.Text
open TypePython.Syntax
open TypePython.Binding
open TypePython.Checking
open TypePython.Effects
open TypePython.Incremental

/-! ## The summary -/

structure SummarySignatureParam where
  name : String
  annotationText : Option String
  annotationExpr : Option TypeExpr
  hasDefault : Bool
  positionalOnly : Bool
  keywordOnly : Bool
  variadic : Bool
  keywordVariadic : Bool

structure SummaryCallableSignature where
  params : List SummarySignatureParam
  returns : Option String
  returnsExpr : Option TypeExpr

structure SummaryTypeParam where
  kind : Option String
  name : String
  bound : Option String
  boundExpr : Option TypeExpr
  constraints : List String
  constraintExprs : List TypeExpr
  default : Option String
  defaultExpr : Option TypeExpr

inductive RuntimeTypingForm where
  | typeAliasType
  | nativeGenericClass
  | nativeGenericFunction
deriving DecidableEq, Repr

inductive RuntimeFeature where
  | typeStmt
  | inlineTypeParams
  | genericDefaults
deriving DecidableEq, Repr

structure RuntimeTypingSemantics where
  form : RuntimeTypingForm
  typeParamNames : List String
  annotationScopeOwner : Option String
  lazyAliasValue : Bool
  localTypeParamsHiddenFromGlobals : Bool
  requiredFeatures : List RuntimeFeature
deriving DecidableEq, Repr

structure SummaryExport where
  name : String
  kind : String
  typeRepr : String
  typeExpr : Option TypeExpr
  declarationSignature : Option SummaryCallableSignature
  exportedType : Option String
  exportedTypeExpr : Option TypeExpr
  typeParams : List SummaryTypeParam
  runtimeSemantics : Option RuntimeTypingSemantics
  requiredRuntimeFeatures : List String
  isPublic : Bool

structure SummaryDeclarationFact where
  name : String
  kind : String
  signature : Option SummaryCallableSignature
  typeExpr : Option String
  typeExprStructured : Option TypeExpr
  importTarget : Option String
  importTargetStructured : Option SummaryImportTarget
  bases : List String

structure SealedRootSummary where
  root : String
  members : List String
deriving DecidableEq, Repr

structure ModuleSolverFacts where
  declarationFacts : List SummaryDeclarationFact
  shapeFingerprints : ExtTreeMap String String
  effectSummaries : List SummaryEffectFact

/-- The summary of a module: its imports, as the dependency index reads them, and what it
exports. -/
structure SemanticPublicSummary extends PublicSummary where
  isPackageEntry : Bool
  exports : List SummaryExport
  sealedRoots : List SealedRootSummary
  solverFacts : ModuleSolverFacts

/-! ## What is read off the source -/

structure TypedDictExtraItemsMetadata where
  annotationText : String
  annotationExpr : Option TypeExpr

def TypedDictExtraItemsMetadata.renderedAnnotation (metadata : TypedDictExtraItemsMetadata) :
    String :=
  (metadata.annotationExpr.map TypeExpr.render).getD metadata.annotationText

structure TypedDictClassMetadata where
  total : Option Bool
  closed : Option Bool
  extraItems : Option TypedDictExtraItemsMetadata

/-- What a summary uses of the checker context. -/
structure SummaryContext extends EffectContext where
  loadTypedDictClassMetadata : ModuleNode → String → Option TypedDictClassMetadata

/-! ## Kinds, signatures and type parameters -/

def summaryKindString : DeclarationKind → String
  | .typeAlias => "typealias"
  | .classDecl => "class"
  | .function => "function"
  | .overload => "overload"
  | .value => "value"
  | .importDecl => "import"

def summaryCallableSignatureFromBound (signature : BoundCallableSignature) :
    SummaryCallableSignature where
  params := signature.params.map fun param =>
    { name := param.name
      annotationText := param.renderedAnnotation
      annotationExpr := param.annotationExpr
      hasDefault := param.hasDefault
      positionalOnly := param.positionalOnly
      keywordOnly := param.keywordOnly
      variadic := param.variadic
      keywordVariadic := param.keywordVariadic }
  returns := signature.returns.map BoundTypeExpr.render
  returnsExpr := signature.returns.map BoundTypeExpr.expr

def summaryCallableSignatureFromSemantics (callable : SemanticCallableDeclaration) :
    SummaryCallableSignature where
  params := callable.semanticParams.map fun param =>
    { name := param.name
      annotationText := param.renderedAnnotationText
      annotationExpr := param.annotation.map semanticTypeToTypeExpr
      hasDefault := param.hasDefault
      positionalOnly := param.positionalOnly
      keywordOnly := param.keywordOnly
      variadic := param.variadic
      keywordVariadic := param.keywordVariadic }
  returns := callable.renderedReturnAnnotationText
  returnsExpr := callable.returnType.map semanticTypeToTypeExpr

/-- The signature of a declaration, as both its export and its fact hold it. -/
def summaryDeclarationSignature (declaration : Declaration) : Option SummaryCallableSignature :=
  ((declarationSemanticFacts declaration).callable.map summaryCallableSignatureFromSemantics).or
    (declaration.callableSignature.map summaryCallableSignatureFromBound)

def summarySignatureParamTypeExpr (param : SummarySignatureParam) : TypeExpr :=
  (param.annotationExpr.or (param.annotationText.bind TypeExpr.parse)).getD (.name "dynamic")

def summaryCallableTypeExpr (signature : SummaryCallableSignature) : TypeExpr :=
  .callable (.paramList (signature.params.map summarySignatureParamTypeExpr))
    ((signature.returnsExpr.or (signature.returns.bind TypeExpr.parse)).getD (.name "dynamic"))

def genericTypeParamKindString : GenericTypeParamKind → String
  | .typeVar => "typevar"
  | .paramSpec => "paramspec"
  | .typeVarTuple => "typevartuple"

def summaryTypeParam (typeParam : GenericTypeParam) : SummaryTypeParam where
  kind := some (genericTypeParamKindString typeParam.kind)
  name := typeParam.name
  bound := typeParam.boundExpr.map BoundTypeExpr.render
  boundExpr := typeParam.boundExpr.map BoundTypeExpr.expr
  constraints := typeParam.constraintExprs.map BoundTypeExpr.render
  constraintExprs := typeParam.constraintExprs.map BoundTypeExpr.expr
  default := typeParam.defaultExpr.map BoundTypeExpr.render
  defaultExpr := typeParam.defaultExpr.map BoundTypeExpr.expr

/-! ## Exports -/

def declarationExportedTypeExpr (declaration : Declaration) : Option TypeExpr :=
  let semantics := declarationSemanticFacts declaration
  match declaration.kind with
  | .value =>
    (((semantics.value.bind fun value => value.annotation.map semanticTypeToTypeExpr).or
      (declaration.inferredValueType.map BoundTypeExpr.expr)).or
        (declaration.valueAnnotation.map BoundTypeExpr.expr))
  | .typeAlias =>
    (semantics.typeAlias.map fun typeAlias => semanticTypeToTypeExpr typeAlias.body).or
      (declaration.typeAliasValue.map BoundTypeExpr.expr)
  | .function | .overload =>
    (semantics.callable.bind fun callable => callable.returnType.map semanticTypeToTypeExpr).or
      (declaration.callableSignature.bind fun signature =>
        signature.returns.map BoundTypeExpr.expr)
  | .classDecl | .importDecl => none

def summaryExportTypeExpr (declaration : Declaration) : Option TypeExpr :=
  match declaration.kind with
  | .function | .overload => (summaryDeclarationSignature declaration).map summaryCallableTypeExpr
  | .value | .typeAlias => declarationExportedTypeExpr declaration
  | .classDecl | .importDecl => none

/-- The exported type of a declaration that has no type expression: the name of a class, the
target of an import. Nothing is left of the other kinds then. -/
def semanticExportedType (declaration : Declaration) : Option String :=
  match declaration.kind with
  | .classDecl => some declaration.name
  | .importDecl => declaration.importTarget.map BoundImportTarget.rawTarget
  | .function | .overload | .value | .typeAlias => none

def hasDefaultTypeParam (declaration : Declaration) : Bool :=
  declaration.typeParams.any fun typeParam => typeParam.defaultExpr.isSome

def runtimeSemanticFeatures (declaration : Declaration) (isAlias : Bool) : List RuntimeFeature :=
  (if isAlias then [.typeStmt] else [])
    ++ (if declaration.typeParams.isEmpty then [] else [.inlineTypeParams])
    ++ (if hasDefaultTypeParam declaration then [.genericDefaults] else [])

def summaryRuntimeSemantics (moduleKind : SourceKind) (declaration : Declaration) :
    Option RuntimeTypingSemantics :=
  let semanticsOf (form : RuntimeTypingForm) (isAlias : Bool) : RuntimeTypingSemantics :=
    { form
      typeParamNames := declaration.typeParams.map GenericTypeParam.name
      annotationScopeOwner := some declaration.name
      lazyAliasValue := isAlias
      localTypeParamsHiddenFromGlobals := true
      requiredFeatures := runtimeSemanticFeatures declaration isAlias }
  if moduleKind ≠ .python then none
  else
    match declaration.kind with
    | .typeAlias => some (semanticsOf .typeAliasType true)
    | .classDecl =>
      if declaration.typeParams.isEmpty then none
      else some (semanticsOf .nativeGenericClass false)
    | .function | .overload =>
      if declaration.typeParams.isEmpty then none
      else some (semanticsOf .nativeGenericFunction false)
    | .value | .importDecl => none

/-- The runtime features the text of a type needs. -/
def runtimeFeaturesFromTypeText (text : String) : List String :=
  (if occursIn "TypeIs[".toList text.toList then ["typing_type_is"] else [])
    ++ (if occursIn "ReadOnly[".toList text.toList then ["typing_readonly"] else [])
    ++ (if text = "NoDefault" || occursIn "NoDefault[".toList text.toList then
          ["typing_no_default"]
        else [])

def requiredRuntimeFeaturesForExport (declaration : Declaration)
    (signature : Option SummaryCallableSignature) (exportedType : Option String) : List String :=
  let ofTypeParams :=
    if declaration.typeParams.isEmpty then []
    else
      ["inline_type_params"]
        ++ (if hasDefaultTypeParam declaration then ["generic_defaults"] else [])
        ++ (if declaration.kind = .typeAlias then ["type_stmt"] else [])
  let texts := exportedType.toList
    ++ (signature.elim [] fun signature =>
      signature.returns.toList ++ signature.params.filterMap SummarySignatureParam.annotationText)
  (ExtTreeSet.ofList (ofTypeParams ++ texts.flatMap runtimeFeaturesFromTypeText)).toList

def semanticSummaryExport (moduleKind : SourceKind) (declaration : Declaration) :
    SummaryExport :=
  let declarationSignature := summaryDeclarationSignature declaration
  let typeExpr := summaryExportTypeExpr declaration
  let exportedType := (typeExpr.map TypeExpr.render).or (semanticExportedType declaration)
  { name := declaration.name
    kind := summaryKindString declaration.kind
    typeRepr := exportedType.getD declaration.name
    typeExpr
    declarationSignature
    exportedType
    exportedTypeExpr := declarationExportedTypeExpr declaration
    typeParams := declaration.typeParams.map summaryTypeParam
    runtimeSemantics := summaryRuntimeSemantics moduleKind declaration
    requiredRuntimeFeatures :=
      requiredRuntimeFeaturesForExport declaration declarationSignature exportedType
    isPublic := !("_".toList.isPrefixOf declaration.name.toList) }

/-! ## Facts -/

def declarationFactTypeExpr (declaration : Declaration) : Option TypeExpr :=
  let semantics := declarationSemanticFacts declaration
  (((semantics.typeAlias.map fun typeAlias => semanticTypeToTypeExpr typeAlias.body).or
    (semantics.value.bind fun value => value.annotation.map semanticTypeToTypeExpr)).or
      (declaration.typeAliasValue.map BoundTypeExpr.expr)).or
        (declaration.valueAnnotation.map BoundTypeExpr.expr)

def semanticDeclarationFact (declaration : Declaration) : SummaryDeclarationFact :=
  let semantics := declarationSemanticFacts declaration
  let typeExprStructured := declarationFactTypeExpr declaration
  let importTarget := semantics.importTarget.or declaration.importTarget
  { name := declaration.name
    kind := summaryKindString declaration.kind
    signature := summaryDeclarationSignature declaration
    typeExpr :=
      (((typeExprStructured.map TypeExpr.render).or
        (semantics.typeAlias.map SemanticTypeAliasDeclaration.bodyText)).or
          (semantics.value.bind SemanticValueDeclaration.annotationText)).or
            declaration.inferredValueTypeSemanticText
    typeExprStructured
    importTarget := importTarget.map BoundImportTarget.rawTarget
    importTargetStructured := importTarget.map summaryImportTarget
    bases := declaration.renderedClassBases }

/-! ## Shapes of classes -/

def optionBoolDebug : Option Bool → String
  | none => "None"
  | some true => "Some(true)"
  | some false => "Some(false)"

def classKindDebug : Option DeclarationOwnerKind → String
  | none => "None"
  | some .classDecl => "Some(Class)"
  | some .interface => "Some(Interface)"
  | some .dataClass => "Some(DataClass)"
  | some .sealedClass => "Some(SealedClass)"

def genericTypeParamKindDebug : GenericTypeParamKind → String
  | .typeVar => "TypeVar"
  | .paramSpec => "ParamSpec"
  | .typeVarTuple => "TypeVarTuple"

def typedDictMetadataText : Option TypedDictClassMetadata → String
  | none => "typed_dict_metadata=<none>"
  | some metadata =>
    "total=" ++ optionBoolDebug metadata.total ++ ";closed=" ++ optionBoolDebug metadata.closed
      ++ ";extra_items="
      ++ (metadata.extraItems.map TypedDictExtraItemsMetadata.renderedAnnotation).getD "<none>"

def semanticShapeClassFact (declaration : Declaration)
    (typedDictMetadata : Option TypedDictClassMetadata) : String :=
  "class:" ++ declaration.name ++ ":kind=" ++ classKindDebug declaration.classKind
    ++ ":bases=" ++ join "," (sortBy id declaration.renderedClassBases)
    ++ ":type_params=" ++ join "," (declaration.typeParams.map fun param =>
        param.name ++ ":" ++ genericTypeParamKindDebug param.kind)
    ++ ":final_decorator=" ++ (if declaration.isFinalDecorator then "true" else "false")
    ++ ":" ++ typedDictMetadataText typedDictMetadata

def semanticShapeMemberTypeRepr (declaration : Declaration) : String :=
  ((declaration.valueAnnotation.map BoundTypeExpr.render).or
    declaration.inferredValueTypeSemanticText).getD ""

/-- The members of a class. -/
def membersOf (node : ModuleNode) (className : String) : List Declaration :=
  node.declarations.filter fun member =>
    (member.owner.map DeclarationOwner.name) = some className

def semanticShapeMemberFact (member : Declaration) : String :=
  member.name ++ ":" ++ summaryKindString member.kind ++ ":" ++ semanticShapeMemberTypeRepr member

/-- The text that is hashed for a class. -/
def semanticShapeText (context : SummaryContext) (node : ModuleNode) (declaration : Declaration) :
    String :=
  let facts := semanticShapeClassFact declaration
      (context.loadTypedDictClassMetadata node declaration.name)
    :: (membersOf node declaration.name).map semanticShapeMemberFact
  declaration.name ++ "|" ++ join "|" (sortBy id facts)

def typedDictBases : List String :=
  ["TypedDict", "typing.TypedDict", "typing_extensions.TypedDict"]

/-- A class has a shape if it is a typed dictionary or has members. -/
def hasShape (node : ModuleNode) (declaration : Declaration) : Bool :=
  declaration.renderedClassBases.any (· ∈ typedDictBases)
    || !(membersOf node declaration.name).isEmpty

def topLevelDeclarations (node : ModuleNode) : List Declaration :=
  node.declarations.filter (·.owner.isNone)

def semanticShapeFingerprints (context : SummaryContext) (node : ModuleNode) :
    ExtTreeMap String String :=
  (((topLevelDeclarations node).filter (·.kind = .classDecl)).filter (hasShape node)).foldl
    (fun fingerprints declaration =>
      fingerprints.insert declaration.name (semanticShapeText context node declaration)) ∅

/-! ## The module -/

def isPackageEntryPath (path : String) : Bool :=
  lastSegment '/' path ∈ ["__init__.py", "__init__.tpy"]

/-- A sealed class and the classes of the module derived from it. -/
def sealedRootSummary (node : ModuleNode) (declaration : Declaration) : SealedRootSummary where
  root := declaration.name
  members := sortBy id (((topLevelDeclarations node).filter fun candidate =>
    candidate.name ≠ declaration.name && candidate.hasClassBase declaration.name).map
      Declaration.name)

def semanticPublicSummary (context : SummaryContext) (node : ModuleNode) :
    SemanticPublicSummary where
  toPublicSummary := publicSummary node
  isPackageEntry := isPackageEntryPath node.modulePath
  exports := sortBy SummaryExport.name
    ((topLevelDeclarations node).map (semanticSummaryExport node.moduleKind))
  sealedRoots := sortBy SealedRootSummary.root
    (((topLevelDeclarations node).filter (·.classKind = some .sealedClass)).map
      (sealedRootSummary node))
  solverFacts :=
    { declarationFacts := sortBy (fun fact : SummaryDeclarationFact => toLex (fact.name, fact.kind))
        ((topLevelDeclarations node).map semanticDeclarationFact)
      shapeFingerprints := semanticShapeFingerprints context node
      effectSummaries := collectEffectSummaryFacts context.toEffectContext node }

end TypePython.Summaries
