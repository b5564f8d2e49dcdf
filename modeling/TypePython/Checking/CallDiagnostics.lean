import TypePython.Checking.CallApplicability

/-!
# Diagnostics of a call

What is reported about a call of a function whose parameters are known as they are written: about
the number of its arguments, about its keywords, and about the types of its arguments. Each is a
pass of its own over the parameters. What is found out about the values of the call is a
parameter, and so is the relation between types.
-/

namespace TypePython.Checking

open TypePython.Lib.Text
open TypePython.Syntax
open TypePython.Binding

/-! ## Diagnostics -/

/-- Where an argument of a type that is not assignable is passed. -/
inductive ArgumentPlace where
  | parameter
  | variadic
  | starred
  | keyword (keyword : String)
  | unpackedKeyword (keyword : String)
  | extraKeyword (keyword : String)
  | key (key : String)
  | extraKey (key : String)
  | additionalKeys
  | mapping
deriving DecidableEq

inductive CallDiagnostic where
  | tooManyPositional (expected received : Nat)
  | missingArguments (names : List String)
  | positionalOnlyKeyword (keyword : String)
  | unknownUnpackedKeyword (keyword : String)
  | unknownKeyword (keyword : String)
  | boundTwice (keyword : String)
  | duplicateKey (key : String)
  | positionalOnlyKey (key : String)
  | optionalKey (key : String)
  | unknownKey (key : String)
  | openTypedDict
  | additionalKeys
  | mappingWithoutKwargs (valueType : SemanticType)
  | ofArgument
  | typeMismatch (place : ArgumentPlace) (argType paramType : SemanticType)
deriving DecidableEq

/-! ## The signature -/

section Signature

variable (signature : List DirectFunctionParamSite)

def positionalSites : List DirectFunctionParamSite :=
  signature.filter fun param => !param.keywordOnly && !param.variadic && !param.keywordVariadic

def positionalSiteNames : List String :=
  (positionalSites signature).map DirectFunctionParamSite.name

def expectedPositionalArgTypes (argCount : Nat) : List (Option String) :=
  (List.range argCount).map fun index =>
    ((positionalSites signature)[index]?.bind DirectFunctionParamSite.renderedAnnotation).or
      ((signature.find? DirectFunctionParamSite.variadic).bind
        DirectFunctionParamSite.renderedAnnotation)

def expectedKeywordArgTypes (keywordNames : List String) : List (Option String) :=
  keywordNames.map fun keyword =>
    ((signature.find? fun param => param.name = keyword && !param.positionalOnly).bind
      DirectFunctionParamSite.renderedAnnotation).or
      ((signature.find? DirectFunctionParamSite.keywordVariadic).bind
        DirectFunctionParamSite.renderedAnnotation)

/-- The annotation of `**kwargs`. -/
def keywordVariadicAnnotation : Option String :=
  ((signature.find? DirectFunctionParamSite.keywordVariadic).bind
    DirectFunctionParamSite.renderedAnnotation).map normalizeTypeText

def isUnpackText (text : String) : Bool := (stripPrefix "Unpack[".toList text.toList).isSome

variable (knownTypedDictShape : String → Option TypedDictShape)

/-- The typed dictionary that `**kwargs` unpacks. -/
def unpackTypedDictShape : Option TypedDictShape := do
  let text ← keywordVariadicAnnotation signature
  let opened ← stripPrefix "Unpack[".toList text.toList
  let inner ← stripSuffix [']'] opened
  knownTypedDictShape (String.ofList inner)

def acceptsExtraKeywordSites : Bool :=
  signature.any DirectFunctionParamSite.keywordVariadic
    || (( keywordVariadicAnnotation signature).map fun text => !isUnpackText text).getD false
    || ((unpackTypedDictShape signature knownTypedDictShape).map fun shape =>
      shape.extraItems.isSome).getD false

end Signature

/-! ## The types of arguments -/

/-- What the diagnostics find out about the values of a call in their own way: the type of a value
against the text of an annotation, and the type of a name. -/
structure ReportedTypes (Arg : Type) where
  contextual : Arg → Option String → Option ContextualArgType
  nameReference : Arg → Option SemanticType
  knownTypedDictShape : String → Option TypedDictShape

section Resolution

variable {Arg : Type} (types : ArgumentTypes Arg) (reported : ReportedTypes Arg)

def resolvedCallArgSemanticType (value : Arg) (expected : Option String) : SemanticType :=
  (((reported.contextual value expected).map ContextualArgType.actualType).or
    (types.direct value)).getD
      (lowerTypeTextOrName ((types.renderedValueType value).getD ""))

def resolveDirectCallArgumentSemanticType (value : Arg) (expected : Option String) :
    SemanticType :=
  ((((reported.contextual value expected).map ContextualArgType.actualType).or
    (reported.nameReference value)).or (types.direct value)).getD
      (lowerTypeTextOrName ((types.renderedValueType value).getD ""))

/-- The types of values whose expected types are listed. -/
def resolvedWith (resolve : Arg → Option String → SemanticType) (values : List Arg)
    (expectedTypes : List (Option String)) : List SemanticType :=
  values.mapIdx fun index value => resolve value expectedTypes[index]?.join

/-- The types of the plain arguments, as many as there are, and of the elements of starred
tuples; what is not known has an empty name. -/
def expandedPositionalArgTypes (resolve : Arg → Option String → SemanticType)
    (call : CallArguments Arg) (signature : List DirectFunctionParamSite) : List SemanticType :=
  let plain := resolvedWith resolve call.argValues
    (expectedPositionalArgTypes signature call.argCount)
  plain ++ List.replicate (call.argCount - plain.length) (.name "") ++
    (starredPositional types call).flatMap fun
      | .fixed types => types.map fun ty => ty.getD (.name "")
      | .variadic _ => []

/-- The diagnostics that the values have of their own. -/
def argumentDiagnostics (values : List Arg) (expectedTypes : List (Option String)) :
    List CallDiagnostic :=
  (values.mapIdx fun index value => reported.contextual value expectedTypes[index]?.join).flatMap
    fun result =>
      if (result.map ContextualArgType.hasDiagnostics).getD false then [.ofArgument] else []

end Resolution

/-! ## Arity -/

section Arity

variable {Arg : Type} (types : ArgumentTypes Arg) (reported : ReportedTypes Arg)
  (call : CallArguments Arg) (signature : List DirectFunctionParamSite)

/-- A parameter at an index for which the call has no argument. -/
def siteIsMissing (keywordNames : List String) (expansions : List KeywordExpansion)
    (positionalCount : Nat) (index : Nat) (param : DirectFunctionParamSite) : Bool :=
  if param.hasDefault then false
  else if param.keywordOnly then
    !keywordNames.contains param.name && !expansionProvides expansions param.name
  else if param.variadic || param.keywordVariadic then false
  else
    decide (positionalCount ≤ index) && !keywordNames.contains param.name
      && !expansionProvides expansions param.name

/-- How many positional arguments the call has, with the elements of starred tuples. -/
def reportedPositionalCount : Nat :=
  (expandedPositionalArgTypes types (resolvedCallArgSemanticType types reported) call
    signature).length

def missingSites : List String :=
  let count := reportedPositionalCount types reported call signature
  let missing := signature.zipIdx.filterMap fun (param, index) =>
    if siteIsMissing call.keywordNames (keywordExpansions types call) count index param then
      some param.name
    else none
  let unpacked :=
    match unpackTypedDictShape signature reported.knownTypedDictShape with
    | none => []
    | some shape => shape.fields.filterMap fun (key, field) =>
      if field.required && !call.keywordNames.contains key then some key else none
  missing ++ unpacked

/-- A call through a dotted name with a starred argument of unknown length is not reported. -/
def directSourceFunctionArityDiagnostic (callee : String) : Option CallDiagnostic :=
  let count := reportedPositionalCount types reported call signature
  let starred := variadicStarredTypes types call
  if !signature.any DirectFunctionParamSite.variadic
      && (decide ((positionalSites signature).length < count) || !starred.isEmpty) then
    if !starred.isEmpty && callee.toList.contains '.' then none
    else some (.tooManyPositional (positionalSites signature).length count)
  else
    let missing := missingSites types reported call signature
    if missing.isEmpty then none else some (.missingArguments missing)

/-! ## Keywords -/

def keywordDiagnostic (keyword : String) : Option CallDiagnostic :=
  let unknown : Option CallDiagnostic :=
    if !acceptsExtraKeywordSites signature reported.knownTypedDictShape
        && !((signature.filter fun param => !param.keywordVariadic).map
          DirectFunctionParamSite.name).contains keyword then some (.unknownKeyword keyword)
    else none
  match signature.find? fun param => param.name = keyword with
  | some param => if param.positionalOnly then some (.positionalOnlyKeyword keyword) else none
  | none =>
    match unpackTypedDictShape signature reported.knownTypedDictShape with
    | some shape =>
      if (shape.field keyword).isSome then none
      else if shape.extraItems.isNone then some (.unknownUnpackedKeyword keyword)
      else unknown
    | none => unknown

def boundTwiceDiagnostic (count : Nat) (keyword : String) : Option CallDiagnostic :=
  if ((positionalSiteNames signature).take count).contains keyword then some (.boundTwice keyword)
  else none

def fieldDiagnostic (count : Nat) (field : String × TypedDictFieldShape) : Option CallDiagnostic :=
  if call.keywordNames.contains field.1
      || ((positionalSiteNames signature).take count).contains field.1 then
    some (.duplicateKey field.1)
  else
    match signature.find? fun param => param.name = field.1 with
    | some param =>
      if param.positionalOnly then some (.positionalOnlyKey field.1)
      else if !field.2.required && !param.hasDefault then some (.optionalKey field.1)
      else none
    | none =>
      if !acceptsExtraKeywordSites signature reported.knownTypedDictShape then
        some (.unknownKey field.1)
      else none

def expansionDiagnostics (count : Nat) : KeywordExpansion → List CallDiagnostic
  | .typedDict shape =>
    let acceptsExtra := acceptsExtraKeywordSites signature reported.knownTypedDictShape
    shape.fields.filterMap (fieldDiagnostic reported call signature count)
      ++ (if shape.hasUnboundedExtraKeys && !acceptsExtra then [.openTypedDict] else [])
      ++ (if shape.extraItems.isSome && !acceptsExtra then [.additionalKeys] else [])
  | .mapping valueType =>
    if !acceptsExtraKeywordSites signature reported.knownTypedDictShape then
      [.mappingWithoutKwargs valueType]
    else []

def directSourceFunctionKeywordDiagnostics : List CallDiagnostic :=
  let count := reportedPositionalCount types reported call signature
  call.keywordNames.filterMap (keywordDiagnostic reported signature)
    ++ call.keywordNames.filterMap (boundTwiceDiagnostic signature count)
    ++ (keywordExpansions types call).flatMap (expansionDiagnostics reported call signature count)

end Arity

/-! ## Types -/

def semanticTypeMissing (ty : SemanticType) : Bool := ty = .name ""

section Types

variable (isAssignable : SemanticType → SemanticType → Bool)

def mismatch (place : ArgumentPlace) (argType paramType : SemanticType) : Option CallDiagnostic :=
  if !semanticTypeMissing argType && !semanticTypeMissing paramType
      && !isAssignable paramType argType then
    some (.typeMismatch place argType paramType)
  else none

/-- The value of a key, whose type is not missing if there is one. -/
def keyMismatch (place : ArgumentPlace) (fieldType : Option SemanticType)
    (paramType : SemanticType) : Option CallDiagnostic :=
  fieldType.bind fun fieldType =>
    if !semanticTypeMissing paramType && !isAssignable paramType fieldType then
      some (.typeMismatch place fieldType paramType)
    else none

variable (paramTypes : List SemanticType) (paramNames : List String)
  (variadicType keywordVariadicType : Option SemanticType) (unpackShape : Option TypedDictShape)

def unpackExtraItemsType : Option SemanticType :=
  (unpackShape.bind TypedDictShape.extraItems).bind TypedDictExtraItemsShape.semanticValueType

def extraKeywordType : Option SemanticType :=
  (unpackExtraItemsType unpackShape).or keywordVariadicType

def keywordTypeDiagnostic (keyword : String × SemanticType) : Option CallDiagnostic :=
  match paramNames.findIdx? fun name => name = keyword.1 with
  | some index =>
    paramTypes[index]?.bind fun paramType =>
      mismatch isAssignable (.keyword keyword.1) keyword.2 paramType
  | none =>
    match unpackShape.bind fun shape => shape.field keyword.1 with
    | some field =>
      if semanticTypeMissing keyword.2 then none
      else field.semanticValueType.bind fun fieldType =>
        if isAssignable fieldType keyword.2 then none
        else some (.typeMismatch (.unpackedKeyword keyword.1) keyword.2 fieldType)
    | none =>
      (extraKeywordType keywordVariadicType unpackShape).bind fun paramType =>
        mismatch isAssignable (.extraKeyword keyword.1) keyword.2 paramType

def fieldTypeDiagnostic (field : String × TypedDictFieldShape) : Option CallDiagnostic :=
  match paramNames.findIdx? fun name => name = field.1 with
  | some index =>
    paramTypes[index]?.bind fun paramType =>
      keyMismatch isAssignable (.key field.1) field.2.semanticValueType paramType
  | none =>
    (extraKeywordType keywordVariadicType unpackShape).bind fun paramType =>
      keyMismatch isAssignable (.extraKey field.1) field.2.semanticValueType paramType

def expansionTypeDiagnostics : KeywordExpansion → List CallDiagnostic
  | .typedDict shape =>
    shape.fields.filterMap (fieldTypeDiagnostic isAssignable paramTypes paramNames
        keywordVariadicType unpackShape)
      ++ ((shape.extraItems.bind fun extra =>
        (extraKeywordType keywordVariadicType unpackShape).bind fun paramType =>
          keyMismatch isAssignable .additionalKeys extra.semanticValueType paramType)).toList
  | .mapping valueType =>
    (keywordVariadicType.bind fun paramType =>
      keyMismatch isAssignable .mapping (some valueType) paramType).toList

def positionalAndKeywordSemanticTypeDiagnostics (argTypes : List SemanticType)
    (keywords : List (String × SemanticType)) (variadicStarredTypes : List SemanticType)
    (expansions : List KeywordExpansion) : List CallDiagnostic :=
  (argTypes.zip paramTypes).filterMap (fun arg => mismatch isAssignable .parameter arg.1 arg.2)
    ++ (argTypes.drop paramTypes.length).filterMap (fun argType =>
      variadicType.bind fun paramType => mismatch isAssignable .variadic argType paramType)
    ++ variadicStarredTypes.filterMap (fun argType =>
      variadicType.bind fun paramType => mismatch isAssignable .starred argType paramType)
    ++ keywords.filterMap
      (keywordTypeDiagnostic isAssignable paramTypes paramNames keywordVariadicType unpackShape)
    ++ expansions.flatMap
      (expansionTypeDiagnostics isAssignable paramTypes paramNames keywordVariadicType unpackShape)

variable {Arg : Type} (types : ArgumentTypes Arg) (reported : ReportedTypes Arg)
  (call : CallArguments Arg) (signature : List DirectFunctionParamSite)

def siteTypes : List SemanticType :=
  (signature.filter fun param => !param.keywordVariadic).map fun param =>
    (semanticTypeFromDirectParamSite param).getD (.name "")

def siteNames : List String :=
  (signature.filter fun param => !param.keywordVariadic).map DirectFunctionParamSite.name

/-- The annotation of `**kwargs`, unless it unpacks something. -/
def siteKeywordVariadicType : Option SemanticType :=
  ( keywordVariadicAnnotation signature).bind fun text =>
    if isUnpackText text then none
    else (signature.find? DirectFunctionParamSite.keywordVariadic).bind
      semanticTypeFromDirectParamSite

def directSourceFunctionTypeDiagnostics : List CallDiagnostic :=
  let expectedPositional := expectedPositionalArgTypes signature call.argCount
  let expectedKeyword := expectedKeywordArgTypes signature call.keywordNames
  argumentDiagnostics reported call.argValues expectedPositional
    ++ argumentDiagnostics reported call.keywordArgValues expectedKeyword
    ++ positionalAndKeywordSemanticTypeDiagnostics isAssignable (siteTypes signature)
      (siteNames signature)
      ((signature.find? DirectFunctionParamSite.variadic).bind semanticTypeFromDirectParamSite)
      (siteKeywordVariadicType signature)
      (unpackTypedDictShape signature reported.knownTypedDictShape)
      (expandedPositionalArgTypes types (resolveDirectCallArgumentSemanticType types reported)
        call signature)
      (call.keywordNames.zip (resolvedWith (resolveDirectCallArgumentSemanticType types reported)
        call.keywordArgValues expectedKeyword))
      (variadicStarredTypes types call) (keywordExpansions types call)

end Types

end TypePython.Checking
