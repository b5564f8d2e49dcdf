import TypePython.Checking.DeclarationSemantics

/-!
# Calls and signatures

Whether a call can be made with a list of parameters: the arguments are counted, the keywords are
looked up, missing arguments are searched, and the type of each argument is compared with the
annotation of a parameter. What is found out about the values of a call is a parameter
(`ArgumentTypes`), and so are the two relations between types.
-/

namespace TypePython.Checking

/-! ## Calls -/

/-- The arguments of a call, as its site records them. -/
structure CallArguments (Arg : Type) where
  argCount : Nat
  argValues : List Arg := []
  starredArgValues : List Arg := []
  keywordNames : List String := []
  keywordArgValues : List Arg := []
  keywordExpansionValues : List Arg := []

/-- What a starred argument stands for. -/
inductive PositionalExpansion where
  | fixed (types : List (Option SemanticType))
  | variadic (elementType : SemanticType)

structure TypedDictFieldShape where
  semanticValueType : Option SemanticType
  required : Bool

structure TypedDictExtraItemsShape where
  semanticValueType : Option SemanticType

structure TypedDictShape where
  fields : List (String × TypedDictFieldShape)
  hasUnboundedExtraKeys : Bool
  extraItems : Option TypedDictExtraItemsShape := none

def TypedDictShape.field (shape : TypedDictShape) (name : String) : Option TypedDictFieldShape :=
  (shape.fields.find? fun field => field.1 = name).map Prod.snd

/-- What a double-starred argument stands for. -/
inductive KeywordExpansion where
  | typedDict (shape : TypedDictShape)
  | mapping (valueType : SemanticType)

/-- What the resolution of a value against an expected type gives. -/
structure ContextualArgType where
  actualType : SemanticType
  hasDiagnostics : Bool

/-- What is found out about the values of a call. -/
structure ArgumentTypes (Arg : Type) where
  contextual : Arg → Option SemanticType → Option ContextualArgType
  direct : Arg → Option SemanticType
  renderedValueType : Arg → Option String
  positionalExpansion : Arg → Option PositionalExpansion
  keywordExpansion : Arg → Option KeywordExpansion

/-! ## Parameters -/

namespace SemanticCallableParam

def isPositional (param : SemanticCallableParam) : Bool :=
  !param.keywordOnly && !param.variadic && !param.keywordVariadic

end SemanticCallableParam

section Params

variable (params : List SemanticCallableParam)

def positionalParams : List SemanticCallableParam :=
  params.filter SemanticCallableParam.isPositional

def variadicType : Option SemanticType :=
  (params.find? SemanticCallableParam.variadic).bind SemanticCallableParam.annotation

def keywordVariadicType : Option SemanticType :=
  (params.find? SemanticCallableParam.keywordVariadic).bind SemanticCallableParam.annotation

def expectedPositionalArgSemanticTypes (argCount : Nat) : List (Option SemanticType) :=
  (List.range argCount).map fun index =>
    ((positionalParams params)[index]?.bind SemanticCallableParam.annotation).or
      (variadicType params)

def expectedKeywordArgSemanticTypes (keywordNames : List String) : List (Option SemanticType) :=
  keywordNames.map fun keyword =>
    ((params.find? fun param => param.name = keyword && !param.positionalOnly).bind
      SemanticCallableParam.annotation).or (keywordVariadicType params)

/-- A keyword that names a parameter which takes a keyword. -/
def namesKeywordParam (keyword : String) : Bool :=
  params.any fun param => param.name = keyword && !param.positionalOnly

def acceptsExtraKeywords : Bool := params.any SemanticCallableParam.keywordVariadic

def keywordDuplicatesPositionalArguments {Arg : Type} (call : CallArguments Arg) : Bool :=
  call.keywordNames.any fun keyword =>
    (((positionalParams params).map SemanticCallableParam.name).take call.argCount).contains keyword

end Params

/-! ## The types of arguments -/

section Resolution

variable {Arg : Type} (types : ArgumentTypes Arg)

/-- The type of a value: as it is expected, else on its own, else the one its text shows. -/
def resolvedArgSemanticType (value : Arg) (expected : Option SemanticType) : SemanticType :=
  (((types.contextual value expected).map ContextualArgType.actualType).or
    (types.direct value)).getD
      (lowerTypeTextOrName ((types.renderedValueType value).getD ""))

/-- A type without a name is not known. -/
def knownSemanticType (ty : SemanticType) : Option SemanticType :=
  if ty = .name "" then none else some ty

/-- The types of values whose expected types are listed, where they are known. -/
def resolvedArgTypes (values : List Arg) (expectedTypes : List (Option SemanticType)) :
    List (Option SemanticType) :=
  values.mapIdx fun index value =>
    knownSemanticType (resolvedArgSemanticType types value expectedTypes[index]?.join)

def someArgHasDiagnostics (values : List Arg) (expectedTypes : List (Option SemanticType)) : Bool :=
  (values.mapIdx fun index value =>
    ((types.contextual value expectedTypes[index]?.join).map
      ContextualArgType.hasDiagnostics).getD false).contains true

variable (call : CallArguments Arg) (params : List SemanticCallableParam)

/-- The types of the arguments of a call that are not starred. -/
def plainPositionalTypes : List (Option SemanticType) :=
  resolvedArgTypes types call.argValues (expectedPositionalArgSemanticTypes params call.argCount)

def resolvedKeywordArgTypes : List (Option SemanticType) :=
  resolvedArgTypes types call.keywordArgValues
    (expectedKeywordArgSemanticTypes params call.keywordNames)

def starredPositional : List PositionalExpansion :=
  call.starredArgValues.filterMap types.positionalExpansion

/-- The types of the positional arguments, the elements of starred tuples included. -/
def positionalTypes : List (Option SemanticType) :=
  plainPositionalTypes types call params ++
    (starredPositional types call).flatMap fun
      | .fixed types => types
      | .variadic _ => []

def variadicStarredTypes : List SemanticType :=
  (starredPositional types call).filterMap fun
    | .fixed _ => none
    | .variadic elementType => some elementType

def keywordExpansions : List KeywordExpansion :=
  call.keywordExpansionValues.filterMap types.keywordExpansion

end Resolution

/-! ## The checks -/

/-- A required field of an expanded typed dictionary gives an argument of this name. -/
def expansionProvides (expansions : List KeywordExpansion) (name : String) : Bool :=
  expansions.any fun
    | .typedDict shape => ((shape.field name).map TypedDictFieldShape.required).getD false
    | .mapping _ => false

/-- An expansion that has keys for which there is no parameter. -/
def expansionIsUnexpected (params : List SemanticCallableParam) : KeywordExpansion → Bool
  | .typedDict shape =>
    (shape.hasUnboundedExtraKeys && !acceptsExtraKeywords params)
      || shape.fields.any fun field =>
        !namesKeywordParam params field.1 && !acceptsExtraKeywords params
  | .mapping _ => !acceptsExtraKeywords params

/-- An expansion with a key that is also given by name or by position. -/
def expansionDuplicates (params : List SemanticCallableParam) (keywordNames : List String)
    (positionalCount : Nat) : KeywordExpansion → Bool
  | .typedDict shape => shape.fields.any fun field =>
    keywordNames.contains field.1
      || (((positionalParams params).map SemanticCallableParam.name).take
          positionalCount).contains field.1
  | .mapping _ => false

/-- A parameter at an index for which the call has no argument. -/
def paramIsMissing (keywordNames : List String) (expansions : List KeywordExpansion)
    (positionalCount : Nat) (index : Nat) (param : SemanticCallableParam) : Bool :=
  !param.hasDefault &&
    if param.keywordOnly then
      !keywordNames.contains param.name && !expansionProvides expansions param.name
    else if param.variadic || param.keywordVariadic then false
    else
      decide (positionalCount ≤ index)
        && (param.positionalOnly
          || (!keywordNames.contains param.name && !expansionProvides expansions param.name))

section Applicability

variable (isAssignable typeMatches : SemanticType → SemanticType → Bool)

/-- An argument fits a parameter unless both types are known and do not go together. -/
def argFits (argType paramType : Option SemanticType) : Bool :=
  match argType, paramType with
  | some argType, some paramType => isAssignable paramType argType
  | _, _ => true

/-- An argument that only a variadic parameter can take. -/
def extraArgFits (variadicType argType : Option SemanticType) : Bool :=
  match variadicType with
  | none => false
  | some paramType => (argType.map (isAssignable paramType)).getD true

def positionalOk (params : List SemanticCallableParam)
    (positionalTypes : List (Option SemanticType)) (variadicStarredTypes : List SemanticType) :
    Bool :=
  let positionalCount := (positionalParams params).length
  (((positionalTypes.take positionalCount).zip
      (params.map SemanticCallableParam.annotation)).all fun (argType, paramType) =>
        argFits isAssignable argType paramType)
    && ((positionalTypes.drop positionalCount).all
      (extraArgFits isAssignable (variadicType params)))
    && variadicStarredTypes.all fun argType =>
      ((variadicType params).map fun paramType => typeMatches paramType argType).getD false

def keywordArgOk (params : List SemanticCallableParam) (keyword : String)
    (argType : Option SemanticType) : Bool :=
  match params.find? fun param => param.name = keyword with
  | none => extraArgFits isAssignable (keywordVariadicType params) argType
  | some param => argFits isAssignable argType param.annotation

/-- The fields of an expanded typed dictionary, or the values of a mapping, have the types of
the parameters they are for. -/
def keywordExpansionOk (params : List SemanticCallableParam) : KeywordExpansion → Bool
  | .typedDict shape => shape.fields.all fun (key, field) =>
    match params.find? fun param => param.name = key with
    | some param =>
      if param.positionalOnly then false
      else if !field.required && !param.hasDefault then false
      else argFits typeMatches field.semanticValueType param.annotation
    | none => extraArgFits typeMatches (keywordVariadicType params) field.semanticValueType
  | .mapping valueType =>
    ((keywordVariadicType params).map fun paramType => typeMatches paramType valueType).getD false

def keywordOk (params : List SemanticCallableParam) (keywordNames : List String)
    (keywordArgTypes : List (Option SemanticType)) (expansions : List KeywordExpansion) : Bool :=
  ((keywordNames.zip keywordArgTypes).all fun (keyword, argType) =>
      keywordArgOk isAssignable params keyword argType)
    && expansions.all (keywordExpansionOk typeMatches params)

variable {Arg : Type} (types : ArgumentTypes Arg)

/-- Whether a call can be made with a list of parameters. -/
def callSignatureParamsAreApplicable (call : CallArguments Arg)
    (params : List SemanticCallableParam) : Bool :=
  if someArgHasDiagnostics types call.argValues
      (expectedPositionalArgSemanticTypes params call.argCount) then false
  else if someArgHasDiagnostics types call.keywordArgValues
      (expectedKeywordArgSemanticTypes params call.keywordNames) then false
  else
    let keywordArgTypes := resolvedKeywordArgTypes types call params
    let positional := positionalTypes types call params
    let starred := variadicStarredTypes types call
    let expansions := keywordExpansions types call
    if !params.any SemanticCallableParam.variadic
        && (decide ((positionalParams params).length < positional.length) || !starred.isEmpty) then
      false
    else if call.keywordNames.any fun keyword =>
        !namesKeywordParam params keyword && !acceptsExtraKeywords params then false
    else if expansions.any (expansionIsUnexpected params) then false
    else if keywordDuplicatesPositionalArguments params call then false
    else if expansions.any (expansionDuplicates params call.keywordNames positional.length) then
      false
    else if (params.mapIdx (paramIsMissing call.keywordNames expansions
        positional.length)).contains true then false
    else
      positionalOk isAssignable typeMatches params positional starred
        && keywordOk isAssignable typeMatches params call.keywordNames keywordArgTypes expansions

end Applicability

end TypePython.Checking
