import TypePython.Checking.ClassGraph
import TypePython.Lib.Queries

/-!
# Assignability

The relation between an expected and an actual type, as the checker searches for it. The search
calls itself through aliases, unions, arguments, bases and members and may run forever, so it is
a program for each question it asks (`Question.body`).

A pair of types that is met again below itself is answered with yes: `visiting` holds the pairs
on the way. Where the source takes a pair out again on the way back, it is simply not passed on
here. Arguments, callables, bases and members start with nothing on the way.
-/

namespace TypePython.Checking

open Std
open TypePython.Lib
open TypePython.Lib.Text
open TypePython.Syntax
open TypePython.Binding

structure AssignabilityOptions where
  strictNulls : Bool := true
  frameworkAdapters : Bool := false
  taint : Bool := false

/-! ## Special types -/

def isAnySemanticType (ty : SemanticType) : Bool := ty = .name "Any"

def isDynamicSemanticType (ty : SemanticType) : Bool := ty = .name "dynamic"

def isUnknownSemanticType (ty : SemanticType) : Bool := ty = .name "unknown"

def isObjectSemanticType (ty : SemanticType) : Bool := ty = .name "object"

def isTopReceivingSemanticType (ty : SemanticType) : Bool :=
  isAnySemanticType ty || isUnknownSemanticType ty || isDynamicSemanticType ty

def isTopEscapingSemanticType (ty : SemanticType) : Bool :=
  isAnySemanticType ty || isDynamicSemanticType ty

def semanticTypeIsNone (ty : SemanticType) : Bool := ty.stripAnnotated = .name "None"

mutual

/-- Whether a type takes `None` when nulls are not strict. -/
def semanticTypeAcceptsImplicitNone : SemanticType → Bool
  | .annotated value _ => semanticTypeAcceptsImplicitNone value
  | .union branches => someAcceptsImplicitNone branches
  | .generic head [inner] =>
    if head = "Optional" then semanticTypeAcceptsImplicitNone inner else head ≠ "Literal"
  | .generic head _ => head ≠ "Literal"
  | .name name => name ≠ "Never" && name ≠ "None"
  | .callable _ _ => true
  | .unpack _ => true

def someAcceptsImplicitNone : List SemanticType → Bool
  | [] => false
  | ty :: rest => semanticTypeAcceptsImplicitNone ty || someAcceptsImplicitNone rest

end

/-! ## Taint -/

mutual

def eraseTaintQualifiers : SemanticType → SemanticType
  | .name name => .name name
  | .generic head [value, context] =>
    if head = "Tainted" then eraseTaintQualifiers value
    else .generic head [eraseTaintQualifiers value, eraseTaintQualifiers context]
  | .generic head args => .generic head (eraseTaintFromAll args)
  | .callable params returnType =>
    .callable (eraseTaintQualifiersFromCallableParams params) (eraseTaintQualifiers returnType)
  | .union branches => .union (eraseTaintFromAll branches)
  | .annotated value metadata => .annotated (eraseTaintQualifiers value) metadata
  | .unpack inner => .unpack (eraseTaintQualifiers inner)

def eraseTaintQualifiersFromCallableParams : SemanticCallableParams → SemanticCallableParams
  | .ellipsis => .ellipsis
  | .paramList types => .paramList (eraseTaintFromAll types)
  | .concatenate types => .concatenate (eraseTaintFromAll types)
  | .single expr => .single (eraseTaintQualifiers expr)

def eraseTaintFromAll : List SemanticType → List SemanticType
  | [] => []
  | ty :: rest => eraseTaintQualifiers ty :: eraseTaintFromAll rest

end

def normalizeTypeForAssignabilityOptions (options : AssignabilityOptions) (ty : SemanticType) :
    SemanticType :=
  if options.taint then ty.stripAnnotated else eraseTaintQualifiers ty.stripAnnotated

def semanticTaintedParts (ty : SemanticType) : Option (SemanticType × SemanticType) :=
  match ty.genericParts with
  | some ("Tainted", [inner, taintContext]) => some (inner, taintContext)
  | _ => none

/-! ## Parts of types -/

/-- The class of `Literal[Class.member]`. -/
def semanticEnumMemberOwnerName (ty : SemanticType) : Option String :=
  match ty.stripAnnotated with
  | .generic "Literal" [.name name] =>
    (rsplitOnce '.' name.toList).map fun (owner, _) => normalizeTypeText (String.ofList owner)
  | _ => none

inductive GenericVariance where
  | invariant
  | covariant
  | contravariant
deriving DecidableEq

def variancesForGenericHead (head : String) (arity : Nat) : List GenericVariance :=
  if head ∈ ["Sequence", "Iterable", "Iterator", "Reversible", "Collection", "AbstractSet",
      "frozenset", "tuple", "type"] then List.replicate arity .covariant
  else if head = "Mapping" && arity = 2 then [.invariant, .covariant]
  else if head = "Generator" && arity = 3 then [.covariant, .contravariant, .covariant]
  else List.replicate arity .invariant

/-- The parameters of a callable that is written with generic arguments. -/
def callableParamsFromGenericArg (params : SemanticType) : SemanticCallableParams :=
  match params with
  | .name "..." => .ellipsis
  | .generic "Concatenate" args => .concatenate args
  | _ => .single params

/-! ## Questions -/

/-- What the search asks itself: the two relations, the expansion of an alias, and whether the
body of an alias leads back to a name. -/
inductive Question where
  | isAssignable (node : ModuleNode) (expected actual : SemanticType)
      (visiting : List (SemanticType × SemanticType))
  | typeMatches (node : ModuleNode) (expected actual : SemanticType)
      (visiting : List (SemanticType × SemanticType))
  | expandAliasOnce (node : ModuleNode) (ty : SemanticType)
  | expandAliasesInProviderContext (node : ModuleNode) (ty : SemanticType)
      (seen : List SemanticType)
  | aliasEventuallyMentions (node : ModuleNode) (current target : String)
      (visiting : List ClassKey)
  | typeMentionsAlias (node : ModuleNode) (ty : SemanticType) (target : String)
      (visiting : List ClassKey)

/-- The answers to a question. -/
abbrev Question.Answer : Question → Type
  | .isAssignable .. => Bool
  | .typeMatches .. => Bool
  | .expandAliasOnce .. => Option SemanticType
  | .expandAliasesInProviderContext .. => SemanticType
  | .aliasEventuallyMentions .. => Bool
  | .typeMentionsAlias .. => Bool

/-- A program of the search. -/
abbrev Search := Prog Question Question.Answer

namespace Search

def isAssignable (node : ModuleNode) (expected actual : SemanticType)
    (visiting : List (SemanticType × SemanticType)) : Search Bool :=
  Prog.query (Question.isAssignable node expected actual visiting)

def typeMatches (node : ModuleNode) (expected actual : SemanticType)
    (visiting : List (SemanticType × SemanticType)) : Search Bool :=
  Prog.query (Question.typeMatches node expected actual visiting)

def expandAliasOnce (node : ModuleNode) (ty : SemanticType) :
    Search (Option SemanticType) :=
  Prog.query (Question.expandAliasOnce node ty)

/-- Both programs hold; the second runs only if the first does. -/
def and (first second : Search Bool) : Search Bool := do
  if ← first then second else pure false

/-- One of the programs holds; the second runs only if the first does not. -/
def or (first second : Search Bool) : Search Bool := do
  if ← first then pure true else second

end Search

section Search

variable (nodes : List ModuleNode) (options : AssignabilityOptions)

/-! ## Aliases -/

/-- The body of an alias with its parameters replaced, in the module that declares it. -/
def aliasBodyFor (aliasNode : ModuleNode) (aliasDecl : Declaration) (args : List SemanticType) :
    Option SemanticType := do
  let substitutions ← aliasTypeParamSubstitutionsSemantic aliasDecl args
  let typeAlias ← (declarationSemanticFacts aliasDecl).typeAlias
  return substituteSemanticTypeParams substitutions
    (rewriteImportedTypingSemanticType aliasNode typeAlias.body)

/-- The alias a type names, and its arguments. -/
def aliasHead (ty : SemanticType) : Option (String × List SemanticType) :=
  match ty.stripAnnotated with
  | .name name => some (name, [])
  | .generic head args => some (head, args)
  | _ => none

def expandSemanticTypeAliasOnce (node : ModuleNode) (ty : SemanticType) :
    Search (Option SemanticType) :=
  let expanded : Option (ModuleNode × SemanticType) := do
    let (head, args) ← aliasHead ty
    let (aliasNode, aliasDecl) ← resolveDirectTypeAlias nodes node head
    let expanded ← aliasBodyFor aliasNode aliasDecl args
    return (aliasNode, expanded)
  match expanded with
  | none => pure none
  | some (aliasNode, expanded) =>
    if expanded = ty.stripAnnotated then pure none
    else do
      let expanded ← Prog.query (Question.expandAliasesInProviderContext aliasNode expanded [])
      pure (if expanded = ty.stripAnnotated then none else some expanded)

/-- Expand as long as there is something new. -/
def expandSemanticTypeAliasesInProviderContext (node : ModuleNode) (ty : SemanticType)
    (seen : List SemanticType) : Search SemanticType :=
  if ty ∈ seen then pure ty
  else do
    match ← Search.expandAliasOnce node ty with
    | none => pure ty
    | some next => Prog.query (Question.expandAliasesInProviderContext node next (ty :: seen))

def typeAliasEventuallyMentions (node : ModuleNode) (current target : String)
    (visiting : List ClassKey) : Search Bool :=
  match resolveDirectTypeAlias nodes node current with
  | none => pure false
  | some (aliasNode, aliasDecl) =>
    if visiting.contains (classKey aliasNode aliasDecl) then
      pure (aliasDecl.name = target : Bool)
    else
      match (declarationSemanticFacts aliasDecl).typeAlias with
      | none => pure false
      | some typeAlias =>
        Prog.query (Question.typeMentionsAlias aliasNode typeAlias.body target
          (classKey aliasNode aliasDecl :: visiting))

def semanticTypeMentionsAlias (node : ModuleNode) (ty : SemanticType) (target : String)
    (visiting : List ClassKey) : Search Bool :=
  let mentions (ty : SemanticType) : Search Bool :=
    Prog.query (Question.typeMentionsAlias node ty target visiting)
  let namesOrMentions (name : String) : Search Bool :=
    if name = target then pure true
    else Prog.query (Question.aliasEventuallyMentions node name target visiting)
  match semanticUnionBranches ty with
  | some branches => Prog.any mentions branches
  | none =>
    match ty.stripAnnotated with
    | .generic head args => (namesOrMentions head).or (Prog.any mentions args)
    | .name name => namesOrMentions name
    | _ => pure false

/-- Whether a type is named after an alias that leads back to itself. -/
def recursiveTypeAliasHeadSemantic (node : ModuleNode) (ty : SemanticType) : Search Bool :=
  match aliasHead ty with
  | none => pure false
  | some (head, _) =>
    match resolveDirectTypeAlias nodes node head with
    | none => pure false
    | some (aliasNode, aliasDecl) =>
      Prog.query (Question.aliasEventuallyMentions aliasNode aliasDecl.name head [])

/-! ## Matching -/

/-- Two types match if they are equal up to aliases, `Any` and the order of unions. -/
def structurallyMatches (node : ModuleNode) (expected actual : SemanticType)
    (visiting : List (SemanticType × SemanticType)) : Search Bool :=
  match semanticUnionBranches expected with
  | some branches =>
    match semanticUnionBranches actual with
    | some actualBranches =>
      Search.and
        (Prog.all (fun actualBranch => Prog.any (fun expectedBranch =>
          Search.typeMatches node expectedBranch actualBranch visiting) branches)
          actualBranches)
        (Prog.all (fun expectedBranch => Prog.any (fun actualBranch =>
          Search.typeMatches node expectedBranch actualBranch visiting) actualBranches)
          branches)
    | none => Prog.any (fun branch => Search.typeMatches node branch actual visiting) branches
  | none =>
    if semanticEnumMemberOwnerName actual = some (renderSemanticType expected) then pure true
    else
      match expected.genericParts, actual.genericParts with
      | some (expectedHead, expectedArgs), some (actualHead, actualArgs) =>
        if expectedHead = actualHead then
          let shape (args : List SemanticType) : List SemanticType :=
            if expectedHead = "tuple" then expandedTupleShapeSemanticArgs args else args
          if (shape expectedArgs).length = (shape actualArgs).length then
            Prog.all (fun (expectedArg, actualArg) =>
              Search.typeMatches node expectedArg actualArg visiting)
              ((shape expectedArgs).zip (shape actualArgs))
          else pure false
        else pure false
      | _, _ => pure false

def directSemanticTypeMatches (node : ModuleNode) (expected actual : SemanticType)
    (visiting : List (SemanticType × SemanticType)) : Search Bool :=
  let expected := normalizeTypeForAssignabilityOptions options expected
  let actual := normalizeTypeForAssignabilityOptions options actual
  if expected = actual || isAnySemanticType expected || isAnySemanticType actual then pure true
  else if (expected, actual) ∈ visiting then pure true
  else do
    let visiting := (expected, actual) :: visiting
    match ← Search.expandAliasOnce node expected with
    | some expandedExpected => Search.typeMatches node expandedExpected actual visiting
    | none =>
      match ← Search.expandAliasOnce node actual with
      | some expandedActual => Search.typeMatches node expected expandedActual visiting
      | none => structurallyMatches node expected actual visiting

def invariantMatches (node : ModuleNode) (expected actual : SemanticType) : Search Bool :=
  Search.or
    (Search.and (Search.typeMatches node expected actual [])
      (Search.typeMatches node actual expected []))
    (Search.and (recursiveTypeAliasHeadSemantic nodes node expected)
      (Search.isAssignable node expected actual []))

/-! ## Rules that decide at once -/

/-- The rules for equal types, for `unknown` and the top types, and for nulls that are not
strict. -/
def decidedAtOnce (expected actual : SemanticType) : Option Bool :=
  let actualIsUnknown := isUnknownSemanticType actual
  if expected = actual then some true
  else if actualIsUnknown && (isUnknownSemanticType expected || isDynamicSemanticType expected
      || isObjectSemanticType expected) then some true
  else if actualIsUnknown && isAnySemanticType expected then some false
  else if !actualIsUnknown && (isObjectSemanticType expected
      || isTopReceivingSemanticType expected || isTopEscapingSemanticType actual) then some true
  else if !options.strictNulls && semanticTypeIsNone actual
      && semanticTypeAcceptsImplicitNone expected then some true
  else none

/-- A tainted type and one that is not are never assignable. -/
def taintQualifiedAssignability (node : ModuleNode) (expected actual : SemanticType) :
    Search (Option Bool) :=
  match semanticTaintedParts expected, semanticTaintedParts actual with
  | none, none => pure none
  | some (expectedInner, expectedContext), some (actualInner, actualContext) => do
    let result ← (invariantMatches nodes node expectedContext actualContext).and
      (Search.isAssignable node expectedInner actualInner [])
    pure (some result)
  | _, _ => pure (some false)

/-! ## Callables -/

/-- Parameters are taken the other way round. -/
def callableParamSemanticAssignable (node : ModuleNode) (expected actual : SemanticType) :
    Search Bool :=
  Search.isAssignable node actual expected []

def callableParamsAssignable (node : ModuleNode) (expected actual : List SemanticType) :
    Search Bool :=
  Prog.all (fun param : SemanticType × SemanticType =>
    callableParamSemanticAssignable node param.1 param.2) (expected.zip actual)

/-- No answer for parameters of different kinds, nor for an empty `Concatenate`. -/
def callableStructuralParamsAssignable (node : ModuleNode)
    (expectedParams actualParams : SemanticCallableParams) : Search (Option Bool) :=
  match expectedParams, actualParams with
  | .ellipsis, _ => pure (some true)
  | _, .ellipsis => pure (some true)
  | .paramList expected, .paramList actual =>
    if expected.length ≠ actual.length then pure (some false)
    else do
      let result ← callableParamsAssignable node expected actual
      pure (some result)
  | .single expected, .single actual => do
    let result ← callableParamSemanticAssignable node expected actual
    pure (some result)
  | .concatenate expected, .concatenate actual =>
    match expected.getLast?, actual.getLast? with
    | some expectedTail, some actualTail =>
      if expected.length ≠ actual.length then pure (some false)
      else do
        let result ← Search.and
          (callableParamsAssignable node expected.dropLast actual.dropLast)
          (callableParamSemanticAssignable node expectedTail actualTail)
        pure (some result)
    | _, _ => pure none
  | _, _ => pure none

def callableSemanticAnnotationAssignable (node : ModuleNode)
    (expectedParams : SemanticCallableParams) (expectedReturn : SemanticType)
    (actualParams : SemanticCallableParams) (actualReturn : SemanticType) :
    Search (Option Bool) := do
  if ← Search.isAssignable node expectedReturn actualReturn [] then
    callableStructuralParamsAssignable node expectedParams actualParams
  else pure (some false)

/-! ## Generic types -/

def genericArgAssignable (node : ModuleNode) (expected actual : SemanticType) :
    GenericVariance → Search Bool
  | .invariant => invariantMatches nodes node expected actual
  | .covariant => Search.isAssignable node expected actual []
  | .contravariant => Search.isAssignable node actual expected []

def sameHeadSemanticGenericAssignable (node : ModuleNode) (head : String)
    (expectedArgs actualArgs : List SemanticType) : Search (Option Bool) :=
  if head = "Callable" then
    match expectedArgs, actualArgs with
    | [expectedParams, expectedReturn], [actualParams, actualReturn] =>
      callableSemanticAnnotationAssignable node
        (callableParamsFromGenericArg expectedParams) expectedReturn
        (callableParamsFromGenericArg actualParams) actualReturn
    | _, _ => pure none
  else do
    let variances := variancesForGenericHead head expectedArgs.length
    let result ← Prog.all (fun arg : (SemanticType × SemanticType) × GenericVariance =>
      genericArgAssignable nodes node arg.1.1 arg.1.2 arg.2)
      ((expectedArgs.zip actualArgs).zip variances)
    pure (some result)

/-- The element a `Sequence` sees of a `list` or a `tuple`. -/
def sequenceElement (actualHead : String) (actualArgs : List SemanticType) : SemanticType :=
  match actualHead, actualArgs with
  | "tuple", [element, .name "..."] => element
  | "tuple", args => joinSemanticTypeCandidates args
  | _, args => args.head?.getD (.name "dynamic")

def assignableSemanticGenericBridge (node : ModuleNode) (expected actual : SemanticType) :
    Search (Option Bool) :=
  match expected.genericParts, actual.genericParts with
  | some (expectedHead, expectedArgs), some (actualHead, actualArgs) =>
    if expectedHead = "tuple" && actualHead = "tuple" then
      let expectedArgs := expandedTupleShapeSemanticArgs expectedArgs
      let actualArgs := expandedTupleShapeSemanticArgs actualArgs
      if expectedArgs.length ≠ actualArgs.length then pure (some false)
      else sameHeadSemanticGenericAssignable nodes node expectedHead expectedArgs actualArgs
    else if expectedHead = actualHead && expectedArgs.length = actualArgs.length then
      sameHeadSemanticGenericAssignable nodes node expectedHead expectedArgs actualArgs
    else
      match expectedHead, expectedArgs, actualHead, actualArgs with
      | "Mapping", [expectedKey, expectedValue], "dict", [actualKey, actualValue] => do
        let result ← (invariantMatches nodes node expectedKey actualKey).and
          (Search.isAssignable node expectedValue actualValue [])
        pure (some result)
      | "Sequence", expectedElement :: _, _, _ =>
        if actualHead = "list" || actualHead = "tuple" then do
          let result ← Search.isAssignable node expectedElement
            (sequenceElement actualHead actualArgs) []
          pure (some result)
        else pure none
      | _, _, _, _ => pure none
  | _, _ => pure none

/-! ## Bases and members -/

def nominalSubclassAssignable (node : ModuleNode) (expected actual : String) : Search Bool :=
  if expected = actual then pure true
  else
    match resolveDirectBase nodes node actual with
    | none => pure false
    | some (actualNode, actualDecl) =>
      Prog.any (fun base =>
        if normalizeTypeText base = expected then pure true
        else Search.isAssignable actualNode (lowerTypeTextOrName expected)
          (lowerTypeTextOrName base) []) actualDecl.renderedClassBases

/-- Two types that may be missing are assignable when one of them is. -/
def optionalTypesAssignable (node : ModuleNode) (expected actual : Option SemanticType) :
    Search Bool :=
  match expected, actual with
  | some expected, some actual => Search.isAssignable node expected actual []
  | _, _ => pure true

/-- Whether a parameter of a method fits the one of the method it overrides. -/
def overrideParamCompatible (node : ModuleNode) (child base : SemanticCallableParam) :
    Search Bool :=
  if child.positionalOnly = base.positionalOnly && child.keywordOnly = base.keywordOnly
      && child.variadic = base.variadic && child.keywordVariadic = base.keywordVariadic
      && child.hasDefault = base.hasDefault && child.name = base.name then
    optionalTypesAssignable node child.annotation base.annotation
  else pure false

def methodReturnSemanticType (member : Declaration) : Option SemanticType :=
  match member.owner with
  | none => declarationSignatureReturnSemanticType member
  | some owner => declarationSignatureReturnSemanticTypeWithSelf member owner.name

def overridesContextManagerMethod (member baseMember : Declaration) : Bool :=
  (member.name = "__enter__" || member.name = "__exit__")
    && (baseMember.owner.map DeclarationOwner.name = some "ContextManager"
      || baseMember.owner.map DeclarationOwner.name = some "AbstractContextManager")
    && member.methodKind = some .instanceMethod && baseMember.methodKind = some .instanceMethod

def sameCallableSignature (member baseMember : Declaration) : Bool :=
  match member.callableSignature, baseMember.callableSignature with
  | some signature, some baseSignature =>
    signature.params == baseSignature.params
      && signature.returns.map BoundTypeExpr.expr == baseSignature.returns.map BoundTypeExpr.expr
  | _, _ => false

def methodsAreCompatibleForOverride (node : ModuleNode) (member baseMember : Declaration) :
    Search Bool :=
  if member.methodKind = baseMember.methodKind && sameCallableSignature member baseMember then
    pure true
  else if overridesContextManagerMethod member baseMember then
    pure (declarationSignatureParamCount member = declarationSignatureParamCount baseMember : Bool)
  else if member.methodKind ≠ baseMember.methodKind then pure false
  else
    match declarationSemanticSignatureParams member,
      declarationSemanticSignatureParams baseMember with
    | some memberParams, some baseParams =>
      if memberParams.length ≠ baseParams.length then pure false
      else
        Search.and
          (Prog.all (fun param : SemanticCallableParam × SemanticCallableParam =>
            overrideParamCompatible node param.1 param.2) (memberParams.zip baseParams))
          (optionalTypesAssignable node (methodReturnSemanticType baseMember)
            (methodReturnSemanticType member))
    | _, _ => pure true

def actualMemberSatisfiesRequirement (actualNode : ModuleNode)
    (actualDecl requirement : Declaration) : Search Bool :=
  let valueSatisfies (expected : Option SemanticType) : Search Bool :=
    match findApparentValueDeclaration nodes actualNode actualDecl requirement.name with
    | none => pure false
    | some member =>
      optionalTypesAssignable actualNode expected (declarationEffectiveValueSemanticType member)
  match requirement.kind with
  | .function =>
    match findApparentCallableDeclaration nodes actualNode actualDecl requirement.name with
    | some member => methodsAreCompatibleForOverride actualNode member requirement
    | none =>
      if requirement.methodKind = some .property then
        valueSatisfies (declarationSignatureReturnSemanticType requirement)
      else pure false
  | .value => valueSatisfies (declarationValueAnnotationSemanticType requirement)
  | _ => pure false

def typeSatisfiesInterface (actualNode : ModuleNode) (actualDecl : Declaration)
    (interfaceNode : ModuleNode) (interfaceDecl : Declaration) : Search Bool :=
  Prog.all (actualMemberSatisfiesRequirement nodes actualNode actualDecl)
    (collectInterfaceMembers nodes interfaceNode interfaceDecl)

def protocolAssignable (node : ModuleNode) (expected actual : String) : Search Bool :=
  match resolveDirectBase nodes node expected with
  | none => pure false
  | some (interfaceNode, interfaceDecl) =>
    if isInterfaceLikeDeclaration nodes interfaceNode interfaceDecl then
      match resolveDirectBase nodes node actual with
      | none => pure false
      | some (actualNode, actualDecl) =>
        typeSatisfiesInterface nodes actualNode actualDecl interfaceNode interfaceDecl
    else pure false

/-! ## Assignability -/

/-- The base of a type that is the name of a new type. -/
def newtypeBase (node : ModuleNode) (ty : SemanticType) : Option SemanticType :=
  match ty.stripAnnotated with
  | .name name => resolveNewtypeBaseSemanticType nodes node name
  | _ => none

/-- Two types that are neither aliases nor unions nor callables. All of the first three tests
are made, whatever the others give. -/
def namedAssignable (node : ModuleNode) (expected actual : SemanticType)
    (visiting : List (SemanticType × SemanticType)) : Search Bool := do
  let expectedRendered := renderSemanticType expected
  let actualRendered := renderSemanticType actual
  let enumMatch := semanticEnumMemberOwnerName actual = some expectedRendered
  let protocol ← protocolAssignable nodes node expectedRendered actualRendered
  let nominal ← nominalSubclassAssignable nodes node expectedRendered actualRendered
  if enumMatch || protocol || nominal then pure true
  else
    match ← assignableSemanticGenericBridge nodes node expected actual with
    | some result => pure result
    | none =>
      match newtypeBase nodes node actual with
      | some base => Search.isAssignable node expected base visiting
      | none =>
        if isUnknownSemanticType actual then pure false
        else Search.typeMatches node expected actual []

def structurallyAssignable (node : ModuleNode) (expected actual : SemanticType)
    (visiting : List (SemanticType × SemanticType)) : Search Bool :=
  match semanticUnionBranches expected, semanticUnionBranches actual with
  | some branches, some actualBranches =>
    Prog.all (fun actualBranch => Prog.any (fun expectedBranch =>
      Search.isAssignable node expectedBranch actualBranch visiting) branches) actualBranches
  | some branches, none =>
    Prog.any (fun branch => Search.isAssignable node branch actual visiting) branches
  | none, some actualBranches =>
    Prog.all (fun branch => Search.isAssignable node expected branch visiting) actualBranches
  | none, none =>
    match expected.callableParts, actual.callableParts with
    | some (expectedParams, expectedReturn), some (actualParams, actualReturn) => do
      let result ← callableSemanticAnnotationAssignable node expectedParams expectedReturn
        actualParams actualReturn
      pure (result.getD false)
    | _, _ => namedAssignable nodes node expected actual visiting

/-- Expand the expected type, else the actual one, else compare their structure. -/
def searchAssignable (node : ModuleNode) (expected actual : SemanticType)
    (visiting : List (SemanticType × SemanticType)) : Search Bool :=
  if (expected, actual) ∈ visiting then pure true
  else do
    let visiting := (expected, actual) :: visiting
    match ← Search.expandAliasOnce node expected with
    | some expandedExpected => Search.isAssignable node expandedExpected actual visiting
    | none =>
      match ← Search.expandAliasOnce node actual with
      | some expandedActual => Search.isAssignable node expected expandedActual visiting
      | none => structurallyAssignable nodes node expected actual visiting

def directSemanticTypeIsAssignable (node : ModuleNode) (expected actual : SemanticType)
    (visiting : List (SemanticType × SemanticType)) : Search Bool :=
  let expected := normalizeTypeForAssignabilityOptions options expected
  let actual := normalizeTypeForAssignabilityOptions options actual
  match decidedAtOnce options expected actual with
  | some result => pure result
  | none => do
    let tainted ← if options.taint then taintQualifiedAssignability nodes node expected actual
      else pure none
    match tainted with
    | some result => pure result
    | none => searchAssignable nodes node expected actual visiting

/-- What the search does for each question. -/
def Question.body : (question : Question) → Search question.Answer
  | .isAssignable node expected actual visiting =>
    directSemanticTypeIsAssignable nodes options node expected actual visiting
  | .typeMatches node expected actual visiting =>
    directSemanticTypeMatches options node expected actual visiting
  | .expandAliasOnce node ty => expandSemanticTypeAliasOnce nodes node ty
  | .expandAliasesInProviderContext node ty seen =>
    expandSemanticTypeAliasesInProviderContext node ty seen
  | .aliasEventuallyMentions node current target visiting =>
    typeAliasEventuallyMentions nodes node current target visiting
  | .typeMentionsAlias node ty target visiting =>
    semanticTypeMentionsAlias node ty target visiting

/-- `is_assignable` returns a value. -/
def IsAssignable (node : ModuleNode) (expected actual : SemanticType) (result : Bool) : Prop :=
  Answers (Question.body nodes options) (.isAssignable node expected actual []) result

end Search

end TypePython.Checking
