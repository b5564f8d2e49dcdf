import TypePython.Checking.Assignability
import TypePython.Checking.CallAdmission
import TypePython.Checking.TupleLengths

/-!
# Functions as values of callable types

Which functions the checker lets stand where a `Callable` is expected, by assignment or by the
type of their name. The parameters of a function are flattened to a list of types, whatever
their kinds, and compared one by one. `acceptedFunction_callable_iff` says when a function
accepted in this way can be called as its type says.
-/

namespace TypePython.Checking

open TypePython.Lib
open TypePython.Lib.Text
open TypePython.Syntax
open TypePython.Binding

/-! ## Callable annotations -/

def parseCallableAnnotationParts (text : String) : Option (String × String) :=
  match TypeExpr.parse text with
  | some (.callable params returnType) => some (params.render, returnType.render)
  | _ => none

/-- The types of the parameters, unless they are left open by `...`, and of the result. -/
def parseCallableAnnotation (text : String) : Option (Option (List String) × String) := do
  let (params, returnType) ← parseCallableAnnotationParts text
  if params = "..." then return (none, returnType)
  else
    let opened ← stripPrefix ['['] params.toList
    let inner ← stripSuffix [']'] opened
    let paramTypes :=
      if trim inner = [] then []
      else (splitTopLevelTypeArgs inner).map fun part => normalizeTypeText (String.ofList part)
    return (some paramTypes, returnType)

/-! ## Functions -/

section

variable (nodes : List ModuleNode) (node : ModuleNode)

def topLevelFunction (node : ModuleNode) (name : String) : Option Declaration :=
  node.declarations.find? fun declaration =>
    declaration.owner.isNone && declaration.kind = .function && declaration.name = name

def functionOfModule (moduleKey name : String) : Option (ModuleNode × Declaration) := do
  let target ← nodes.find? fun candidate => candidate.moduleKey = moduleKey
  let function ← topLevelFunction target name
  return (target, function)

/-- A function named by a path: in the module of that path, or in a submodule of an imported
one. -/
def functionOfPath (path : String) : Option (ModuleNode × Declaration) := do
  let (modulePath, symbolName) ← rsplitOnce '.' path.toList
  let imported : Option (ModuleNode × Declaration) := do
    let (head, tail) ← splitOnce '.' modulePath
    let importTarget ← resolveImportedSymbolSemanticTarget node nodes (String.ofList head)
    let moduleNode ← importTarget.moduleTarget
    functionOfModule nodes (moduleNode.moduleKey ++ "." ++ String.ofList tail)
      (String.ofList symbolName)
  (functionOfModule nodes (String.ofList modulePath) (String.ofList symbolName)).or imported

def resolveFunctionProviderWithNode (name : String) : Option (ModuleNode × Declaration) :=
  match topLevelFunction node name with
  | some function => some (node, function)
  | none =>
    (functionOfPath nodes node name).or
      ((resolveImportedSymbolSemanticTarget node nodes name).bind
        ImportedSymbolSemanticTarget.functionProvider)

/-- What a call of the function gives, as it is declared. -/
def declaredResult (function : Declaration) : Option SemanticType := do
  let returnType ← methodReturnSemanticType function
  return if function.isAsync then .generic "Awaitable" [returnType] else returnType

/-! ## The values of assignments -/

/-- The value of an annotated assignment: a lambda, a name or a member. -/
structure AssignedValue where
  hasLambda : Bool := false
  valueName : Option String := none
  valueMember : Option (String × String × Bool) := none
  line : Nat

/-- What the checker resolves of lambdas, members and calls, what decorators make of a function,
and what else a name may be. -/
structure CallableSources where
  lambdaSignature : AssignedValue → Option (List SemanticType × SemanticType)
  memberSignature : AssignedValue → Option (List SemanticType × SemanticType)
  decoratedCallable : ModuleNode → Declaration → Option SemanticType
  returnOfCallOnLine : String → Nat → Option SemanticType
  otherCallableReturn : String → Option SemanticType
  boundBeforeFunctions : String → Option SemanticType
  boundAfterFunctions : String → Option SemanticType
  directSignature : Declaration → List DirectFunctionParamSite

variable (sources : CallableSources)

def resolveDecoratedFunctionCallable (name : String) : Option SemanticType :=
  (resolveFunctionProviderWithNode nodes node name).bind fun (functionNode, function) =>
    sources.decoratedCallable functionNode function

def resolveDirectCallableReturnSemanticType (name : String) : Option SemanticType :=
  match resolveDecoratedFunctionCallable nodes node sources name with
  | some callable => callable.callableParts.map Prod.snd
  | none =>
    match resolveFunctionProviderWithNode nodes node name with
    | some (_, function) => declaredResult function
    | none => sources.otherCallableReturn name

/-- The types of the parameters, of all kinds in one list, and of the result. A call of the
function on the same line is asked for the result first. -/
def namedCallableSignature (line : Nat) (name : String) :
    Option (List SemanticType × SemanticType) :=
  match resolveDecoratedFunctionCallable nodes node sources name with
  | some callable =>
    match callable.callableParts with
    | some (.paramList params, returnType) => some (params, returnType)
    | _ => none
  | none => do
    let (_, function) ← resolveFunctionProviderWithNode nodes node name
    let params := ((declarationSemanticSignatureParams function).getD []).map
      SemanticCallableParam.annotationOrDynamic
    let returnType ← (sources.returnOfCallOnLine name line).or
      (resolveDirectCallableReturnSemanticType nodes node sources name)
    return (params, returnType)

def resolveCallableAssignmentSemanticSignature (value : AssignedValue) :
    Option (List SemanticType × SemanticType) :=
  if value.hasLambda then sources.lambdaSignature value
  else
    match value.valueName with
    | some name => namedCallableSignature nodes node sources value.line name
    | none => value.valueMember.bind fun _ => sources.memberSignature value

/-- The two types that an assignment to a `Callable` compares. -/
def callableAssignmentTypes (value : AssignedValue) (expected : String) :
    Option (SemanticType × SemanticType) := do
  let (expectedParams, expectedReturn) ← parseCallableAnnotation expected
  let (actualParams, actualReturn) ←
    resolveCallableAssignmentSemanticSignature nodes node sources value
  let params : SemanticCallableParams :=
    match expectedParams with
    | some params => .paramList (params.map lowerTypeTextOrName)
    | none => .ellipsis
  return (.callable params (lowerTypeTextOrName expectedReturn),
    .callable (.paramList actualParams) actualReturn)

/-- The type of the name of a function. -/
def functionReferenceSemanticType (name : String) : Option SemanticType := do
  let (_, function) ← resolveFunctionProviderWithNode nodes node name
  match resolveDecoratedFunctionCallable nodes node sources name with
  | some callable => return callable
  | none =>
    let params :=
      match declarationSemanticSignatureParams function with
      | some params => params.map SemanticCallableParam.annotationOrDynamic
      | none => (sources.directSignature function).map paramAnnotationSemanticType
    return .callable (.paramList params)
      (← resolveDirectCallableReturnSemanticType nodes node sources name)

def resolveUnnarrowedNameReferenceSemanticType (name : String) : Option SemanticType :=
  match sources.boundBeforeFunctions name with
  | some ty => some ty
  | none =>
    if (resolveFunctionProviderWithNode nodes node name).isSome then
      functionReferenceSemanticType nodes node sources name
    else sources.boundAfterFunctions name

end

/-! ## Callables are compared by their parts -/

section

variable (nodes : List ModuleNode) (options : AssignabilityOptions) (node : ModuleNode)

/-- A type as the relation reads it inside another one. -/
def readType (ty : SemanticType) : SemanticType :=
  if options.taint then ty else eraseTaintQualifiers ty

/-- Assignability of two types that stand inside others. -/
def AcceptsInside (expected actual : SemanticType) : Prop :=
  Accepts nodes options node (readType options expected) (readType options actual)

theorem normalizedArgs_eq_map (args : List SemanticType) :
    normalizedArgs options args = args.map (readType options) := by
  unfold normalizedArgs readType
  cases options.taint with
  | true => simp
  | false =>
    simp only [Bool.false_eq_true, if_false]
    induction args with
    | nil => rfl
    | cons arg rest ih => rw [eraseTaintFromAll, ih, List.map_cons]

theorem normalize_callable (params : List SemanticType) (returnType : SemanticType) :
    normalizeTypeForAssignabilityOptions options (.callable (.paramList params) returnType)
      = .callable (.paramList (normalizedArgs options params)) (readType options returnType) := by
  unfold normalizeTypeForAssignabilityOptions normalizedArgs readType
  cases options.taint with
  | true => rfl
  | false =>
    show eraseTaintQualifiers (.callable (.paramList params) returnType) = _
    rw [eraseTaintQualifiers, eraseTaintQualifiersFromCallableParams]
    rfl

theorem decidedAtOnce_callables (expectedParams actualParams : SemanticCallableParams)
    (expectedReturn actualReturn : SemanticType) :
    decidedAtOnce options (.callable expectedParams expectedReturn)
        (.callable actualParams actualReturn)
      = if SemanticType.callable expectedParams expectedReturn
          = .callable actualParams actualReturn then some true else none := by
  simp [decidedAtOnce, isUnknownSemanticType, isDynamicSemanticType, isObjectSemanticType,
    isAnySemanticType, isTopReceivingSemanticType, isTopEscapingSemanticType, semanticTypeIsNone,
    SemanticType.stripAnnotated]

variable {nodes options node}

theorem expandAliasOnce_callable (params : SemanticCallableParams) (returnType : SemanticType)
    (expanded : Option SemanticType) :
    Answers (Question.body nodes options) (.expandAliasOnce node (.callable params returnType))
        expanded
      ↔ expanded = none := by
  rw [answers_iff]
  show (expandSemanticTypeAliasOnce nodes node (.callable params returnType)).Yields _ expanded ↔ _
  simp [expandSemanticTypeAliasOnce, aliasHead, SemanticType.stripAnnotated]

/-- Parameters are compared the other way round. -/
theorem callableParamsAssignable_yields {expected actual : List SemanticType}
    (hlength : expected.length = actual.length) :
    (callableParamsAssignable node expected actual).Yields
        (Answers (Question.body nodes options)) true
      ↔ List.Forall₂ (fun expected actual => Accepts nodes options node actual expected) expected
        actual := by
  unfold callableParamsAssignable callableParamSemanticAssignable
  rw [Prog.yields_all_true, List.forall₂_iff_zip]
  constructor
  · intro h
    refine ⟨hlength, fun {expected actual} hmem => ?_⟩
    exact (Prog.yields_query _ _).1 (h (expected, actual) hmem)
  · rintro ⟨-, h⟩ ⟨expected, actual⟩ hmem
    exact (Prog.yields_query _ _).2 (h hmem)

/-- One callable accepts another if its result accepts the other's and its parameters are accepted
by the other's, one by one. -/
theorem accepts_callables_iff (expected actual : List SemanticType)
    (expectedReturn actualReturn : SemanticType) :
    Accepts nodes options node (.callable (.paramList expected) expectedReturn)
        (.callable (.paramList actual) actualReturn)
      ↔ AcceptsInside nodes options node expectedReturn actualReturn
        ∧ List.Forall₂ (fun expected actual => AcceptsInside nodes options node actual expected)
          expected actual := by
  have hforall : List.Forall₂ (fun expected actual => AcceptsInside nodes options node actual
        expected) expected actual
      ↔ List.Forall₂ (fun expected actual => Accepts nodes options node actual expected)
        (normalizedArgs options expected) (normalizedArgs options actual) := by
    rw [normalizedArgs_eq_map, normalizedArgs_eq_map, List.forall₂_map_left_iff,
      List.forall₂_map_right_iff]
    rfl
  rw [hforall]
  unfold AcceptsInside Accepts IsAssignable
  rw [answers_iff]
  show (directSemanticTypeIsAssignable nodes options node
    (.callable (.paramList expected) expectedReturn)
    (.callable (.paramList actual) actualReturn) []).Yields _ true ↔ _
  unfold directSemanticTypeIsAssignable
  simp only [normalize_callable, decidedAtOnce_callables]
  generalize normalizedArgs options expected = expected
  generalize normalizedArgs options actual = actual
  generalize readType options expectedReturn = expectedReturn
  generalize readType options actualReturn = actualReturn
  by_cases heq : SemanticType.callable (.paramList expected) expectedReturn
      = .callable (.paramList actual) actualReturn
  · -- equal types have equal parts
    rw [if_pos heq]
    injection heq with hparams hreturn
    injection hparams with hparams
    subst hparams hreturn
    refine iff_of_true rfl ⟨accepts_refl _, ?_⟩
    exact List.forall₂_same.2 fun ty _ => accepts_refl ty
  rw [if_neg heq]
  have htainted : taintQualifiedAssignability nodes node
      (.callable (.paramList expected) expectedReturn)
      (.callable (.paramList actual) actualReturn) = pure none := by
    simp [taintQualifiedAssignability, semanticTaintedParts, SemanticType.genericParts,
      SemanticType.stripAnnotated]
  rw [htainted, ite_self, Prog.yields_bind]
  simp only [Prog.yields_pure, exists_eq_left, searchAssignable, List.not_mem_nil, if_false,
    Prog.yields_bind, Search.expandAliasOnce, Prog.yields_query, expandAliasOnce_callable,
    structurallyAssignable, semanticUnionBranches, SemanticType.callableParts,
    SemanticType.stripAnnotated, callableSemanticAnnotationAssignable, Search.isAssignable]
  constructor
  · rintro ⟨result, ⟨returnFits, hreturn, hresult⟩, htrue⟩
    cases returnFits with
    | false =>
      rw [hresult] at htrue
      cases htrue
    | true =>
      refine ⟨hreturn, ?_⟩
      simp only [if_true, callableStructuralParamsAssignable] at hresult
      split at hresult
      · rw [hresult] at htrue
        cases htrue
      · next hlength =>
          rcases (Prog.yields_bind _ _ _).1 hresult with ⟨paramsFit, hparams, rfl⟩
          rw [show paramsFit = true from htrue.symm] at hparams
          exact (callableParamsAssignable_yields (not_not.1 hlength)).1 hparams
  · rintro ⟨hreturn, hparams⟩
    refine ⟨some true, ⟨true, hreturn, ?_⟩, rfl⟩
    have hlength := hparams.length_eq
    simp only [if_true, callableStructuralParamsAssignable]
    rw [if_neg (not_not.2 hlength)]
    exact (Prog.yields_bind _ _ _).2
      ⟨true, (callableParamsAssignable_yields hlength).2 hparams, rfl⟩

end

/-! ## Calls with one argument for each parameter -/

section

variable {params : List SemanticCallableParam}

theorem bindArguments_positional {A : Type} {args : List A} {bound : List (Bound A)} :
    bindArguments params args [] = some bound
      ↔ (args.length ≤ (positionalParams params).length
          ∨ (params.find? SemanticCallableParam.variadic).isSome = true)
        ∧ bound = positionalPairs (params.find? SemanticCallableParam.variadic)
          (positionalParams params) args
        ∧ ∀ param ∈ params, param.hasDefault = true ∨ param.isVariadic = true
          ∨ ∃ pair ∈ bound, pair.2 = param := by
  unfold bindArguments
  rw [bindPositional_eq]
  by_cases hroom : args.length ≤ (positionalParams params).length
      ∨ (params.find? SemanticCallableParam.variadic).isSome = true
  · rw [if_pos hroom]
    simp only [Option.bind_eq_bind, Option.bind_some, List.mapM_nil, Option.pure_def,
      List.append_nil, Option.ite_none_right_eq_some, Option.some.injEq, List.all_eq_true,
      Bool.or_eq_true, List.any_eq_true, decide_eq_true_eq, or_assoc]
    constructor
    · rintro ⟨hcomplete, rfl⟩
      exact ⟨hroom, rfl, hcomplete⟩
    · rintro ⟨-, rfl, hcomplete⟩
      exact ⟨hcomplete, rfl⟩
  · rw [if_neg hroom]
    exact iff_of_false (by simp) fun h => hroom h.1

/-- The first parameter that is not positional is `*args`, if there is one. -/
theorem first_rest_variadic (hvalid : ParamsAccepted params) {first args : SemanticCallableParam}
    {rest : List SemanticCallableParam}
    (hrest : params.filter (fun param => !param.isPositional) = first :: rest)
    (hargs : params.find? SemanticCallableParam.variadic = some args) : first = args := by
  have hsplit := params_split hvalid
  rw [hrest] at hsplit
  have hfirst : first ∈ params := by
    rw [← hsplit]
    exact List.mem_append_right _ List.mem_cons_self
  have hnot : first.isPositional = false := by
    have hmem : first ∈ params.filter fun param => !param.isPositional := by
      rw [hrest]
      exact List.mem_cons_self
    simpa using (List.mem_filter.1 hmem).2
  have hpositional : ∀ param ∈ positionalParams params, ¬ param.variadic = true := by
    intro param hparam hvariadic
    have htest := (List.mem_filter.1 hparam).2
    simp [SemanticCallableParam.isPositional, hvariadic] at htest
  have hvariadic : args.variadic = true := List.find?_some hargs
  have hmem : args ∈ first :: rest := by
    have hmem := List.mem_of_find?_eq_some hargs
    rw [← hsplit] at hmem
    rcases List.mem_append.1 hmem with hmem | hmem
    · exact absurd hvariadic (hpositional args hmem)
    · exact hmem
  have hrank : first.rank ≤ args.rank := by
    rcases List.mem_cons.1 hmem with rfl | hmem
    · exact Nat.le_refl _
    · have horder := hvalid.order
      rw [← hsplit, List.pairwise_append, List.pairwise_cons] at horder
      exact (horder.2.1.1 args hmem).1
  -- only `*args` comes after the positional parameters and not after `*args`
  have hfound : first.variadic = true := by
    have hkind := hvalid.oneKind first hfirst
    have hkind' := hvalid.oneKind args (List.mem_of_find?_eq_some hargs)
    revert hkind hkind' hnot hrank
    simp only [SemanticCallableParam.isPositional, SemanticCallableParam.rank, hvariadic]
    cases first.positionalOnly <;> cases first.variadic <;> cases first.keywordOnly <;>
      cases first.keywordVariadic <;> cases args.positionalOnly <;> simp
  rw [← hsplit, List.find?_append, List.find?_eq_none.2 hpositional, Option.none_or,
    List.find?_cons_of_pos hfound] at hargs
  exact Option.some.inj hargs

section

variable {A : Type} {args : List A} {Fits : A → SemanticCallableParam → Prop}
  (hfits : List.Forall₂ Fits args params)

include hfits

theorem positionalParams_length_le : (positionalParams params).length ≤ args.length := by
  rw [hfits.length_eq]
  exact List.length_filter_le _ _

theorem placed_reached : ∀ param ∈ positionalParams params,
    ∃ pair ∈ positionalPairs (params.find? SemanticCallableParam.variadic)
      (positionalParams params) args, pair.2 = param := by
  intro param hparam
  rw [← List.take_of_length_le (positionalParams_length_le hfits)] at hparam
  rcases mem_zip_params.2 hparam with ⟨arg, hmem⟩
  exact ⟨(arg, param), List.mem_append_left _ hmem, rfl⟩

variable (hvalid : ParamsAccepted params)

include hvalid

/-- The arguments of the positional parameters stand in the same places. -/
theorem placed_fits : ∀ pair ∈ args.zip (positionalParams params), Fits pair.1 pair.2 := by
  intro pair hpair
  have hle := positionalParams_length_le hfits
  rw [← params_split hvalid] at hfits
  rw [List.zip_eq_zip_take_min, Nat.min_eq_right hle, List.take_length] at hpair
  exact (List.forall₂_iff_zip.1 (List.forall₂_take_append _ _ _ hfits)).2 hpair

/-- One argument for each parameter, of whatever kind, binds and fits, if each argument fits the
parameter in its place, exactly when all parameters are positional, or `*args` takes the arguments
in the places of the others and these have defaults. -/
theorem binds_each_iff :
    (∃ bound, bindArguments params args [] = some bound ∧ ∀ pair ∈ bound, Fits pair.1 pair.2)
      ↔ (∀ param ∈ params, param.isPositional = true)
        ∨ ∃ variadic, params.find? SemanticCallableParam.variadic = some variadic
          ∧ (∀ param ∈ params, param.keywordOnly = true → param.hasDefault = true)
          ∧ ∀ arg ∈ args.drop ((positionalParams params).length + 1), Fits arg variadic := by
  have hsplit := params_split hvalid
  have hlength := hfits.length_eq
  have hzip := placed_fits hfits hvalid
  have hreached := placed_reached hfits
  rw [← hsplit] at hfits
  have hrest := List.forall₂_drop_append _ _ _ hfits
  simp only [bindArguments_positional]
  -- the cases are whether anything comes after the positional parameters
  cases hothers : params.filter (fun param => !param.isPositional) with
  | nil =>
    rw [hothers, List.append_nil] at hsplit
    have hall : ∀ param ∈ params, param.isPositional = true := by
      intro param hparam
      rw [← hsplit] at hparam
      exact (List.mem_filter.1 hparam).2
    have hroom : args.length ≤ (positionalParams params).length := by
      rw [hsplit]
      exact Nat.le_of_eq hlength
    refine iff_of_true ⟨_, ⟨.inl hroom, rfl, ?_⟩, ?_⟩ (.inl hall)
    · intro param hparam
      exact .inr (.inr (hreached param (hsplit.symm ▸ hparam)))
    · intro pair hpair
      rcases mem_positionalPairs hpair with hmem | ⟨hmem, -⟩
      · exact hzip pair hmem
      · rw [List.drop_of_length_le hroom] at hmem
        exact absurd hmem List.not_mem_nil
  | cons first others =>
    rw [hothers] at hrest
    have hnot : ¬ ∀ param ∈ params, param.isPositional = true := by
      intro hall
      have hmem : first ∈ params.filter fun param => !param.isPositional := by
        rw [hothers]
        exact List.mem_cons_self
      have ⟨hparam, htest⟩ := List.mem_filter.1 hmem
      rw [hall first hparam] at htest
      cases htest
    cases hdrop : args.drop (positionalParams params).length with
    | nil =>
      rw [hdrop] at hrest
      cases hrest
    | cons arg extras =>
      rw [hdrop, List.forall₂_cons] at hrest
      have hextras : args.drop ((positionalParams params).length + 1) = extras := by
        rw [← List.drop_drop, hdrop, List.drop_one, List.tail_cons]
      rw [hextras]
      constructor
      · rintro ⟨bound, ⟨hroom, rfl, hcomplete⟩, hbound⟩
        have hvariadic : (params.find? SemanticCallableParam.variadic).isSome = true := by
          rcases hroom with hroom | hroom
          · rw [List.drop_of_length_le hroom] at hdrop
            cases hdrop
          · exact hroom
        rcases Option.isSome_iff_exists.1 hvariadic with ⟨variadic, hvariadic⟩
        refine .inr ⟨variadic, hvariadic, ?_, ?_⟩
        · intro param hparam hkeyword
          have ⟨_, hunplaced, hplain⟩ := (kind_of_param hvalid hparam).1 hkeyword
          rcases hcomplete param hparam with hdefault | hmany | ⟨pair, hpair, rfl⟩
          · exact hdefault
          · rw [hplain] at hmany
            cases hmany
          · -- positional arguments do not reach it
            rcases mem_positionalPairs hpair with hmem | ⟨-, hmany⟩
            · have htest := (List.mem_filter.1 (List.of_mem_zip hmem).2).2
              rw [hunplaced] at htest
              cases htest
            · have htest := List.find?_some hmany
              simp [SemanticCallableParam.isVariadic, htest] at hplain
        · intro extra hextra
          refine hbound (extra, variadic) (List.mem_append_right _ ?_)
          rw [hdrop, hvariadic]
          simp [hextra]
      · rintro (hall | ⟨variadic, hvariadic, hdefaults, hextra⟩)
        · exact absurd hall hnot
        refine ⟨_, ⟨.inr (by rw [hvariadic]; rfl), rfl, ?_⟩, ?_⟩
        · intro param hparam
          cases hmany : param.isVariadic with
          | true => exact .inr (.inl rfl)
          | false =>
            cases hkeyword : param.keywordOnly with
            | true => exact .inl (hdefaults param hparam hkeyword)
            | false =>
              have hplace := (kind_of_param hvalid hparam).2 hmany hkeyword
              exact .inr (.inr (hreached param (List.mem_filter.2 ⟨hparam, hplace.1⟩)))
        · intro pair hpair
          rcases mem_positionalPairs hpair with hmem | ⟨hmem, hmany⟩
          · exact hzip pair hmem
          · rw [hvariadic] at hmany
            rw [hdrop] at hmem
            rw [← Option.some.inj hmany]
            rcases List.mem_cons.1 hmem with heq | hmem
            · rw [heq, ← first_rest_variadic hvalid hothers hvariadic]
              exact hrest.1
            · exact hextra _ hmem

end

end

/-! ## Accepted functions -/

section

variable (nodes : List ModuleNode) (options : AssignabilityOptions) (node : ModuleNode)
  (sources : CallableSources)

/-- `callable_assignment_result` reports no mismatch. -/
def CallableAssignmentMatches (value : AssignedValue) (expected : String) : Prop :=
  ∃ expectedCallable actualCallable,
    callableAssignmentTypes nodes node sources value expected
      = some (expectedCallable, actualCallable)
    ∧ Accepts nodes options node expectedCallable actualCallable

/-- A function that no decorator changes, with its parameters and its result. -/
structure PlainFunction (name : String) (params : List SemanticCallableParam)
    (result : SemanticType) : Prop where
  undecorated : resolveDecoratedFunctionCallable nodes node sources name = none
  declared : ∃ provider function,
    resolveFunctionProviderWithNode nodes node name = some (provider, function)
      ∧ declarationSemanticSignatureParams function = some params
      ∧ declaredResult function = some result
  valid : ParamsAccepted params

/-- How a function comes to stand for a callable: it is assigned to an annotated name, or the type
of its name is used. -/
inductive Acceptance where
  | assignment (value : AssignedValue) (expected : String)
  | reference

/-- The function is accepted as `Callable[types, returnType]`. -/
def Accepted (name : String) (types : List SemanticType) (returnType : SemanticType) :
    Acceptance → Prop
  | .assignment value expected =>
    value.hasLambda = false ∧ value.valueName = some name
      ∧ (∃ texts returnText, parseCallableAnnotation expected = some (some texts, returnText)
        ∧ types = texts.map lowerTypeTextOrName ∧ returnType = lowerTypeTextOrName returnText)
      ∧ CallableAssignmentMatches nodes options node sources value expected
  | .reference =>
    sources.boundBeforeFunctions name = none
      ∧ ∃ actual, resolveUnnarrowedNameReferenceSemanticType nodes node sources name = some actual
        ∧ Accepts nodes options node (.callable (.paramList types) returnType) actual

/-- What a call of the function on the line of the assignment gives. -/
def Acceptance.resultOnLine (name : String) : Acceptance → Option SemanticType
  | .assignment value _ => sources.returnOfCallOnLine name value.line
  | .reference => none

/-- Python binds positional arguments of these types, each of them is assignable to the annotation
of the parameter it is bound to, and so is the result to the type that is expected. -/
structure CallableAt (params : List SemanticCallableParam) (result : SemanticType)
    (types : List SemanticType) (returnType : SemanticType) : Prop where
  binds : ∃ bound, bindArguments params types [] = some bound
    ∧ ∀ pair ∈ bound, AcceptsInside nodes options node pair.2.annotationOrDynamic pair.1
  returns : AcceptsInside nodes options node returnType result

/-- All parameters are positional; or `*args` takes the types in the places of the others, and the
keyword-only parameters have defaults. -/
def KindsServe (params : List SemanticCallableParam) (types : List SemanticType) : Prop :=
  (∀ param ∈ params, param.isPositional = true)
    ∨ ∃ args, params.find? SemanticCallableParam.variadic = some args
      ∧ (∀ param ∈ params, param.keywordOnly = true → param.hasDefault = true)
      ∧ ∀ ty ∈ types.drop ((positionalParams params).length + 1),
        AcceptsInside nodes options node args.annotationOrDynamic ty

/-- No call on the line gives anything else than the function is declared to, or the declared
result is accepted as well. -/
def ResultServes (name : String) (result returnType : SemanticType) (acceptance : Acceptance) :
    Prop :=
  (acceptance.resultOnLine sources name).getD result = result
    ∨ AcceptsInside nodes options node returnType result

variable {nodes options node sources} {name : String} {params : List SemanticCallableParam}
  {result : SemanticType} {types : List SemanticType} {returnType : SemanticType}

theorem PlainFunction.returnType_eq (hfunction : PlainFunction nodes node sources name params result) :
    resolveDirectCallableReturnSemanticType nodes node sources name = some result := by
  rcases hfunction.declared with ⟨provider, function, hprovider, -, hresult⟩
  unfold resolveDirectCallableReturnSemanticType
  rw [hfunction.undecorated, hprovider]
  exact hresult

theorem PlainFunction.namedCallableSignature_eq
    (hfunction : PlainFunction nodes node sources name params result) (line : Nat) :
    namedCallableSignature nodes node sources line name
      = some (params.map SemanticCallableParam.annotationOrDynamic,
        (sources.returnOfCallOnLine name line).getD result) := by
  have hreturn := hfunction.returnType_eq
  rcases hfunction.declared with ⟨provider, function, hprovider, hparams, -⟩
  unfold namedCallableSignature
  rw [hfunction.undecorated, hprovider, hreturn]
  simp only [hparams, Option.bind_eq_bind, Option.bind_some, Option.getD_some, Option.pure_def]
  cases sources.returnOfCallOnLine name line with
  | none => rfl
  | some seen => rfl

theorem PlainFunction.reference_eq (hfunction : PlainFunction nodes node sources name params result)
    (hbefore : sources.boundBeforeFunctions name = none) :
    resolveUnnarrowedNameReferenceSemanticType nodes node sources name
      = some (.callable (.paramList (params.map SemanticCallableParam.annotationOrDynamic))
        result) := by
  have hreturn := hfunction.returnType_eq
  rcases hfunction.declared with ⟨provider, function, hprovider, hparams, -⟩
  unfold resolveUnnarrowedNameReferenceSemanticType functionReferenceSemanticType
  rw [hbefore, hprovider, hfunction.undecorated, hreturn]
  simp only [hparams, Option.isSome_some, if_true, Option.bind_eq_bind, Option.bind_some,
    Option.pure_def]

/-- Both ways compare the types in order with the parameters of all kinds. -/
theorem Accepted.parts (hfunction : PlainFunction nodes node sources name params result)
    {acceptance : Acceptance}
    (haccepted : Accepted nodes options node sources name types returnType acceptance) :
    AcceptsInside nodes options node returnType
        ((acceptance.resultOnLine sources name).getD result)
      ∧ List.Forall₂ (fun ty param =>
          AcceptsInside nodes options node param.annotationOrDynamic ty) types params := by
  cases acceptance with
  | assignment value expected =>
    rcases haccepted with ⟨hlambda, hname, ⟨texts, returnText, hparse, rfl, rfl⟩,
      expectedCallable, actualCallable, hcallables, haccepts⟩
    have hsignature : resolveCallableAssignmentSemanticSignature nodes node sources value
        = some (params.map SemanticCallableParam.annotationOrDynamic,
          (sources.returnOfCallOnLine name value.line).getD result) := by
      unfold resolveCallableAssignmentSemanticSignature
      simp only [hlambda, hname, Bool.false_eq_true, if_false]
      exact hfunction.namedCallableSignature_eq value.line
    unfold callableAssignmentTypes at hcallables
    simp only [hparse, hsignature, Option.bind_eq_bind, Option.bind_some, Option.pure_def,
      Option.some.injEq, Prod.mk.injEq] at hcallables
    rcases hcallables with ⟨rfl, rfl⟩
    have ⟨hreturn, hparams⟩ := (accepts_callables_iff _ _ _ _).1 haccepts
    exact ⟨hreturn, List.forall₂_map_right_iff.1 hparams⟩
  | reference =>
    rcases haccepted with ⟨hbefore, actual, hactual, haccepts⟩
    rw [hfunction.reference_eq hbefore] at hactual
    rw [← Option.some.inj hactual] at haccepts
    have ⟨hreturn, hparams⟩ := (accepts_callables_iff _ _ _ _).1 haccepts
    exact ⟨hreturn, List.forall₂_map_right_iff.1 hparams⟩

/-- A function that is accepted at a callable type can be called that way exactly when its kinds of
parameters and its result serve. -/
theorem acceptedFunction_callable_iff
    (hfunction : PlainFunction nodes node sources name params result) {acceptance : Acceptance}
    (haccepted : Accepted nodes options node sources name types returnType acceptance) :
    CallableAt nodes options node params result types returnType
      ↔ KindsServe nodes options node params types
        ∧ ResultServes nodes options node sources name result returnType acceptance := by
  have ⟨hreturn, hparams⟩ := haccepted.parts hfunction
  have hbinds := binds_each_iff hparams hfunction.valid
  constructor
  · intro hcallable
    exact ⟨hbinds.1 hcallable.binds, .inr hcallable.returns⟩
  · rintro ⟨hkinds, hresult⟩
    refine ⟨hbinds.2 hkinds, ?_⟩
    rcases hresult with heq | hresult
    · rwa [heq] at hreturn
    · exact hresult

end

/-! ## Two functions -/

section

def intParam (name : String) : DirectFunctionParamSite where
  name := name
  annotationExpr := some (.name "int")

def intFunction (name : String) (params : List DirectFunctionParamSite) : Declaration where
  name := name
  kind := .function
  metadata := .callable ⟨params, some ⟨.name "int"⟩⟩

/-- `def double(x: int) -> int` and `def add(a: int, *, b: int = 0) -> int`. -/
def functionsModule : ModuleNode where
  moduleKey := "app"
  declarations :=
    [intFunction "double" [intParam "x"],
      intFunction "add" [intParam "a", { intParam "b" with hasDefault := true, keywordOnly := true }]]

/-- Nothing but the functions of the module. -/
def noOtherSources : CallableSources where
  lambdaSignature _ := none
  memberSignature _ := none
  decoratedCallable _ _ := none
  returnOfCallOnLine _ _ := none
  otherCallableReturn _ := none
  boundBeforeFunctions _ := none
  boundAfterFunctions _ := none
  directSignature _ := []

def intParamType (name : String) : SemanticCallableParam :=
  semanticCallableParam (intParam name)

theorem double_plain : PlainFunction [functionsModule] functionsModule noOtherSources "double"
    [intParamType "x"] (.name "int") where
  undecorated := rfl
  declared := ⟨functionsModule, intFunction "double" [intParam "x"], rfl, rfl, rfl⟩
  valid := ⟨by decide, by decide, by decide, by decide⟩

/-- `x: Callable[[int], int] = double` -/
theorem double_callable :
    CallableAt [functionsModule] {} functionsModule [intParamType "x"] (.name "int")
      [.name "int"] (.name "int") := by
  have haccepted : Accepted [functionsModule] {} functionsModule noOtherSources "double"
      [.name "int"] (.name "int")
      (.assignment { valueName := some "double", line := 1 } "Callable[[int], int]") := by
    refine ⟨rfl, rfl, ⟨["int"], "int", by decide +kernel, by decide +kernel, by decide +kernel⟩,
      .callable (.paramList [.name "int"]) (.name "int"),
      .callable (.paramList [.name "int"]) (.name "int"), by decide +kernel, accepts_refl _⟩
  refine (acceptedFunction_callable_iff double_plain haccepted).2 ⟨.inl (by decide), .inl rfl⟩

def addParams : List SemanticCallableParam :=
  [intParamType "a", { intParamType "b" with hasDefault := true, keywordOnly := true }]

/-- `y: Callable[[int, int], int] = add` -/
theorem add_not_callable :
    PlainFunction [functionsModule] functionsModule noOtherSources "add" addParams (.name "int")
      ∧ Accepted [functionsModule] {} functionsModule noOtherSources "add"
        [.name "int", .name "int"] (.name "int")
        (.assignment { valueName := some "add", line := 2 } "Callable[[int, int], int]")
      ∧ ¬CallableAt [functionsModule] {} functionsModule addParams (.name "int")
        [.name "int", .name "int"] (.name "int") := by
  refine ⟨⟨rfl, ⟨functionsModule, _, rfl, rfl, rfl⟩, ?_⟩, ?_, ?_⟩
  · exact ⟨by decide, by decide, by decide, by decide⟩
  · refine ⟨rfl, rfl, ⟨["int", "int"], "int", by decide +kernel, by decide +kernel,
      by decide +kernel⟩, .callable (.paramList [.name "int", .name "int"]) (.name "int"),
      .callable (.paramList [.name "int", .name "int"]) (.name "int"), by decide +kernel,
      accepts_refl _⟩
  · -- the second argument has no parameter to go to
    intro hcallable
    rcases hcallable.binds with ⟨bound, hbound, -⟩
    have hnone : bindArguments addParams [SemanticType.name "int", .name "int"] [] = none := by
      decide
    rw [hnone] at hbound
    cases hbound

end

end TypePython.Checking
