import TypePython.Checking.ReportedArguments

/-!
# Diagnostics of a call and its applicability

Whether a call is reported exactly if the signature does not apply to it. Both read the same
parameters, and differ in arguments that starred expressions give, in arguments behind the
positional parameters, and in names of parameters that cannot be given by name
(`diagnosticsAgree_iff`).
-/

namespace TypePython.Checking

open TypePython.Lib
open TypePython.Syntax
open TypePython.Binding

/-! ## What the two ask of an argument -/

section Verdicts

variable (isAssignable typeMatches : SemanticType → SemanticType → Bool)
  (params : List SemanticCallableParam)

/-- No positional-only parameter has the name, and some parameter takes it. -/
def nameIsReportedFine (name : String) : Bool :=
  match params.find? fun param => param.name = name with
  | some param => !param.positionalOnly
  | none => acceptsExtraKeywords params

variable (count : Nat)

def isGivenByPosition (name : String) : Bool :=
  (((positionalParams params).map SemanticCallableParam.name).take count).contains name

/-- Nothing is reported about a keyword. -/
def keywordIsReportedFine (keyword : String × Option SemanticType) : Bool :=
  nameIsReportedFine params keyword.1 && !isGivenByPosition params count keyword.1
    && argFits isAssignable keyword.2 (namedParamType params keyword.1)

variable (keywordNames : List String)

/-- Nothing is reported about a key of a typed dictionary. -/
def fieldIsReportedFine (field : String × TypedDictFieldShape) : Bool :=
  !(keywordNames.contains field.1 || isGivenByPosition params count field.1)
    && (match params.find? fun param => param.name = field.1 with
      | some param => !param.positionalOnly && (field.2.required || param.hasDefault)
      | none => acceptsExtraKeywords params)
    && argFits isAssignable field.2.semanticValueType (namedParamType params field.1)

def expansionIsReportedFine : KeywordExpansion → Bool
  | .typedDict shape =>
    shape.fields.all (fieldIsReportedFine isAssignable params count keywordNames)
      && (!shape.hasUnboundedExtraKeys || acceptsExtraKeywords params)
      && (shape.extraItems.all fun extra => acceptsExtraKeywords params
        && argFits isAssignable extra.semanticValueType (keywordVariadicType params))
  | .mapping valueType =>
    acceptsExtraKeywords params
      && argFits isAssignable (some valueType) (keywordVariadicType params)

/-- The signature is not ruled out by an expansion. -/
def expansionPasses (expansion : KeywordExpansion) : Bool :=
  !expansionIsUnexpected params expansion && !expansionDuplicates params keywordNames count expansion
    && keywordExpansionOk typeMatches params expansion

/-- The elements of a starred argument of unknown length go to `*args`. -/
def starredPasses (elementType : SemanticType) : Bool :=
  ((variadicType params).map fun paramType => typeMatches paramType elementType).getD false

def starredIsReportedFine (elementType : SemanticType) : Bool :=
  argFits isAssignable (some elementType) (variadicType params)

end Verdicts

/-! ## The call -/

section Calls

variable (isAssignable typeMatches : SemanticType → SemanticType → Bool) {Arg : Type}
  (types : ArgumentTypes Arg) (call : CallArguments Arg) (params : List SemanticCallableParam)

/-- A positional argument has the type of its positional parameter. -/
def PlacedFit : Prop :=
  ∀ pair ∈ (positionalTypes types call params).zip (positionalParams params),
    argFits isAssignable pair.1 pair.2.paramType = true

/-- There are not too many positional arguments. -/
def HasRoom : Prop :=
  params.any SemanticCallableParam.variadic = true
    ∨ ((positionalTypes types call params).length ≤ (positionalParams params).length
      ∧ variadicStarredTypes types call = [])

/-- No argument is missing. -/
def NothingMissing : Prop :=
  ∀ index param, params[index]? = some param →
    paramIsMissing call.keywordNames (keywordExpansions types call)
      (positionalTypes types call params).length index param = false

/-- Applicability has nothing against the arguments that have no place. -/
structure OthersPass : Prop where
  strays : ∀ argType ∈ strayPositional params (positionalTypes types call params),
    extraArgFits isAssignable (variadicType params) argType = true
  starred : ∀ elementType ∈ variadicStarredTypes types call,
    starredPasses typeMatches params elementType = true
  keywords : ∀ keyword ∈ typedKeywords types call params,
    keywordPasses isAssignable params call.argCount keyword = true
  expansions : ∀ expansion ∈ keywordExpansions types call,
    expansionPasses typeMatches params (positionalTypes types call params).length
      call.keywordNames expansion = true

/-- Nothing is reported about the arguments that have no place. -/
structure OthersReportedFine : Prop where
  strays : ∀ index argType,
    (strayPositional params (positionalTypes types call params))[index]? = some argType →
      argFits isAssignable argType (annotationBehind params index) = true
  starred : ∀ elementType ∈ variadicStarredTypes types call,
    starredIsReportedFine isAssignable params elementType = true
  keywords : ∀ keyword ∈ typedKeywords types call params,
    keywordIsReportedFine isAssignable params (positionalTypes types call params).length keyword
      = true
  expansions : ∀ expansion ∈ keywordExpansions types call,
    expansionIsReportedFine isAssignable params (positionalTypes types call params).length
      call.keywordNames expansion = true

/-- Each argument that has no place gets the same verdict from both. -/
structure OthersJudgedAlike : Prop where
  strays : ∀ index argType,
    (strayPositional params (positionalTypes types call params))[index]? = some argType →
      extraArgFits isAssignable (variadicType params) argType
        = argFits isAssignable argType (annotationBehind params index)
  starred : ∀ elementType ∈ variadicStarredTypes types call,
    starredPasses typeMatches params elementType
      = starredIsReportedFine isAssignable params elementType
  keywords : ∀ keyword ∈ typedKeywords types call params,
    keywordPasses isAssignable params call.argCount keyword
      = keywordIsReportedFine isAssignable params (positionalTypes types call params).length keyword
  expansions : ∀ expansion ∈ keywordExpansions types call,
    expansionPasses typeMatches params (positionalTypes types call params).length
        call.keywordNames expansion
      = expansionIsReportedFine isAssignable params (positionalTypes types call params).length
        call.keywordNames expansion

/-- Through a dotted name, starred arguments of unknown length are not reported for want of
`*args`, nor is a missing argument then. -/
def ArityIsExempt (callee : String) : Prop :=
  params.any SemanticCallableParam.variadic = false ∧ variadicStarredTypes types call ≠ []
    ∧ '.' ∈ callee.toList

variable {isAssignable typeMatches types call params}

theorem OthersJudgedAlike.iff (h : OthersJudgedAlike isAssignable typeMatches types call params) :
    OthersPass isAssignable typeMatches types call params
      ↔ OthersReportedFine isAssignable types call params := by
  constructor
  · intro hpass
    refine ⟨fun index argType hindex => ?_, fun elementType hmem => ?_, fun keyword hmem => ?_,
      fun expansion hmem => ?_⟩
    · rw [← h.strays index argType hindex]
      exact hpass.strays argType (List.mem_of_getElem? hindex)
    · rw [← h.starred elementType hmem]
      exact hpass.starred elementType hmem
    · rw [← h.keywords keyword hmem]
      exact hpass.keywords keyword hmem
    · rw [← h.expansions expansion hmem]
      exact hpass.expansions expansion hmem
  · intro hfine
    refine ⟨fun argType hmem => ?_, fun elementType hmem => ?_, fun keyword hmem => ?_,
      fun expansion hmem => ?_⟩
    · rcases List.mem_iff_getElem?.1 hmem with ⟨index, hindex⟩
      rw [h.strays index argType hindex]
      exact hfine.strays index argType hindex
    · rw [h.starred elementType hmem]
      exact hfine.starred elementType hmem
    · rw [h.keywords keyword hmem]
      exact hfine.keywords keyword hmem
    · rw [h.expansions expansion hmem]
      exact hfine.expansions expansion hmem

theorem othersJudgedAlike_of_both (hpass : OthersPass isAssignable typeMatches types call params)
    (hfine : OthersReportedFine isAssignable types call params) :
    OthersJudgedAlike isAssignable typeMatches types call params where
  strays index argType hindex := by
    rw [hpass.strays argType (List.mem_of_getElem? hindex), hfine.strays index argType hindex]
  starred elementType hmem := by
    rw [hpass.starred elementType hmem, hfine.starred elementType hmem]
  keywords keyword hmem := by rw [hpass.keywords keyword hmem, hfine.keywords keyword hmem]
  expansions expansion hmem := by
    rw [hpass.expansions expansion hmem, hfine.expansions expansion hmem]

/-! ## Applicability -/

theorem hasRoom_iff :
    (!params.any SemanticCallableParam.variadic
        && (decide ((positionalParams params).length < (positionalTypes types call params).length)
          || !(variadicStarredTypes types call).isEmpty)) = false
      ↔ HasRoom types call params := by
  unfold HasRoom
  cases params.any SemanticCallableParam.variadic with
  | true => simp
  | false =>
    simp only [Bool.not_false, Bool.true_and, Bool.or_eq_false_iff, decide_eq_false_iff_not,
      Nat.not_lt, Bool.not_eq_false', List.isEmpty_iff, Bool.false_eq_true, false_or]

theorem nothingMissing_iff :
    (params.mapIdx (paramIsMissing call.keywordNames (keywordExpansions types call)
        (positionalTypes types call params).length)).contains true = false
      ↔ NothingMissing types call params := by
  unfold NothingMissing
  rw [← Bool.not_eq_true, List.contains_iff_mem, List.mem_iff_getElem?]
  simp only [List.getElem?_mapIdx, not_exists, Option.map_eq_some_iff, not_and, Bool.not_eq_true]

theorem positionalOk_iff_starred (positional : List (Option SemanticType)) (starred : List SemanticType) :
    positionalOk isAssignable typeMatches params positional starred = true
      ↔ positionalOk isAssignable typeMatches params positional [] = true
        ∧ ∀ elementType ∈ starred, starredPasses typeMatches params elementType = true := by
  unfold positionalOk starredPasses
  simp only [List.all_nil, Bool.and_true, Bool.and_eq_true, List.all_eq_true, and_assoc]

/-- The check in parts. -/
theorem applicable_iff_parts (hvalid : ParamsAccepted params)
    (hcall : QuietCall types call params) :
    callSignatureParamsAreApplicable isAssignable typeMatches types call params = true
      ↔ HasRoom types call params ∧ NothingMissing types call params
        ∧ PlacedFit isAssignable types call params
        ∧ OthersPass isAssignable typeMatches types call params := by
  have hnamed : (call.keywordNames.any fun keyword =>
        !namesKeywordParam params keyword && !acceptsExtraKeywords params) = false
      ↔ ∀ keyword ∈ typedKeywords types call params,
        (namesKeywordParam params keyword.1 || acceptsExtraKeywords params) = true := by
    rw [← hcall.forall_keywordNames fun name =>
      (namesKeywordParam params name || acceptsExtraKeywords params) = true, List.any_eq_false]
    refine forall_congr' fun name => imp_congr_right fun _ => ?_
    cases namesKeywordParam params name <;> cases acceptsExtraKeywords params <;> decide
  have hfree : (call.keywordNames.any fun keyword => (((positionalParams params).map
        SemanticCallableParam.name).take call.argCount).contains keyword) = false
      ↔ ∀ keyword ∈ typedKeywords types call params, (((positionalParams params).map
        SemanticCallableParam.name).take call.argCount).contains keyword.1 = false := by
    rw [← hcall.forall_keywordNames fun name => (((positionalParams params).map
      SemanticCallableParam.name).take call.argCount).contains name = false]
    simp only [List.any_eq_false, Bool.not_eq_true]
  unfold callSignatureParamsAreApplicable keywordDuplicatesPositionalArguments keywordOk
  rw [hcall.quiet, hcall.quietKeywords]
  dsimp only
  simp only [Bool.false_eq_true, if_false]
  rw [guard_eq_true, guard_eq_true, guard_eq_true, guard_eq_true, guard_eq_true, guard_eq_true,
    hasRoom_iff, hnamed, hfree, nothingMissing_iff, Bool.and_eq_true, positionalOk_iff_starred,
    positionalOk_iff hvalid, Bool.and_eq_true, List.any_eq_false, List.any_eq_false,
    List.all_eq_true, List.all_eq_true]
  have hkeyword : ∀ keyword : String × Option SemanticType,
      keywordPasses isAssignable params call.argCount keyword = true
        ↔ ((namesKeywordParam params keyword.1 || acceptsExtraKeywords params) = true
          ∧ (((positionalParams params).map SemanticCallableParam.name).take
            call.argCount).contains keyword.1 = false)
          ∧ keywordArgOk isAssignable params keyword.1 keyword.2 = true := by
    intro keyword
    rw [keywordPasses, Bool.and_eq_true, Bool.and_eq_true, Bool.not_eq_true']
  have hexpansion : ∀ expansion : KeywordExpansion,
      expansionPasses typeMatches params (positionalTypes types call params).length
          call.keywordNames expansion = true
        ↔ (¬ expansionIsUnexpected params expansion = true
          ∧ ¬ expansionDuplicates params call.keywordNames
            (positionalTypes types call params).length expansion = true)
          ∧ keywordExpansionOk typeMatches params expansion = true := by
    intro expansion
    rw [expansionPasses, Bool.and_eq_true, Bool.and_eq_true, Bool.not_eq_true', Bool.not_eq_true',
      Bool.not_eq_true, Bool.not_eq_true]
  constructor
  · rintro ⟨hroom, hnames, hunexpected, hgiven, hduplicates, hmissing, ⟨⟨hplaced, hstrays⟩,
      hstarred⟩, hkeywords, hexpansions⟩
    refine ⟨hroom, hmissing, hplaced, hstrays, hstarred, ?_, ?_⟩
    · intro keyword hmem
      exact (hkeyword keyword).2 ⟨⟨hnames keyword hmem, hgiven keyword hmem⟩,
        hkeywords keyword hmem⟩
    · intro expansion hmem
      exact (hexpansion expansion).2 ⟨⟨hunexpected expansion hmem, hduplicates expansion hmem⟩,
        hexpansions expansion hmem⟩
  · rintro ⟨hroom, hmissing, hplaced, hpass⟩
    have hkeywords := fun keyword hmem => (hkeyword keyword).1 (hpass.keywords keyword hmem)
    have hexpansions := fun expansion hmem =>
      (hexpansion expansion).1 (hpass.expansions expansion hmem)
    exact ⟨hroom, fun keyword hmem => (hkeywords keyword hmem).1.1,
      fun expansion hmem => (hexpansions expansion hmem).1.1,
      fun keyword hmem => (hkeywords keyword hmem).1.2,
      fun expansion hmem => (hexpansions expansion hmem).1.2, hmissing,
      ⟨⟨hplaced, hpass.strays⟩, hpass.starred⟩, fun keyword hmem => (hkeywords keyword hmem).2,
      fun expansion hmem => (hexpansions expansion hmem).2⟩

end Calls

/-! ## Diagnostics of keywords -/

section Keywords

variable {isAssignable : SemanticType → SemanticType → Bool} {Arg : Type}
  {reported : ReportedTypes Arg} {call : CallArguments Arg}
  {signature : List DirectFunctionParamSite} {count : Nat}

theorem keywordDiagnostic_eq_none_iff (hsignature : PlainSignature signature) (keyword : String) :
    keywordDiagnostic reported signature keyword = none
      ↔ nameIsReportedFine (signatureParams signature) keyword = true := by
  unfold keywordDiagnostic nameIsReportedFine
  rw [find_param_named, hsignature.unpackTypedDictShape_eq, hsignature.acceptsExtraKeywordSites_eq]
  cases hfound : signature.find? fun param => param.name = keyword with
  | some param =>
    show (if param.positionalOnly then _ else _) = none ↔ (!param.positionalOnly) = true
    cases param.positionalOnly <;> simp
  | none =>
    have hunnamed : ((signature.filter fun param => !param.keywordVariadic).map
        DirectFunctionParamSite.name).contains keyword = false := by
      rw [← Bool.not_eq_true, List.contains_iff_mem, List.mem_map]
      rintro ⟨param, hparam, hname⟩
      have htest := List.find?_eq_none.1 hfound param (List.mem_filter.1 hparam).1
      exact htest (decide_eq_true hname)
    simp only [hunnamed, Option.map_none, Bool.not_false, Bool.and_true]
    cases acceptsExtraKeywords (signatureParams signature) <;> simp

theorem boundTwiceDiagnostic_eq_none_iff (keyword : String) :
    boundTwiceDiagnostic signature count keyword = none
      ↔ isGivenByPosition (signatureParams signature) count keyword = false := by
  unfold boundTwiceDiagnostic isGivenByPosition
  rw [positionalSiteNames_eq]
  cases (((positionalParams (signatureParams signature)).map SemanticCallableParam.name).take
    count).contains keyword <;> simp

/-- Nothing is reported about a key and its value exactly if both are fine. -/
theorem fieldDiagnostics_eq_none_iff (hsignature : PlainSignature signature)
    (field : String × TypedDictFieldShape) :
    (fieldDiagnostic reported call signature count field = none
        ∧ fieldTypeDiagnostic isAssignable (siteTypes signature) (siteNames signature)
          (keywordVariadicType (signatureParams signature)) none field = none)
      ↔ fieldIsReportedFine isAssignable (signatureParams signature) count call.keywordNames field
        = true := by
  rw [fieldTypeDiagnostic_eq_none_iff hsignature]
  unfold fieldDiagnostic fieldIsReportedFine isGivenByPosition
  rw [Bool.and_eq_true, Bool.and_eq_true, positionalSiteNames_eq, find_param_named,
    hsignature.acceptsExtraKeywordSites_eq]
  refine and_congr_left fun _ => ?_
  cases call.keywordNames.contains field.1
      || (((positionalParams (signatureParams signature)).map SemanticCallableParam.name).take
        count).contains field.1 with
  | true => simp
  | false =>
    simp only [Bool.false_eq_true, if_false, Bool.not_false, true_and]
    cases signature.find? fun param => param.name = field.1 with
    | none =>
      simp only [Option.map_none]
      cases acceptsExtraKeywords (signatureParams signature) <;> simp
    | some param =>
      show (if param.positionalOnly then _ else if !field.2.required && !param.hasDefault then _
        else _) = none ↔ (!param.positionalOnly && (field.2.required || param.hasDefault)) = true
      cases param.positionalOnly <;> cases field.2.required <;> cases param.hasDefault <;> simp

/-- Nothing is reported about an expansion and its types exactly if both are fine. -/
theorem expansionDiagnostics_eq_nil_iff (hsignature : PlainSignature signature)
    (expansion : KeywordExpansion) :
    (expansionDiagnostics reported call signature count expansion = []
        ∧ expansionTypeDiagnostics isAssignable (siteTypes signature) (siteNames signature)
          (keywordVariadicType (signatureParams signature)) none expansion = [])
      ↔ expansionIsReportedFine isAssignable (signatureParams signature) count call.keywordNames
        expansion = true := by
  have hextra : extraKeywordType (keywordVariadicType (signatureParams signature)) none
      = keywordVariadicType (signatureParams signature) := rfl
  cases expansion with
  | mapping valueType =>
    unfold expansionDiagnostics expansionTypeDiagnostics expansionIsReportedFine
    rw [hsignature.acceptsExtraKeywordSites_eq, Option.toList_eq_nil_iff,
      bind_keyMismatch_eq_none_iff _ hsignature.keywordVariadicType_ne, Bool.and_eq_true]
    refine and_congr_left fun _ => ?_
    cases acceptsExtraKeywords (signatureParams signature) <;> simp
  | typedDict shape =>
    have hfields : (shape.fields.filterMap (fieldDiagnostic reported call signature count) = []
          ∧ shape.fields.filterMap (fieldTypeDiagnostic isAssignable (siteTypes signature)
            (siteNames signature) (keywordVariadicType (signatureParams signature)) none) = [])
        ↔ shape.fields.all (fieldIsReportedFine isAssignable (signatureParams signature) count
          call.keywordNames) = true := by
      rw [List.filterMap_eq_nil_iff, List.filterMap_eq_nil_iff, List.all_eq_true, ← forall₂_and]
      exact forall₂_congr fun field _ => fieldDiagnostics_eq_none_iff hsignature field
    unfold expansionDiagnostics expansionTypeDiagnostics expansionIsReportedFine
    rw [hsignature.acceptsExtraKeywordSites_eq, hextra, Bool.and_eq_true, Bool.and_eq_true,
      ← hfields]
    dsimp only
    rw [List.append_eq_nil_iff, List.append_eq_nil_iff, List.append_eq_nil_iff,
      Option.toList_eq_nil_iff]
    cases shape.extraItems with
    | none =>
      cases shape.hasUnboundedExtraKeys <;>
        cases acceptsExtraKeywords (signatureParams signature) <;> simp
    | some extra =>
      rw [Option.bind_some, bind_keyMismatch_eq_none_iff _ hsignature.keywordVariadicType_ne]
      cases shape.hasUnboundedExtraKeys <;>
        cases acceptsExtraKeywords (signatureParams signature) <;> simp [and_assoc]

end Keywords

/-! ## A call that is not reported -/

section Reports

variable {isAssignable typeMatches : SemanticType → SemanticType → Bool} {Arg : Type}
  {types : ArgumentTypes Arg} {reported : ReportedTypes Arg} {call : CallArguments Arg}
  {signature : List DirectFunctionParamSite} {callee : String}

/-- No parameter is missing, as the diagnostics see it. -/
def NoSiteMissing (types : ArgumentTypes Arg) (call : CallArguments Arg)
    (signature : List DirectFunctionParamSite) : Prop :=
  ∀ (index : Nat) param, signature[index]? = some param →
    siteIsMissing call.keywordNames (keywordExpansions types call)
      (positionalTypes types call (signatureParams signature)).length index param = false

theorem missingSites_eq_nil_iff (hsignature : PlainSignature signature)
    (hvalues : ResolvedAlike types reported call signature) :
    missingSites types reported call signature = [] ↔ NoSiteMissing types call signature := by
  unfold missingSites NoSiteMissing
  rw [hsignature.unpackTypedDictShape_eq, hvalues.reportedPositionalCount_eq]
  dsimp only
  rw [List.append_nil, List.filterMap_eq_nil_iff]
  constructor
  · intro h index param hindex
    have hone := h (param, index) (List.mem_zipIdx_iff_getElem?.2 hindex)
    dsimp only at hone
    split at hone
    · cases hone
    · next htest => rwa [Bool.not_eq_true] at htest
  · rintro h ⟨param, index⟩ hmem
    dsimp only
    rw [h index param (List.mem_zipIdx_iff_getElem?.1 hmem)]
    rfl

theorem arityDiagnostic_eq_none_iff (hsignature : PlainSignature signature)
    (hvalues : ResolvedAlike types reported call signature) :
    directSourceFunctionArityDiagnostic types reported call signature callee = none
      ↔ ArityIsExempt types call (signatureParams signature) callee
        ∨ (HasRoom types call (signatureParams signature) ∧ NoSiteMissing types call signature) := by
  have hany : signature.any DirectFunctionParamSite.variadic
      = (signatureParams signature).any SemanticCallableParam.variadic := by
    rw [List.any_map]
    rfl
  have hlength : (positionalSites signature).length
      = (positionalParams (signatureParams signature)).length := by
    rw [positionalParams_sites, List.length_map]
  rw [← missingSites_eq_nil_iff hsignature hvalues, ← hasRoom_iff]
  unfold directSourceFunctionArityDiagnostic ArityIsExempt
  dsimp only
  rw [hany, hlength, hvalues.reportedPositionalCount_eq]
  cases hvariadic : (signatureParams signature).any SemanticCallableParam.variadic with
  | true => simp
  | false =>
    simp only [Bool.not_false, Bool.true_and, true_and]
    cases hstarred : (variadicStarredTypes types call).isEmpty with
    | true =>
      rw [List.isEmpty_iff] at hstarred
      rcases Nat.lt_or_ge (positionalParams (signatureParams signature)).length
        (positionalTypes types call (signatureParams signature)).length with hlt | hge
      · simp [hstarred, hlt]
      · simp [hstarred, Nat.not_lt.2 hge]
    | false =>
      have hne : variadicStarredTypes types call ≠ [] := by
        intro hnil
        rw [hnil] at hstarred
        cases hstarred
      simp [hne]

/-- A positional-only parameter whose name is not used is missing for both or for neither. -/
theorem siteIsMissing_eq {keywordNames : List String} {expansions : List KeywordExpansion}
    {count index : Nat} {param : DirectFunctionParamSite}
    (hunused : param.positionalOnly = true →
      keywordNames.contains param.name = false ∧ expansionProvides expansions param.name = false) :
    siteIsMissing keywordNames expansions count index param
      = paramIsMissing keywordNames expansions count index (semanticCallableParam param) := by
  show (if param.hasDefault then false
    else if param.keywordOnly then _
    else if param.variadic || param.keywordVariadic then false
    else _) = (!param.hasDefault && if param.keywordOnly then _
      else if param.variadic || param.keywordVariadic then false else _)
  cases param.hasDefault with
  | true => rfl
  | false =>
    simp only [Bool.false_eq_true, if_false, Bool.not_false, Bool.true_and]
    cases honly : param.positionalOnly with
    | true =>
      have ⟨hkeyword, hprovides⟩ := hunused honly
      rw [← Bool.not_eq_true, List.contains_iff_mem] at hkeyword
      show (if param.keywordOnly then _ else _) = if param.keywordOnly then _ else _
      simp [semanticCallableParam, hkeyword, hprovides, honly]
    | false => simp [semanticCallableParam, honly, Bool.and_assoc]

/-- What is fine uses no name of a positional-only parameter. -/
theorem OthersReportedFine.unused (hsignature : PlainSignature signature)
    (hcall : QuietCall types call (signatureParams signature))
    (hfine : OthersReportedFine isAssignable types call (signatureParams signature))
    {param : DirectFunctionParamSite} (hparam : param ∈ signature)
    (honly : param.positionalOnly = true) :
    call.keywordNames.contains param.name = false
      ∧ expansionProvides (keywordExpansions types call) param.name = false := by
  have hfound : ((signatureParams signature).find? fun other => other.name = param.name)
      = some (semanticCallableParam param) :=
    find_named_param hsignature.valid (List.mem_map_of_mem hparam)
  have honly' : (semanticCallableParam param).positionalOnly = true := honly
  constructor
  · rw [← Bool.not_eq_true, List.contains_iff_mem]
    intro hmem
    have hnames : ∀ name ∈ call.keywordNames,
        nameIsReportedFine (signatureParams signature) name = true := by
      rw [hcall.forall_keywordNames]
      intro keyword hkeyword
      have hone := hfine.keywords keyword hkeyword
      rw [keywordIsReportedFine, Bool.and_eq_true, Bool.and_eq_true] at hone
      exact hone.1.1
    have hname := hnames param.name hmem
    rw [nameIsReportedFine, hfound] at hname
    simp [honly'] at hname
  · rw [← Bool.not_eq_true, expansionProvides, List.any_eq_true]
    rintro ⟨expansion, hexpansion, hprovides⟩
    have hone := hfine.expansions expansion hexpansion
    cases expansion with
    | mapping valueType => cases hprovides
    | typedDict shape =>
      -- the key that provides it would be reported
      have hfields : ∀ field ∈ shape.fields, field.1 ≠ param.name := by
        intro field hfield hname
        rw [expansionIsReportedFine, Bool.and_eq_true, Bool.and_eq_true, List.all_eq_true] at hone
        have hkey := hone.1.1 field hfield
        rw [fieldIsReportedFine, Bool.and_eq_true, Bool.and_eq_true, hname, hfound] at hkey
        simp [honly'] at hkey
      have hnone : shape.field param.name = none := by
        unfold TypedDictShape.field
        rw [Option.map_eq_none_iff, List.find?_eq_none]
        intro field hfield htest
        exact hfields field hfield (of_decide_eq_true htest)
      dsimp only at hprovides
      rw [hnone] at hprovides
      cases hprovides

theorem OthersReportedFine.noSiteMissing_iff (hsignature : PlainSignature signature)
    (hcall : QuietCall types call (signatureParams signature))
    (hfine : OthersReportedFine isAssignable types call (signatureParams signature)) :
    NoSiteMissing types call signature ↔ NothingMissing types call (signatureParams signature) := by
  unfold NoSiteMissing NothingMissing
  constructor
  · intro h index param hindex
    rw [List.getElem?_map, Option.map_eq_some_iff] at hindex
    rcases hindex with ⟨site, hsite, rfl⟩
    rw [← siteIsMissing_eq fun honly =>
      hfine.unused hsignature hcall (List.mem_of_getElem? hsite) honly]
    exact h index site hsite
  · intro h index site hsite
    rw [siteIsMissing_eq fun honly =>
      hfine.unused hsignature hcall (List.mem_of_getElem? hsite) honly]
    exact h index (semanticCallableParam site) (by rw [List.getElem?_map, hsite]; rfl)

theorem keywordDiagnostics_eq_nil_iff (hsignature : PlainSignature signature)
    (hvalues : ResolvedAlike types reported call signature) :
    directSourceFunctionKeywordDiagnostics types reported call signature = []
      ↔ (∀ keyword ∈ typedKeywords types call (signatureParams signature),
          nameIsReportedFine (signatureParams signature) keyword.1 = true
            ∧ isGivenByPosition (signatureParams signature)
              (positionalTypes types call (signatureParams signature)).length keyword.1 = false)
        ∧ ∀ expansion ∈ keywordExpansions types call,
          expansionDiagnostics reported call signature
            (positionalTypes types call (signatureParams signature)).length expansion = [] := by
  unfold directSourceFunctionKeywordDiagnostics
  rw [hvalues.reportedPositionalCount_eq]
  dsimp only
  rw [List.append_eq_nil_iff, List.append_eq_nil_iff, List.filterMap_eq_nil_iff,
    List.filterMap_eq_nil_iff, List.flatMap_eq_nil_iff, ← forall₂_and]
  refine and_congr_left fun _ => ?_
  rw [← hvalues.quiet.forall_keywordNames fun name =>
    nameIsReportedFine (signatureParams signature) name = true
      ∧ isGivenByPosition (signatureParams signature)
        (positionalTypes types call (signatureParams signature)).length name = false]
  refine forall₂_congr fun name _ => ?_
  rw [keywordDiagnostic_eq_none_iff hsignature, boundTwiceDiagnostic_eq_none_iff]

theorem typeDiagnostics_eq_nil_iff (hsignature : PlainSignature signature)
    (hvalues : ResolvedAlike types reported call signature) :
    directSourceFunctionTypeDiagnostics isAssignable types reported call signature = []
      ↔ PlacedFit isAssignable types call (signatureParams signature)
        ∧ (∀ (index : Nat) argType, (strayPositional (signatureParams signature)
            (positionalTypes types call (signatureParams signature)))[index]? = some argType →
          argFits isAssignable argType (annotationBehind (signatureParams signature) index) = true)
        ∧ (∀ elementType ∈ variadicStarredTypes types call,
          starredIsReportedFine isAssignable (signatureParams signature) elementType = true)
        ∧ (∀ keyword ∈ typedKeywords types call (signatureParams signature),
          argFits isAssignable keyword.2 (namedParamType (signatureParams signature) keyword.1)
            = true)
        ∧ ∀ expansion ∈ keywordExpansions types call,
          expansionTypeDiagnostics isAssignable (siteTypes signature) (siteNames signature)
            (keywordVariadicType (signatureParams signature)) none expansion = [] := by
  have hpositional := @positionalDiagnostics_eq_nil_iff isAssignable signature hsignature
    (positionalTypes types call (signatureParams signature)) hvalues.positionalTypes_ne
  unfold directSourceFunctionTypeDiagnostics positionalAndKeywordSemanticTypeDiagnostics
  dsimp only
  rw [hvalues.quietReported, hvalues.quietReportedKeywords, List.nil_append, List.nil_append,
    hsignature.siteKeywordVariadicType_eq, hsignature.unpackTypedDictShape_eq,
    hvalues.expandedPositionalArgTypes_eq, hvalues.keywords_eq, ← variadicType_sites]
  rw [List.append_eq_nil_iff, List.append_eq_nil_iff, List.append_eq_nil_iff,
    List.append_eq_nil_iff, hpositional, List.filterMap_eq_nil_iff, List.filterMap_eq_nil_iff,
    List.flatMap_eq_nil_iff, List.forall_mem_map, and_assoc, and_assoc, and_assoc]
  refine and_congr_right fun _ => and_congr_right fun _ => ?_
  have hstarred : (∀ elementType ∈ variadicStarredTypes types call,
        ((variadicType (signatureParams signature)).bind fun paramType =>
          mismatch isAssignable .starred elementType paramType) = none)
      ↔ ∀ elementType ∈ variadicStarredTypes types call,
        starredIsReportedFine isAssignable (signatureParams signature) elementType = true := by
    refine forall₂_congr fun elementType hmem => ?_
    have hnamed : some elementType ≠ some (.name "") := fun heq =>
      hvalues.variadicStarredTypes_ne elementType hmem (Option.some.inj heq)
    exact bind_mismatch_eq_none_iff .starred hnamed hsignature.variadicType_ne
  refine and_congr hstarred (and_congr_left fun _ => ?_)
  refine forall₂_congr fun keyword hmem => ?_
  exact keywordTypeDiagnostic_eq_none_iff hsignature keyword.1 (typedKeywords_ne _ keyword hmem)

/-- Nothing is reported about the call. -/
def ReportsNothing (isAssignable : SemanticType → SemanticType → Bool)
    (types : ArgumentTypes Arg) (reported : ReportedTypes Arg) (call : CallArguments Arg)
    (signature : List DirectFunctionParamSite) (callee : String) : Prop :=
  directSourceFunctionArityDiagnostic types reported call signature callee = none
    ∧ directSourceFunctionKeywordDiagnostics types reported call signature = []
    ∧ directSourceFunctionTypeDiagnostics isAssignable types reported call signature = []

/-- The diagnostics in parts. -/
theorem reportsNothing_iff (hsignature : PlainSignature signature)
    (hvalues : ResolvedAlike types reported call signature) :
    ReportsNothing isAssignable types reported call signature callee
      ↔ (ArityIsExempt types call (signatureParams signature) callee
          ∨ (HasRoom types call (signatureParams signature)
            ∧ NothingMissing types call (signatureParams signature)))
        ∧ PlacedFit isAssignable types call (signatureParams signature)
        ∧ OthersReportedFine isAssignable types call (signatureParams signature) := by
  have hexpansions : ((∀ expansion ∈ keywordExpansions types call,
          expansionDiagnostics reported call signature
            (positionalTypes types call (signatureParams signature)).length expansion = [])
        ∧ ∀ expansion ∈ keywordExpansions types call,
          expansionTypeDiagnostics isAssignable (siteTypes signature) (siteNames signature)
            (keywordVariadicType (signatureParams signature)) none expansion = [])
      ↔ ∀ expansion ∈ keywordExpansions types call,
        expansionIsReportedFine isAssignable (signatureParams signature)
          (positionalTypes types call (signatureParams signature)).length call.keywordNames
          expansion = true := by
    rw [← forall₂_and]
    exact forall₂_congr fun expansion _ => expansionDiagnostics_eq_nil_iff hsignature expansion
  unfold ReportsNothing
  rw [arityDiagnostic_eq_none_iff hsignature hvalues,
    keywordDiagnostics_eq_nil_iff hsignature hvalues, typeDiagnostics_eq_nil_iff hsignature hvalues]
  constructor
  · rintro ⟨harity, ⟨hnames, hexpansion⟩, hplaced, hstrays, hstarred, hkeywords, htypes⟩
    have hfine : OthersReportedFine isAssignable types call (signatureParams signature) := by
      refine ⟨hstrays, hstarred, fun keyword hmem => ?_, hexpansions.1 ⟨hexpansion, htypes⟩⟩
      have ⟨hname, hgiven⟩ := hnames keyword hmem
      rw [keywordIsReportedFine, hname, hgiven, hkeywords keyword hmem]
      rfl
    rw [hfine.noSiteMissing_iff hsignature hvalues.quiet] at harity
    exact ⟨harity, hplaced, hfine⟩
  · rintro ⟨harity, hplaced, hfine⟩
    have ⟨hexpansion, htypes⟩ := hexpansions.2 hfine.expansions
    have hkeywords : ∀ keyword ∈ typedKeywords types call (signatureParams signature),
        (nameIsReportedFine (signatureParams signature) keyword.1 = true
          ∧ isGivenByPosition (signatureParams signature)
            (positionalTypes types call (signatureParams signature)).length keyword.1 = false)
        ∧ argFits isAssignable keyword.2 (namedParamType (signatureParams signature) keyword.1)
          = true := by
      intro keyword hmem
      have hone := hfine.keywords keyword hmem
      rwa [keywordIsReportedFine, Bool.and_eq_true, Bool.and_eq_true, Bool.not_eq_true'] at hone
    rw [hfine.noSiteMissing_iff hsignature hvalues.quiet]
    exact ⟨harity, ⟨fun keyword hmem => (hkeywords keyword hmem).1, hexpansion⟩, hplaced,
      hfine.strays, hfine.starred, fun keyword hmem => (hkeywords keyword hmem).2, htypes⟩

/-- The signature applies to the call exactly if nothing is reported about it. -/
def DiagnosticsAgree (isAssignable typeMatches : SemanticType → SemanticType → Bool)
    (types : ArgumentTypes Arg) (reported : ReportedTypes Arg) (call : CallArguments Arg)
    (signature : List DirectFunctionParamSite) (callee : String) : Prop :=
  callSignatureParamsAreApplicable isAssignable typeMatches types call (signatureParams signature)
      = true
    ↔ ReportsNothing isAssignable types reported call signature callee

/-- An argument does not fit its positional parameter; or something is reported about another
argument, and applicability has something against one or against the number of them; or the number
is not exempt from being reported, and it is wrong or the other arguments are judged alike. -/
def DifferencesDoNotMatter (isAssignable typeMatches : SemanticType → SemanticType → Bool)
    (types : ArgumentTypes Arg) (call : CallArguments Arg) (params : List SemanticCallableParam)
    (callee : String) : Prop :=
  ¬PlacedFit isAssignable types call params
    ∨ (¬OthersReportedFine isAssignable types call params
      ∧ ¬(OthersPass isAssignable typeMatches types call params
        ∧ HasRoom types call params ∧ NothingMissing types call params))
    ∨ (¬ArityIsExempt types call params callee
      ∧ (¬(HasRoom types call params ∧ NothingMissing types call params)
        ∨ OthersJudgedAlike isAssignable typeMatches types call params))

theorem ArityIsExempt.not_hasRoom {params : List SemanticCallableParam}
    (h : ArityIsExempt types call params callee) : ¬HasRoom types call params := by
  rintro (hvariadic | ⟨-, hstarred⟩)
  · rw [h.1] at hvariadic
    cases hvariadic
  · exact h.2.1 hstarred

/-- A call without stars whose positional arguments have positional parameters, whose keywords are
no names of positional-only ones, of a function whose `**kwargs` has an annotation. -/
structure OrdinaryCall (types : ArgumentTypes Arg) (call : CallArguments Arg)
    (params : List SemanticCallableParam) : Prop where
  counted : call.argValues.length = call.argCount
  noStars : call.starredArgValues = []
  noExpansions : call.keywordExpansionValues = []
  placed : call.argCount ≤ (positionalParams params).length
  named : ∀ keyword ∈ call.keywordNames, ∀ param ∈ params, param.name = keyword →
    param.positionalOnly = false
  annotated : ∀ param ∈ params, param.keywordVariadic = true → param.annotation.isSome = true

/-- A keyword that is no name of a positional-only parameter gets one verdict. -/
theorem keywordVerdicts_eq {params : List SemanticCallableParam} {count : Nat}
    {keyword : String × Option SemanticType}
    (hnamed : ∀ param ∈ params, param.name = keyword.1 → param.positionalOnly = false)
    (hannotated : ∀ param ∈ params, param.keywordVariadic = true →
      param.annotation.isSome = true) :
    keywordPasses isAssignable params count keyword
      = keywordIsReportedFine isAssignable params count keyword := by
  unfold keywordPasses keywordIsReportedFine nameIsReportedFine namedParamType isGivenByPosition
    keywordArgOk namesKeywordParam
  cases hfound : params.find? fun param => param.name = keyword.1 with
  | some param =>
    have hmem := List.mem_of_find?_eq_some hfound
    have htest := List.find?_some hfound
    have hname : param.name = keyword.1 := of_decide_eq_true htest
    have honly := hnamed param hmem hname
    have hany : (params.any fun param => decide (param.name = keyword.1)
        && !param.positionalOnly) = true :=
      List.any_eq_true.2 ⟨param, hmem, by simp [hname, honly]⟩
    rw [hany]
    dsimp only
    rw [honly]
    rfl
  | none =>
    have hany : (params.any fun param => decide (param.name = keyword.1)
        && !param.positionalOnly) = false := by
      rw [List.any_eq_false]
      intro param hparam htest
      rw [Bool.and_eq_true] at htest
      exact List.find?_eq_none.1 hfound param hparam htest.1
    rw [hany, Bool.false_or]
    cases haccepts : acceptsExtraKeywords params with
    | false => rfl
    | true =>
      -- the annotation of `**kwargs` is looked at by both
      have hkwargs : (params.find? SemanticCallableParam.keywordVariadic).isSome = true := by
        rw [List.find?_isSome]
        exact List.any_eq_true.1 haccepts
      rcases Option.isSome_iff_exists.1 hkwargs with ⟨param, hparam⟩
      have hsome := hannotated param (List.mem_of_find?_eq_some hparam)
        (List.find?_some hparam)
      rcases Option.isSome_iff_exists.1 hsome with ⟨paramType, hannotation⟩
      have htype : keywordVariadicType params = some paramType := by
        rw [keywordVariadicType, hparam, Option.bind_some, hannotation]
      rw [htype]
      cases keyword.2 <;> rfl

theorem OrdinaryCall.judgedAlike {params : List SemanticCallableParam}
    (hcall : OrdinaryCall types call params) :
    OthersJudgedAlike isAssignable typeMatches types call params := by
  have hstarred : starredPositional types call = [] := by
    rw [starredPositional, hcall.noStars]
    rfl
  have hcount : (positionalTypes types call params).length = call.argCount := by
    rw [positionalTypes, hstarred, List.flatMap_nil, List.append_nil, plainPositionalTypes,
      resolvedArgTypes, List.length_mapIdx, hcall.counted]
  refine ⟨fun index argType hindex => ?_, fun elementType hmem => ?_, fun keyword hmem => ?_,
    fun expansion hmem => ?_⟩
  · rw [strayPositional, List.drop_of_length_le (by rw [hcount]; exact hcall.placed)] at hindex
    cases hindex
  · rw [variadicStarredTypes, hstarred] at hmem
    cases hmem
  · rw [hcount]
    exact keywordVerdicts_eq (hcall.named keyword.1 (List.of_mem_zip hmem).1) hcall.annotated
  · rw [keywordExpansions, hcall.noExpansions] at hmem
    cases hmem

theorem OrdinaryCall.differencesDoNotMatter {params : List SemanticCallableParam}
    (hcall : OrdinaryCall types call params) :
    DifferencesDoNotMatter isAssignable typeMatches types call params callee := by
  refine .inr (.inr ⟨?_, .inr hcall.judgedAlike⟩)
  rintro ⟨-, hstarred, -⟩
  rw [variadicStarredTypes, starredPositional, hcall.noStars] at hstarred
  exact hstarred rfl

end Reports

/-! ## A call with two positional arguments and a keyword -/

section

/-- Values that are known by their types. -/
def typedReports : ReportedTypes SemanticType where
  contextual _ _ := none
  nameReference _ := none
  knownTypedDictShape _ := none

def intSite (name : String) : DirectFunctionParamSite where
  name := name
  annotationExpr := some (.name "int")

/-- `key: str` behind a star. -/
def keySite : DirectFunctionParamSite where
  name := "key"
  annotationExpr := some (.name "str")
  keywordOnly := true

/-- `def log(*args: int, key: str)`. -/
def logSignature : List DirectFunctionParamSite :=
  [{ intSite "args" with variadic := true }, keySite]

/-- `def put(first: int, second: int, *, key: str)`. -/
def putSignature : List DirectFunctionParamSite := [intSite "first", intSite "second", keySite]

/-- A call with `(1, 2, key="k")`. -/
def twoAndKey : CallArguments SemanticType where
  argCount := 2
  argValues := [.name "int", .name "int"]
  keywordNames := ["key"]
  keywordArgValues := [.name "str"]

theorem logSignature_plain : PlainSignature logSignature where
  valid := ⟨by decide, by decide, by decide, by decide⟩
  annotated := by decide
  notUnpacked := by simp [logSignature, intSite, keySite]

theorem putSignature_plain : PlainSignature putSignature where
  valid := ⟨by decide, by decide, by decide, by decide⟩
  annotated := by decide
  notUnpacked := by simp [putSignature, intSite, keySite]

theorem twoAndKey_resolvedAlike (signature : List DirectFunctionParamSite) :
    ResolvedAlike typedValues typedReports twoAndKey signature where
  quiet := ⟨rfl, rfl, rfl, rfl⟩
  quietReported := rfl
  quietReportedKeywords := rfl
  sameTypes := rfl
  sameKeywordTypes := rfl
  named := nofun

end

end TypePython.Checking
