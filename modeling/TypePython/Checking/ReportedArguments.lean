import Mathlib.Data.List.Pairwise
import TypePython.Checking.CallBinding
import TypePython.Checking.CallDiagnostics

/-!
# What the diagnostics of a call read

The diagnostics of a call read the parameters as they are written, and types with an empty name
where nothing is known. What they find there is what the parameters of the signature have
(`PlainSignature.lookup_eq`), and what they compare is reported exactly if it does not fit
(`positionalDiagnostics_eq_nil_iff`).
-/

namespace TypePython.Checking

open TypePython.Lib
open TypePython.Syntax
open TypePython.Binding

/-! ## Annotations -/

section

variable (params : List SemanticCallableParam)

/-- The annotation that the diagnostics compare a keyword with. -/
def namedParamType (name : String) : Option SemanticType :=
  match params.find? fun param => param.name = name with
  | some param => param.annotation
  | none => keywordVariadicType params

/-- The parameters behind the positional ones, without `**kwargs`. -/
def paramsBehind : List SemanticCallableParam :=
  (params.filter fun param => !param.isPositional).filter fun param => !param.keywordVariadic

/-- The annotation that the diagnostics compare a positional argument with that comes so many places
behind the positional parameters. -/
def annotationBehind (index : Nat) : Option SemanticType :=
  ((paramsBehind params).map SemanticCallableParam.annotation)[index]?.getD (variadicType params)

end

/-! ## Calls -/

section

variable {Arg : Type} {types : ArgumentTypes Arg} {call : CallArguments Arg}
  {params : List SemanticCallableParam}

/-- A call whose values are resolved without diagnostics. -/
structure QuietCall (types : ArgumentTypes Arg) (call : CallArguments Arg)
    (params : List SemanticCallableParam) : Prop where
  counted : call.argValues.length = call.argCount
  valued : call.keywordArgValues.length = call.keywordNames.length
  quiet : someArgHasDiagnostics types call.argValues
    (expectedPositionalArgSemanticTypes params call.argCount) = false
  quietKeywords : someArgHasDiagnostics types call.keywordArgValues
    (expectedKeywordArgSemanticTypes params call.keywordNames) = false

theorem QuietCall.typedKeywords_names (hcall : QuietCall types call params) :
    (typedKeywords types call params).map Prod.fst = call.keywordNames := by
  have hlength : call.keywordNames.length ≤ (resolvedKeywordArgTypes types call params).length := by
    rw [resolvedKeywordArgTypes, resolvedArgTypes, List.length_mapIdx]
    exact Nat.le_of_eq hcall.valued.symm
  exact List.map_fst_zip hlength

theorem QuietCall.forall_keywordNames (hcall : QuietCall types call params) (P : String → Prop) :
    (∀ name ∈ call.keywordNames, P name)
      ↔ ∀ keyword ∈ typedKeywords types call params, P keyword.1 := by
  rw [← hcall.typedKeywords_names, List.forall_mem_map]

end

/-! ## The parameters as they are written -/

section Signatures

/-- The parameters of a signature. -/
abbrev signatureParams (signature : List DirectFunctionParamSite) : List SemanticCallableParam :=
  signature.map semanticCallableParam

/-- A signature that Python accepts, whose annotations are not empty and unpack no typed
dictionary. -/
structure PlainSignature (signature : List DirectFunctionParamSite) : Prop where
  valid : ParamsAccepted (signatureParams signature)
  annotated : ∀ param ∈ signature, semanticTypeFromDirectParamSite param ≠ some (.name "")
  notUnpacked : ∀ param ∈ signature, param.keywordVariadic = true →
    ∀ text, param.renderedAnnotation = some text → isUnpackText (normalizeTypeText text) = false

variable {signature : List DirectFunctionParamSite}

theorem positionalParams_sites :
    positionalParams (signatureParams signature)
      = (positionalSites signature).map semanticCallableParam := by
  unfold positionalParams positionalSites
  rw [List.filter_map]
  rfl

theorem positionalSiteNames_eq :
    positionalSiteNames signature
      = (positionalParams (signatureParams signature)).map SemanticCallableParam.name := by
  rw [positionalParams_sites, List.map_map]
  rfl

theorem find_param_named (name : String) :
    ((signatureParams signature).find? fun param => param.name = name)
      = (signature.find? fun param => param.name = name).map semanticCallableParam := by
  rw [List.find?_map]
  rfl

theorem variadicType_sites :
    variadicType (signatureParams signature)
      = (signature.find? DirectFunctionParamSite.variadic).bind semanticTypeFromDirectParamSite := by
  unfold variadicType
  rw [List.find?_map, Option.bind_map]
  rfl

theorem siteTypes_eq :
    siteTypes signature
      = (((signatureParams signature).filter fun param => !param.keywordVariadic).map
        SemanticCallableParam.annotation).map fun ty => ty.getD (.name "") := by
  unfold siteTypes
  rw [List.filter_map, List.map_map, List.map_map]
  rfl

theorem siteNames_eq :
    siteNames signature
      = ((signatureParams signature).filter fun param => !param.keywordVariadic).map
        SemanticCallableParam.name := by
  unfold siteNames
  rw [List.filter_map, List.map_map]
  rfl

theorem keywordVariadicType_sites :
    keywordVariadicType (signatureParams signature)
      = (signature.find? DirectFunctionParamSite.keywordVariadic).bind
        semanticTypeFromDirectParamSite := by
  unfold keywordVariadicType
  rw [List.find?_map, Option.bind_map]
  rfl

theorem PlainSignature.keywordVariadicAnnotation_eq (hsignature : PlainSignature signature)
    {text : String} (htext : keywordVariadicAnnotation signature = some text) :
    isUnpackText text = false := by
  unfold keywordVariadicAnnotation at htext
  rcases Option.map_eq_some_iff.1 htext with ⟨rendered, hrendered, rfl⟩
  rcases Option.bind_eq_some_iff.1 hrendered with ⟨param, hparam, hannotation⟩
  exact hsignature.notUnpacked param (List.mem_of_find?_eq_some hparam)
    (List.find?_some hparam) rendered hannotation

theorem PlainSignature.unpackTypedDictShape_eq (hsignature : PlainSignature signature)
    (knownTypedDictShape : String → Option TypedDictShape) :
    unpackTypedDictShape signature knownTypedDictShape = none := by
  unfold unpackTypedDictShape
  cases htext : keywordVariadicAnnotation signature with
  | none => rfl
  | some text =>
    have hplain := hsignature.keywordVariadicAnnotation_eq htext
    unfold isUnpackText at hplain
    rw [Option.isSome_eq_false_iff, Option.isNone_iff_eq_none] at hplain
    rw [Option.bind_eq_bind, Option.bind_some, hplain]
    rfl

/-- A parameter has a type if it has a text. -/
theorem semanticType_eq_none_of_rendered {param : DirectFunctionParamSite}
    (h : param.renderedAnnotation = none) : semanticTypeFromDirectParamSite param = none := by
  unfold DirectFunctionParamSite.renderedAnnotation at h
  rw [Option.or_eq_none_iff, Option.map_eq_none_iff] at h
  unfold semanticTypeFromDirectParamSite
  rw [h.1, h.2]
  rfl

theorem PlainSignature.siteKeywordVariadicType_eq (hsignature : PlainSignature signature) :
    siteKeywordVariadicType signature = keywordVariadicType (signatureParams signature) := by
  rw [keywordVariadicType_sites]
  unfold siteKeywordVariadicType
  cases htext : keywordVariadicAnnotation signature with
  | some text =>
    rw [Option.bind_some, hsignature.keywordVariadicAnnotation_eq htext]
    rfl
  | none =>
    unfold keywordVariadicAnnotation at htext
    rw [Option.map_eq_none_iff] at htext
    cases hfound : signature.find? DirectFunctionParamSite.keywordVariadic with
    | none => rfl
    | some param =>
      rw [hfound, Option.bind_some] at htext
      exact (semanticType_eq_none_of_rendered htext).symm

theorem PlainSignature.acceptsExtraKeywordSites_eq (hsignature : PlainSignature signature)
    (knownTypedDictShape : String → Option TypedDictShape) :
    acceptsExtraKeywordSites signature knownTypedDictShape
      = acceptsExtraKeywords (signatureParams signature) := by
  unfold acceptsExtraKeywordSites acceptsExtraKeywords
  rw [hsignature.unpackTypedDictShape_eq, List.any_map]
  have hany : signature.any (SemanticCallableParam.keywordVariadic ∘ semanticCallableParam)
      = signature.any DirectFunctionParamSite.keywordVariadic := rfl
  rw [hany]
  cases hkwargs : signature.any DirectFunctionParamSite.keywordVariadic with
  | true => rfl
  | false =>
    have hnone : keywordVariadicAnnotation signature = none := by
      unfold keywordVariadicAnnotation
      rw [List.find?_eq_none.2 fun param hparam htrue => by
        rw [List.any_eq_false] at hkwargs
        exact hkwargs param hparam htrue]
      rfl
    rw [hnone]
    rfl

section

variable {params : List SemanticCallableParam} (hvalid : ParamsAccepted params)

include hvalid

theorem find_named_param {param : SemanticCallableParam} (hparam : param ∈ params) :
    (params.find? fun other => other.name = param.name) = some param := by
  cases hfound : params.find? fun other => other.name = param.name with
  | none =>
    have hnone := List.find?_eq_none.1 hfound param hparam
    simp at hnone
  | some other =>
    have hname := List.find?_some hfound
    rw [decide_eq_true_eq] at hname
    rw [param_eq_of_name hvalid.names (List.mem_of_find?_eq_some hfound) hparam hname]

theorem rank_of_keywordVariadic {param : SemanticCallableParam} (hparam : param ∈ params)
    (hkwargs : param.keywordVariadic = true) : param.rank = 4 := by
  have hkind := hvalid.oneKind param hparam
  revert hkind
  unfold SemanticCallableParam.rank
  rw [hkwargs]
  cases param.positionalOnly <;> cases param.variadic <;> cases param.keywordOnly <;> decide

/-- There is one `**kwargs` at most. -/
theorem find_keywordVariadic {param : SemanticCallableParam} (hparam : param ∈ params)
    (hkwargs : param.keywordVariadic = true) :
    params.find? SemanticCallableParam.keywordVariadic = some param := by
  cases hfound : params.find? SemanticCallableParam.keywordVariadic with
  | none => exact absurd hkwargs (List.find?_eq_none.1 hfound param hparam)
  | some other =>
    have hother := List.mem_of_find?_eq_some hfound
    have hotherKwargs : other.keywordVariadic = true := List.find?_some hfound
    by_contra hne
    have hsymm : Std.Symm fun first second : SemanticCallableParam =>
        first.isVariadic = true → second.isVariadic = true → first.rank ≠ second.rank :=
      ⟨fun _ _ h hsecond hfirst => (h hfirst hsecond).symm⟩
    have horder : params.Pairwise fun first second =>
        first.isVariadic = true → second.isVariadic = true → first.rank ≠ second.rank :=
      hvalid.order.imp fun h hfirst _ => h.2 hfirst
    have hranks := horder.forall hother hparam (fun heq => hne (by rw [heq]))
      (by simp [SemanticCallableParam.isVariadic, hotherKwargs])
      (by simp [SemanticCallableParam.isVariadic, hkwargs])
    rw [rank_of_keywordVariadic hvalid hother hotherKwargs,
      rank_of_keywordVariadic hvalid hparam hkwargs] at hranks
    exact hranks rfl

/-- A name has the annotation of a parameter before `**kwargs`, or that of `**kwargs`. -/
theorem namedAnnotation_eq (name : String) :
    namedParamType params name
      = (((params.filter fun param => !param.keywordVariadic).find? fun param =>
          param.name = name).map SemanticCallableParam.annotation).getD
            (keywordVariadicType params) := by
  unfold namedParamType
  cases hfound : (params.filter fun param => !param.keywordVariadic).find? fun param =>
      param.name = name with
  | some param =>
    have hmem := List.mem_of_find?_eq_some hfound
    have hname := List.find?_some hfound
    rw [decide_eq_true_eq] at hname
    rw [← hname, find_named_param hvalid (List.mem_filter.1 hmem).1]
    rfl
  | none =>
    cases hparam : params.find? fun param => param.name = name with
    | none => rfl
    | some param =>
      -- only `**kwargs` itself is left out before
      have hmem := List.mem_of_find?_eq_some hparam
      have hkwargs : param.keywordVariadic = true := by
        by_contra hnot
        have hkept : param ∈ params.filter fun param => !param.keywordVariadic :=
          List.mem_filter.2 ⟨hmem, by simpa using hnot⟩
        have htest := List.find?_some hparam
        exact List.find?_eq_none.1 hfound param hkept htest
      unfold keywordVariadicType
      rw [find_keywordVariadic hvalid hmem hkwargs]
      rfl

end

end Signatures

/-! ## Diagnostics of types -/

section Types

variable {isAssignable : SemanticType → SemanticType → Bool} {argType paramType : Option SemanticType}

theorem mismatch_eq_none_iff (place : ArgumentPlace) (harg : argType ≠ some (.name ""))
    (hparam : paramType ≠ some (.name "")) :
    mismatch isAssignable place (argType.getD (.name "")) (paramType.getD (.name "")) = none
      ↔ argFits isAssignable argType paramType = true := by
  unfold mismatch semanticTypeMissing argFits
  cases argType with
  | none => simp
  | some argType =>
    cases paramType with
    | none => simp
    | some paramType =>
      have hargName : argType ≠ .name "" := fun heq => harg (by rw [heq])
      have hparamName : paramType ≠ .name "" := fun heq => hparam (by rw [heq])
      simp [hargName, hparamName]

theorem bind_mismatch_eq_none_iff (place : ArgumentPlace) (harg : argType ≠ some (.name ""))
    (hparam : paramType ≠ some (.name "")) :
    (paramType.bind fun paramType =>
        mismatch isAssignable place (argType.getD (.name "")) paramType) = none
      ↔ argFits isAssignable argType paramType = true := by
  cases paramType with
  | none =>
    refine iff_of_true rfl ?_
    cases argType <;> rfl
  | some paramType => exact mismatch_eq_none_iff place harg hparam

theorem keyMismatch_eq_none_iff (place : ArgumentPlace) (hparam : paramType ≠ some (.name "")) :
    keyMismatch isAssignable place argType (paramType.getD (.name "")) = none
      ↔ argFits isAssignable argType paramType = true := by
  unfold keyMismatch semanticTypeMissing argFits
  cases argType with
  | none => simp
  | some argType =>
    cases paramType with
    | none => simp
    | some paramType =>
      have hparamName : paramType ≠ .name "" := fun heq => hparam (by rw [heq])
      simp [hparamName]

theorem bind_keyMismatch_eq_none_iff (place : ArgumentPlace)
    (hparam : paramType ≠ some (.name "")) :
    (paramType.bind fun paramType => keyMismatch isAssignable place argType paramType) = none
      ↔ argFits isAssignable argType paramType = true := by
  cases paramType with
  | none =>
    refine iff_of_true rfl ?_
    cases argType <;> rfl
  | some paramType => exact keyMismatch_eq_none_iff place hparam

/-- The index of a name among the names finds what stands at it in another column. -/
theorem findIdx?_named {A B : Type} (column : A → String) (other : A → B) (name : String)
    (items : List A) :
    (((items.map column).findIdx? fun found => found = name).map fun index =>
        (items.map other)[index]?)
      = (items.find? fun item => column item = name).map fun item => some (other item) := by
  induction items with
  | nil => rfl
  | cons item rest ih =>
    rw [List.map_cons, List.map_cons, List.findIdx?_cons, List.find?_cons]
    by_cases hname : column item = name
    · simp [hname]
    · simp only [hname, decide_false, Bool.false_eq_true, if_false, Option.map_map]
      rw [← ih]
      congr 1

variable {signature : List DirectFunctionParamSite}

theorem PlainSignature.annotation_ne (hsignature : PlainSignature signature)
    {param : SemanticCallableParam} (hparam : param ∈ signatureParams signature) :
    param.annotation ≠ some (.name "") := by
  rcases List.mem_map.1 hparam with ⟨site, hsite, rfl⟩
  exact hsignature.annotated site hsite

theorem PlainSignature.keywordVariadicType_ne (hsignature : PlainSignature signature) :
    keywordVariadicType (signatureParams signature) ≠ some (.name "") := by
  intro heq
  rcases Option.bind_eq_some_iff.1 heq with ⟨param, hparam, hannotation⟩
  exact hsignature.annotation_ne (List.mem_of_find?_eq_some hparam) hannotation

theorem PlainSignature.variadicType_ne (hsignature : PlainSignature signature) :
    variadicType (signatureParams signature) ≠ some (.name "") := by
  intro heq
  rcases Option.bind_eq_some_iff.1 heq with ⟨param, hparam, hannotation⟩
  exact hsignature.annotation_ne (List.mem_of_find?_eq_some hparam) hannotation

/-- What is looked up for a name among the written parameters is its annotation. -/
theorem PlainSignature.lookup_eq (hsignature : PlainSignature signature) (name : String) :
    (∃ param index, ((siteNames signature).findIdx? fun found => found = name) = some index
        ∧ (siteTypes signature)[index]? = some (param.annotation.getD (.name ""))
        ∧ param ∈ signatureParams signature
        ∧ namedParamType (signatureParams signature) name = param.annotation)
      ∨ (((siteNames signature).findIdx? fun found => found = name) = none
        ∧ namedParamType (signatureParams signature) name
          = keywordVariadicType (signatureParams signature)) := by
  have hcolumns := findIdx?_named SemanticCallableParam.name
    (fun param : SemanticCallableParam => param.annotation.getD (.name "")) name
    ((signatureParams signature).filter fun param => !param.keywordVariadic)
  rw [namedAnnotation_eq hsignature.valid, siteNames_eq, siteTypes_eq, List.map_map]
  cases hfound : ((signatureParams signature).filter fun param => !param.keywordVariadic).find?
      fun param => param.name = name with
  | none =>
    rw [hfound, Option.map_none, Option.map_eq_none_iff] at hcolumns
    exact .inr ⟨hcolumns, rfl⟩
  | some param =>
    rw [hfound, Option.map_some, Option.map_eq_some_iff] at hcolumns
    rcases hcolumns with ⟨index, hindex, htype⟩
    exact .inl ⟨param, index, hindex, htype,
      (List.mem_filter.1 (List.mem_of_find?_eq_some hfound)).1, rfl⟩

theorem keywordTypeDiagnostic_eq_none_iff (hsignature : PlainSignature signature)
    (keyword : String) (harg : argType ≠ some (.name "")) :
    keywordTypeDiagnostic isAssignable (siteTypes signature) (siteNames signature)
        (keywordVariadicType (signatureParams signature)) none (keyword, argType.getD (.name ""))
        = none
      ↔ argFits isAssignable argType (namedParamType (signatureParams signature) keyword)
        = true := by
  unfold keywordTypeDiagnostic
  rcases hsignature.lookup_eq keyword with ⟨param, index, hindex, htype, hmem, hnamed⟩
    | ⟨hindex, hnamed⟩
  · rw [hindex, hnamed]
    dsimp only
    rw [htype, Option.bind_some]
    exact mismatch_eq_none_iff _ harg (hsignature.annotation_ne hmem)
  · rw [hindex, hnamed]
    exact bind_mismatch_eq_none_iff _ harg hsignature.keywordVariadicType_ne

theorem fieldTypeDiagnostic_eq_none_iff (hsignature : PlainSignature signature)
    (field : String × TypedDictFieldShape) :
    fieldTypeDiagnostic isAssignable (siteTypes signature) (siteNames signature)
        (keywordVariadicType (signatureParams signature)) none field = none
      ↔ argFits isAssignable field.2.semanticValueType
        (namedParamType (signatureParams signature) field.1) = true := by
  unfold fieldTypeDiagnostic
  rcases hsignature.lookup_eq field.1 with ⟨param, index, hindex, htype, hmem, hnamed⟩
    | ⟨hindex, hnamed⟩
  · rw [hindex, hnamed]
    dsimp only
    rw [htype, Option.bind_some]
    exact keyMismatch_eq_none_iff _ (hsignature.annotation_ne hmem)
  · rw [hindex, hnamed]
    exact bind_keyMismatch_eq_none_iff _ hsignature.keywordVariadicType_ne

/-! ## Diagnostics of positional arguments -/

theorem forall_zip_append {A B : Type} {K : A → B → Prop} (first rest : List B) (args : List A) :
    (∀ pair ∈ args.zip (first ++ rest), K pair.1 pair.2)
      ↔ (∀ pair ∈ args.zip first, K pair.1 pair.2)
        ∧ ∀ pair ∈ (args.drop first.length).zip rest, K pair.1 pair.2 := by
  induction first generalizing args with
  | nil => simp
  | cons b first ih =>
    cases args with
    | nil => simp
    | cons a args =>
      rw [List.cons_append, List.zip_cons_cons, List.zip_cons_cons, List.forall_mem_cons,
        List.forall_mem_cons, ih, List.length_cons, List.drop_succ_cons, and_assoc]

/-- A column that is continued with one value, read by index. -/
theorem forall_continued_iff {A B : Type} {K : A → B → Prop} (value : B) (column : List B)
    (args : List A) :
    ((∀ pair ∈ args.zip column, K pair.1 pair.2)
        ∧ ∀ arg ∈ args.drop column.length, K arg value)
      ↔ ∀ (index : Nat) (arg : A), args[index]? = some arg →
        K arg (column[index]?.getD value) := by
  induction column generalizing args with
  | nil =>
    simp only [List.zip_nil_right, List.not_mem_nil, false_imp_iff, forall_true_iff, true_and,
      List.length_nil, List.drop_zero, List.getElem?_nil, Option.getD_none]
    constructor
    · intro h index arg hindex
      exact h arg (List.mem_of_getElem? hindex)
    · intro h arg hmem
      rcases List.mem_iff_getElem?.1 hmem with ⟨index, hindex⟩
      exact h index arg hindex
  | cons b column ih =>
    cases args with
    | nil => simp
    | cons a args =>
      rw [List.zip_cons_cons, List.forall_mem_cons, List.length_cons, List.drop_succ_cons,
        and_assoc, ih]
      constructor
      · rintro ⟨hfirst, hrest⟩ index arg hindex
        cases index with
        | zero =>
          rw [List.getElem?_cons_zero] at hindex
          rw [← Option.some.inj hindex]
          exact hfirst
        | succ index =>
          rw [List.getElem?_cons_succ] at hindex ⊢
          exact hrest index arg hindex
      · intro h
        refine ⟨h 0 a rfl, fun index arg hindex => ?_⟩
        have hnext := h (index + 1) arg (by rw [List.getElem?_cons_succ]; exact hindex)
        rwa [List.getElem?_cons_succ] at hnext

theorem filter_keywordVariadic {params : List SemanticCallableParam}
    (hvalid : ParamsAccepted params) :
    (params.filter fun param => !param.keywordVariadic)
      = positionalParams params ++ paramsBehind params := by
  have hpositional : (positionalParams params).filter (fun param => !param.keywordVariadic)
      = positionalParams params := by
    rw [List.filter_eq_self]
    intro param hparam
    have htest := (List.mem_filter.1 hparam).2
    simp only [SemanticCallableParam.isPositional, Bool.and_eq_true] at htest
    exact htest.2
  have hsplit := congrArg (List.filter fun param => !param.keywordVariadic) (params_split hvalid)
  rw [List.filter_append, hpositional] at hsplit
  exact hsplit.symm

theorem positionalDiagnostics_eq_nil_iff (hsignature : PlainSignature signature)
    {positional : List (Option SemanticType)}
    (hpositional : ∀ argType ∈ positional, argType ≠ some (.name "")) :
    ((((positional.map fun ty => ty.getD (.name "")).zip (siteTypes signature)).filterMap
          fun arg => mismatch isAssignable .parameter arg.1 arg.2) = []
        ∧ (((positional.map fun ty => ty.getD (.name "")).drop (siteTypes signature).length).filterMap
          fun argType => (variadicType (signatureParams signature)).bind fun paramType =>
            mismatch isAssignable .variadic argType paramType) = [])
      ↔ (∀ pair ∈ positional.zip (positionalParams (signatureParams signature)),
          argFits isAssignable pair.1 pair.2.paramType = true)
        ∧ ∀ index argType,
          (strayPositional (signatureParams signature) positional)[index]? = some argType →
            argFits isAssignable argType (annotationBehind (signatureParams signature) index)
              = true := by
  have hcolumn := filter_keywordVariadic hsignature.valid
  have hbehind : ∀ param ∈ (signatureParams signature).filter fun param => !param.keywordVariadic,
      param.annotation ≠ some (.name "") := fun param hparam =>
    hsignature.annotation_ne (List.mem_filter.1 hparam).1
  have hplaced : (((positional.map fun ty => ty.getD (.name "")).zip (siteTypes signature)).filterMap
        fun arg => mismatch isAssignable .parameter arg.1 arg.2) = []
      ↔ ∀ pair ∈ positional.zip ((positionalParams (signatureParams signature)).map
          SemanticCallableParam.annotation ++ (paramsBehind (signatureParams signature)).map
            SemanticCallableParam.annotation), argFits isAssignable pair.1 pair.2 = true := by
    rw [siteTypes_eq, List.zip_map, List.filterMap_eq_nil_iff, List.forall_mem_map,
      ← List.map_append, ← hcolumn]
    refine forall_congr' fun pair => imp_congr_right fun hpair => ?_
    rcases List.mem_map.1 (List.of_mem_zip hpair).2 with ⟨param, hparam, hannotation⟩
    refine mismatch_eq_none_iff _ (hpositional _ (List.of_mem_zip hpair).1) ?_
    rw [← hannotation]
    exact hbehind param hparam
  have hextra : (((positional.map fun ty => ty.getD (.name "")).drop
        (siteTypes signature).length).filterMap
          fun argType => (variadicType (signatureParams signature)).bind fun paramType =>
            mismatch isAssignable .variadic argType paramType) = []
      ↔ ∀ argType ∈ (strayPositional (signatureParams signature) positional).drop
          ((paramsBehind (signatureParams signature)).map SemanticCallableParam.annotation).length,
        argFits isAssignable argType (variadicType (signatureParams signature)) = true := by
    rw [siteTypes_eq, List.length_map, List.length_map, hcolumn, List.length_append,
      List.length_map, strayPositional, List.drop_drop, ← List.map_drop,
      List.filterMap_eq_nil_iff, List.forall_mem_map]
    refine forall_congr' fun argType => imp_congr_right fun hmem => ?_
    exact bind_mismatch_eq_none_iff _ (hpositional _ (List.mem_of_mem_drop hmem))
      hsignature.variadicType_ne
  have hcontinued := forall_continued_iff
    (K := fun argType paramType => argFits isAssignable argType paramType = true)
    (variadicType (signatureParams signature))
    ((paramsBehind (signatureParams signature)).map SemanticCallableParam.annotation)
    (strayPositional (signatureParams signature) positional)
  rw [hplaced, hextra, forall_zip_append
    (K := fun argType paramType => argFits isAssignable argType paramType = true),
    List.length_map, and_assoc]
  refine and_congr ?_ hcontinued
  rw [List.zip_map_right, List.forall_mem_map]
  rfl

end Types

/-! ## Values that are resolved alike -/

section Values

variable {Arg : Type}

/-- The types that a starred argument gives have names. -/
def PositionalExpansion.IsNamed : PositionalExpansion → Prop
  | .fixed types => some (.name "") ∉ types
  | .variadic elementType => elementType ≠ .name ""

/-- The values of the call resolve without diagnostics of their own, against the annotations as
well as against their texts, and to the same types. -/
structure ResolvedAlike (types : ArgumentTypes Arg) (reported : ReportedTypes Arg)
    (call : CallArguments Arg) (signature : List DirectFunctionParamSite) : Prop where
  quiet : QuietCall types call (signatureParams signature)
  quietReported : argumentDiagnostics reported call.argValues
    (expectedPositionalArgTypes signature call.argCount) = []
  quietReportedKeywords : argumentDiagnostics reported call.keywordArgValues
    (expectedKeywordArgTypes signature call.keywordNames) = []
  sameTypes : resolvedWith (resolveDirectCallArgumentSemanticType types reported) call.argValues
      (expectedPositionalArgTypes signature call.argCount)
    = call.argValues.mapIdx fun index value => resolvedArgSemanticType types value
        (expectedPositionalArgSemanticTypes (signatureParams signature)
          call.argCount)[index]?.join
  sameKeywordTypes : resolvedWith (resolveDirectCallArgumentSemanticType types reported)
      call.keywordArgValues (expectedKeywordArgTypes signature call.keywordNames)
    = call.keywordArgValues.mapIdx fun index value => resolvedArgSemanticType types value
        (expectedKeywordArgSemanticTypes (signatureParams signature)
          call.keywordNames)[index]?.join
  named : ∀ expansion ∈ starredPositional types call, expansion.IsNamed

theorem getD_knownSemanticType (ty : SemanticType) :
    (knownSemanticType ty).getD (.name "") = ty := by
  unfold knownSemanticType
  split
  · next heq => exact heq.symm
  · rfl

theorem knownSemanticType_ne (ty : SemanticType) : knownSemanticType ty ≠ some (.name "") := by
  unfold knownSemanticType
  split
  · exact nofun
  · next hne => exact fun heq => hne (Option.some.inj heq)

theorem map_getD_resolvedArgTypes (types : ArgumentTypes Arg) (values : List Arg)
    (expectedTypes : List (Option SemanticType)) :
    (resolvedArgTypes types values expectedTypes).map (fun ty => ty.getD (.name ""))
      = values.mapIdx fun index value =>
        resolvedArgSemanticType types value expectedTypes[index]?.join := by
  unfold resolvedArgTypes
  refine List.ext_getElem? fun index => ?_
  rw [List.getElem?_map, List.getElem?_mapIdx, List.getElem?_mapIdx, Option.map_map]
  simp only [Function.comp_def, getD_knownSemanticType]

theorem resolvedArgTypes_ne (types : ArgumentTypes Arg) (values : List Arg)
    (expectedTypes : List (Option SemanticType)) :
    ∀ argType ∈ resolvedArgTypes types values expectedTypes, argType ≠ some (.name "") := by
  intro argType hmem
  rcases List.mem_mapIdx.1 hmem with ⟨index, hindex, rfl⟩
  exact knownSemanticType_ne _

variable {types : ArgumentTypes Arg} {reported : ReportedTypes Arg} {call : CallArguments Arg}
  {signature : List DirectFunctionParamSite}

theorem ResolvedAlike.expandedPositionalArgTypes_eq
    (hvalues : ResolvedAlike types reported call signature) :
    expandedPositionalArgTypes types (resolveDirectCallArgumentSemanticType types reported) call
        signature
      = (positionalTypes types call (signatureParams signature)).map fun ty =>
        ty.getD (.name "") := by
  have hplain := hvalues.sameTypes
  have hlength : call.argCount - (call.argValues.mapIdx fun index value =>
      resolvedArgSemanticType types value (expectedPositionalArgSemanticTypes
        (signatureParams signature) call.argCount)[index]?.join).length = 0 := by
    rw [List.length_mapIdx, hvalues.quiet.counted]
    omega
  unfold expandedPositionalArgTypes positionalTypes plainPositionalTypes
  dsimp only
  rw [hplain, hlength, List.replicate_zero, List.append_nil, List.map_append,
    map_getD_resolvedArgTypes, List.map_flatMap]
  congr 1
  refine List.flatMap_congr fun expansion _ => ?_
  cases expansion <;> rfl

theorem ResolvedAlike.reportedPositionalCount_eq
    (hvalues : ResolvedAlike types reported call signature) :
    reportedPositionalCount types reported call signature
      = (positionalTypes types call (signatureParams signature)).length := by
  have hcounted := hvalues.quiet.counted
  unfold reportedPositionalCount expandedPositionalArgTypes positionalTypes plainPositionalTypes
    resolvedArgTypes resolvedWith
  dsimp only
  simp only [List.length_append, List.length_replicate, List.length_mapIdx, hcounted, Nat.sub_self,
    Nat.add_zero, Nat.add_left_cancel_iff, List.length_flatMap]
  congr 1
  refine List.map_congr_left fun expansion _ => ?_
  cases expansion with
  | fixed types => exact List.length_map _
  | variadic elementType => rfl

theorem ResolvedAlike.positionalTypes_ne (hvalues : ResolvedAlike types reported call signature) :
    ∀ argType ∈ positionalTypes types call (signatureParams signature),
      argType ≠ some (.name "") := by
  intro argType hmem
  rcases List.mem_append.1 hmem with hplain | hstarred
  · exact resolvedArgTypes_ne _ _ _ argType hplain
  · rcases List.mem_flatMap.1 hstarred with ⟨expansion, hexpansion, hmem⟩
    have hnamed := hvalues.named expansion hexpansion
    cases expansion with
    | fixed types => exact fun heq => hnamed (heq ▸ hmem)
    | variadic elementType => exact absurd hmem List.not_mem_nil

theorem ResolvedAlike.variadicStarredTypes_ne
    (hvalues : ResolvedAlike types reported call signature) :
    ∀ elementType ∈ variadicStarredTypes types call, elementType ≠ .name "" := by
  intro elementType hmem
  rcases List.mem_filterMap.1 hmem with ⟨expansion, hexpansion, heq⟩
  have hnamed := hvalues.named expansion hexpansion
  cases expansion with
  | fixed types => cases heq
  | variadic found =>
    rw [← Option.some.inj heq]
    exact hnamed

theorem ResolvedAlike.keywords_eq (hvalues : ResolvedAlike types reported call signature) :
    call.keywordNames.zip (resolvedWith (resolveDirectCallArgumentSemanticType types reported)
        call.keywordArgValues (expectedKeywordArgTypes signature call.keywordNames))
      = (typedKeywords types call (signatureParams signature)).map fun keyword =>
        (keyword.1, keyword.2.getD (.name "")) := by
  unfold typedKeywords resolvedKeywordArgTypes
  rw [hvalues.sameKeywordTypes, ← map_getD_resolvedArgTypes, List.zip_map_right]
  rfl

theorem typedKeywords_ne (params : List SemanticCallableParam) :
    ∀ keyword ∈ typedKeywords types call params, keyword.2 ≠ some (.name "") := by
  intro keyword hmem
  exact resolvedArgTypes_ne _ _ _ _ (List.of_mem_zip hmem).2

end Values

end TypePython.Checking
