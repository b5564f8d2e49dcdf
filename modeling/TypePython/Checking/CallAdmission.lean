import TypePython.Checking.CallBinding

/-!
# Calls that a parameter list admits

Whether the arguments of a call bind depends on the number of the positional ones and the names of
the keywords (`bindArguments_iff_admits`), and so does the parameter each of them is bound to
(`forall₂_bound_iff`).
-/

namespace TypePython.Checking

open TypePython.Lib

section

variable (params : List SemanticCallableParam)

/-- The parameter that a positional argument goes to. -/
def positionalTarget (index : Nat) : Option SemanticCallableParam :=
  (positionalParams params)[index]?.or (params.find? SemanticCallableParam.variadic)

/-- The parameter that a keyword goes to, behind so many positional arguments. -/
def keywordTarget (count : Nat) (keyword : String) : Option SemanticCallableParam :=
  match params.find? fun param => param.acceptsKeyword && param.name = keyword with
  | some param => if param ∈ (positionalParams params).take count then none else some param
  | none => params.find? SemanticCallableParam.keywordVariadic

/-- A parameter that a keyword must be given for. -/
def NeedsKeyword (count : Nat) (param : SemanticCallableParam) : Prop :=
  param.hasDefault = false ∧ param.isVariadic = false ∧ param ∉ (positionalParams params).take count

/-- Every argument has a parameter to go to, and no parameter misses one. -/
structure Admits (count : Nat) (keywords : List String) : Prop where
  room : ∀ index < count, (positionalTarget params index).isSome = true
  named : ∀ keyword ∈ keywords, (keywordTarget params count keyword).isSome = true
  complete : ∀ param ∈ params, NeedsKeyword params count param →
    param.acceptsKeyword = true ∧ param.name ∈ keywords

end

variable {count : Nat} {param : SemanticCallableParam} {variadic : Option SemanticCallableParam}

section

variable {params params' : List SemanticCallableParam} {positional : List (Option SemanticType)}
  {keywords : List (String × Option SemanticType)}

/-! ## Positional arguments -/

theorem room_iff : (count ≤ (positionalParams params).length
        ∨ (params.find? SemanticCallableParam.variadic).isSome = true)
      ↔ ∀ index < count, (positionalTarget params index).isSome = true := by
  unfold positionalTarget
  constructor
  · intro hroom index hindex
    rw [Option.isSome_or, Bool.or_eq_true]
    rcases hroom with hroom | hvariadic
    · have hindex : index < (positionalParams params).length := by omega
      rw [List.getElem?_eq_getElem hindex]
      exact .inl rfl
    · exact .inr hvariadic
  · intro htargets
    by_contra hnone
    rw [not_or, Nat.not_le] at hnone
    -- the first argument without a parameter of its own goes to `*args`
    have hfirst := htargets (positionalParams params).length hnone.1
    rw [List.getElem?_eq_none (Nat.le_refl _), Option.none_or] at hfirst
    exact hnone.2 hfirst

theorem positionalPairs_cons (variadic : Option SemanticCallableParam)
    (param : SemanticCallableParam) (params : List SemanticCallableParam)
    (arg : Option SemanticType) (args : List (Option SemanticType)) :
    positionalPairs variadic (param :: params) (arg :: args)
      = (arg, param) :: positionalPairs variadic params args := rfl

theorem positionalPairs_nil_cons (param : SemanticCallableParam)
    (arg : Option SemanticType) (args : List (Option SemanticType)) :
    positionalPairs (some param) [] (arg :: args)
      = (arg, param) :: positionalPairs (some param) [] args := by
  simp [positionalPairs]

/-- The first argument goes to the first target, the rest to the rest. -/
theorem positionalPairs_step {params : List SemanticCallableParam} (arg : Option SemanticType)
    {args : List (Option SemanticType)}
    (hroom : args.length + 1 ≤ params.length ∨ variadic.isSome = true) :
    ∃ param, params[0]?.or variadic = some param
      ∧ positionalPairs variadic params (arg :: args)
        = (arg, param) :: positionalPairs variadic params.tail args := by
  cases params with
  | cons param rest => exact ⟨param, rfl, positionalPairs_cons variadic param rest arg args⟩
  | nil =>
    cases variadic with
    | none => simp at hroom
    | some param => exact ⟨param, rfl, positionalPairs_nil_cons param arg args⟩

theorem length_positionalPairs :
    ∀ {args : List (Option SemanticType)} {params : List SemanticCallableParam},
      args.length ≤ params.length ∨ variadic.isSome = true →
      (positionalPairs variadic params args).length = args.length
  | [], params, _ => by simp [positionalPairs]
  | arg :: args, params, hroom => by
    obtain ⟨param, -, hpairs⟩ := positionalPairs_step arg hroom
    have htail : args.length ≤ params.tail.length ∨ variadic.isSome = true :=
      hroom.imp_left fun h => by
        rw [List.length_cons] at h
        rw [List.length_tail]
        omega
    have hrest := length_positionalPairs htail
    rw [hpairs, List.length_cons, List.length_cons, hrest]

theorem forall₂_positionalPairs {K : SemanticCallableParam → SemanticCallableParam → Prop}
    {variadic' : Option SemanticCallableParam} :
    ∀ {args : List (Option SemanticType)} {params params' : List SemanticCallableParam},
      args.length ≤ params.length ∨ variadic.isSome = true →
      args.length ≤ params'.length ∨ variadic'.isSome = true →
      (List.Forall₂ (fun pair pair' => K pair.2 pair'.2) (positionalPairs variadic params args)
          (positionalPairs variadic' params' args)
        ↔ ∀ index < args.length, ∀ param param',
          params[index]?.or variadic = some param → params'[index]?.or variadic' = some param' →
            K param param')
  | [], params, params', _, _ => by
    simp [positionalPairs]
  | arg :: args, params, params', hroom, hroom' => by
    obtain ⟨param, hparam, hpairs⟩ := positionalPairs_step arg hroom
    obtain ⟨param', hparam', hpairs'⟩ := positionalPairs_step arg hroom'
    have htail : ∀ {params : List SemanticCallableParam}, args.length + 1 ≤ params.length →
        args.length ≤ params.tail.length := by
      intro params h
      rw [List.length_tail]
      omega
    have hrest := forall₂_positionalPairs (K := K) (hroom.imp_left htail)
      (hroom'.imp_left htail)
    rw [hpairs, hpairs', List.forall₂_cons, hrest]
    simp only [List.getElem?_tail]
    constructor
    · rintro ⟨hfirst, hothers⟩ index hindex other other' hother hother'
      cases index with
      | zero =>
        rw [hparam] at hother
        rw [hparam'] at hother'
        rwa [← Option.some.inj hother, ← Option.some.inj hother']
      | succ index =>
        exact hothers index (by rw [List.length_cons] at hindex; omega) other other' hother
          hother'
    · intro hall
      refine ⟨hall 0 (by simp) param param' hparam hparam', ?_⟩
      intro index hindex other other' hother hother'
      exact hall (index + 1) (by rw [List.length_cons]; omega) other other' hother hother'

/-! ## Keywords -/

theorem bindKeyword_eq (keyword : String × Option SemanticType) :
    bindKeyword params (callPairs params positional) keyword
      = (keywordTarget params positional.length keyword.1).map fun param => (keyword.2, param) := by
  unfold bindKeyword keywordTarget
  cases hfound : params.find? fun param => param.acceptsKeyword && param.name = keyword.1 with
  | none => rfl
  | some param =>
    have htest := List.find?_some hfound
    rw [Bool.and_eq_true] at htest
    have hbound : (∃ pair ∈ callPairs params positional, pair.2 = param) ↔ _ :=
      positional_bound_iff (not_variadic_of_acceptsKeyword htest.1)
    dsimp only
    by_cases hmem : param ∈ (positionalParams params).take positional.length
    · have hany : ((callPairs params positional).any fun pair => pair.2 = param) = true := by
        simpa using hbound.2 hmem
      rw [if_pos hany, if_pos hmem]
      rfl
    · have hany : ¬ ((callPairs params positional).any fun pair => pair.2 = param) = true := by
        intro htrue
        exact hmem (hbound.1 (by simpa using htrue))
      rw [if_neg hany, if_neg hmem]
      rfl

/-- A keyword that names a parameter goes to it, unless a positional argument does. -/
theorem keywordTarget_named (hnames : (params.map SemanticCallableParam.name).Nodup)
    (hparam : param ∈ params) (haccepts : param.acceptsKeyword = true) :
    keywordTarget params count param.name
      = if param ∈ (positionalParams params).take count then none else some param := by
  unfold keywordTarget
  rw [find_keyword hnames hparam haccepts rfl]

theorem eq_name_of_keywordTarget {keyword : String}
    (h : keywordTarget params count keyword = some param) (hplain : param.isVariadic = false) :
    param.acceptsKeyword = true ∧ param.name = keyword := by
  unfold keywordTarget at h
  split at h
  · next found hfound =>
      have htest := List.find?_some hfound
      rw [Bool.and_eq_true, decide_eq_true_eq] at htest
      split at h
      · cases h
      · rwa [← Option.some.inj h]
  · -- `**kwargs` is variadic
    have htest := List.find?_some h
    simp [SemanticCallableParam.isVariadic, htest] at hplain

/-! ## Whole calls -/

/-- A call binds exactly when the parameters admit its numbers and names. -/
theorem bindArguments_iff_admits (hnames : (params.map SemanticCallableParam.name).Nodup) :
    (∃ bound, bindArguments params positional keywords = some bound)
      ↔ Admits params positional.length (keywords.map Prod.fst) := by
  constructor
  · rintro ⟨bound, hbound⟩
    rcases bindArguments_eq_some.1 hbound with ⟨hroom, boundKeywords, hkeywords, rfl, hcomplete⟩
    refine ⟨room_iff.1 hroom, ?_, ?_⟩
    · intro name hname
      rcases List.mem_map.1 hname with ⟨keyword, hkeyword, rfl⟩
      rcases mapM_defined hkeywords keyword hkeyword with ⟨pair, -, hpair⟩
      rw [bindKeyword_eq] at hpair
      rcases Option.map_eq_some_iff.1 hpair with ⟨param, hparam, -⟩
      rw [hparam]
      rfl
    · intro param hparam hneeds
      rcases hcomplete param hparam with hdefault | hvariadic | ⟨pair, hpair, rfl⟩
      · rw [hneeds.1] at hdefault
        cases hdefault
      · rw [hneeds.2.1] at hvariadic
        cases hvariadic
      · rcases List.mem_append.1 hpair with hpositional | hkeyword
        · exact absurd ((positional_bound_iff hneeds.2.1).1 ⟨pair, hpositional, rfl⟩) hneeds.2.2
        · rcases (mapM_spec hkeywords pair).1 hkeyword with ⟨keyword, hmem, heq⟩
          rw [bindKeyword_eq] at heq
          rcases Option.map_eq_some_iff.1 heq with ⟨target, htarget, rfl⟩
          have ⟨haccepts, hname⟩ := eq_name_of_keywordTarget htarget hneeds.2.1
          refine ⟨haccepts, ?_⟩
          rw [hname]
          exact List.mem_map_of_mem hmem
  · intro hadmits
    have hdefined : ∀ keyword ∈ keywords,
        (bindKeyword params (callPairs params positional) keyword).isSome = true := by
      intro keyword hkeyword
      rw [bindKeyword_eq, Option.isSome_map]
      exact hadmits.named keyword.1 (List.mem_map_of_mem hkeyword)
    rcases mapM_isSome hdefined with ⟨boundKeywords, hkeywords⟩
    refine ⟨_, bindArguments_eq_some.2 ⟨room_iff.2 hadmits.room, boundKeywords, hkeywords, rfl, ?_⟩⟩
    intro param hparam
    by_cases hneeds : NeedsKeyword params positional.length param
    · -- its keyword is bound to it
      have ⟨haccepts, hname⟩ := hadmits.complete param hparam hneeds
      rcases List.mem_map.1 hname with ⟨keyword, hkeyword, hsame⟩
      refine .inr (.inr ⟨(keyword.2, param), List.mem_append_right _ ?_, rfl⟩)
      rw [mapM_spec hkeywords]
      refine ⟨keyword, hkeyword, ?_⟩
      rw [bindKeyword_eq, hsame, keywordTarget_named hnames hparam haccepts, if_neg hneeds.2.2]
      rfl
    · unfold NeedsKeyword at hneeds
      by_cases hdefault : param.hasDefault = true
      · exact .inl hdefault
      · by_cases hvariadic : param.isVariadic = true
        · exact .inr (.inl hvariadic)
        · rw [Bool.not_eq_true] at hdefault hvariadic
          have htake : param ∈ (positionalParams params).take positional.length := by
            by_contra hfree
            exact hneeds ⟨hdefault, hvariadic, hfree⟩
          rcases (positional_bound_iff hvariadic).2 htake with ⟨pair, hpair, hsame⟩
          exact .inr (.inr ⟨pair, List.mem_append_left _ hpair, hsame⟩)

/-- What is true of the parameters an argument goes to under two parameter lists, for all arguments
of a call that binds under both. -/
theorem forall₂_bound_iff {K : SemanticCallableParam → SemanticCallableParam → Prop}
    {bound bound' : List (Bound (Option SemanticType))}
    (hbound : bindArguments params positional keywords = some bound)
    (hbound' : bindArguments params' positional keywords = some bound') :
    List.Forall₂ (fun pair pair' => K pair.2 pair'.2) bound bound'
      ↔ (∀ index < positional.length, ∀ param param',
          positionalTarget params index = some param →
          positionalTarget params' index = some param' → K param param')
        ∧ ∀ keyword ∈ keywords.map Prod.fst, ∀ param param',
          keywordTarget params positional.length keyword = some param →
          keywordTarget params' positional.length keyword = some param' → K param param' := by
  rcases bindArguments_eq_some.1 hbound with ⟨hroom, boundKeywords, hkeywords, rfl, -⟩
  rcases bindArguments_eq_some.1 hbound' with ⟨hroom', boundKeywords', hkeywords', rfl, -⟩
  have hpositional := forall₂_positionalPairs (K := K) hroom hroom'
  have hlength : (callPairs params positional).length = (callPairs params' positional).length :=
    (length_positionalPairs hroom).trans (length_positionalPairs hroom').symm
  have hsplit : List.Forall₂ (fun pair pair' => K pair.2 pair'.2)
        (callPairs params positional ++ boundKeywords)
        (callPairs params' positional ++ boundKeywords')
      ↔ List.Forall₂ (fun pair pair' => K pair.2 pair'.2) (callPairs params positional)
          (callPairs params' positional)
        ∧ List.Forall₂ (fun pair pair' => K pair.2 pair'.2) boundKeywords boundKeywords' := by
    constructor
    · intro h
      have hfirst := List.forall₂_take_append _ _ _ h
      have hlast := List.forall₂_drop_append _ _ _ h
      rw [← hlength, List.take_left] at hfirst
      rw [← hlength, List.drop_left] at hlast
      exact ⟨hfirst, hlast⟩
    · rintro ⟨hfirst, hlast⟩
      exact List.rel_append hfirst hlast
  rw [hsplit, hpositional, forall₂_mapM hkeywords hkeywords']
  refine and_congr_right fun _ => ?_
  simp only [bindKeyword_eq, List.forall_mem_map]
  constructor
  · intro h keyword hkeyword param param' hparam hparam'
    exact h keyword hkeyword _ _ (by rw [hparam]; rfl) (by rw [hparam']; rfl)
  · intro h keyword hkeyword pair pair' hpair hpair'
    rcases Option.map_eq_some_iff.1 hpair with ⟨param, hparam, rfl⟩
    rcases Option.map_eq_some_iff.1 hpair' with ⟨param', hparam', rfl⟩
    exact h keyword hkeyword param param' hparam hparam'

end

/-! ## Arguments of any kind -/

section

variable {A B : Type} {params : List SemanticCallableParam}

theorem bindPositional_map (f : A → B) (variadic : Option SemanticCallableParam) :
    ∀ (params : List SemanticCallableParam) (args : List A),
      bindPositional variadic params (args.map f)
        = (bindPositional variadic params args).map (List.map (Prod.map f id))
  | params, [] => by cases params <;> rfl
  | param :: params, arg :: args => by
    rw [List.map_cons, bindPositional, bindPositional, bindPositional_map f variadic params args,
      Option.map_map, Option.map_map]
    rfl
  | [], arg :: args => by
    rw [List.map_cons, bindPositional, bindPositional, bindPositional_map f variadic [] args]
    cases variadic with
    | none => rfl
    | some param =>
      rw [Option.bind_some, Option.bind_some, Option.map_map, Option.map_map]
      rfl

theorem any_bound_map (f : A → B) (bound : List (Bound A)) (param : SemanticCallableParam) :
    ((bound.map (Prod.map f id)).any fun pair => pair.2 = param)
      = bound.any fun pair => pair.2 = param := by
  rw [List.any_map]
  rfl

theorem bindKeyword_map (f : A → B) (bound : List (Bound A)) (keyword : String × A) :
    bindKeyword params (bound.map (Prod.map f id)) (Prod.map id f keyword)
      = (bindKeyword params bound keyword).map (Prod.map f id) := by
  unfold bindKeyword
  have hname : (Prod.map id f keyword).1 = keyword.1 := rfl
  rw [hname]
  cases params.find? fun param => param.acceptsKeyword && param.name = keyword.1 with
  | none => rw [Option.map_map]; rfl
  | some param =>
    dsimp only
    rw [any_bound_map]
    split
    · rfl
    · rfl

/-- Where arguments are bound does not depend on what they are. -/
theorem bindArguments_map (f : A → B) (positional : List A) (keywords : List (String × A)) :
    bindArguments params (positional.map f) (keywords.map (Prod.map id f))
      = (bindArguments params positional keywords).map (List.map (Prod.map f id)) := by
  unfold bindArguments
  rw [bindPositional_map]
  cases bindPositional (params.find? SemanticCallableParam.variadic) (positionalParams params)
      positional with
  | none => rfl
  | some bound =>
    simp only [Option.bind_eq_bind, Option.map_some, Option.bind_some]
    rw [mapM_map_map (bindKeyword_map f bound)]
    cases keywords.mapM (bindKeyword params bound) with
    | none => rfl
    | some boundKeywords =>
      simp only [Option.map_some, Option.bind_some, ← List.map_append, any_bound_map]
      split
      · rfl
      · rfl

theorem binds_iff_admits (hnames : (params.map SemanticCallableParam.name).Nodup)
    {positional : List A} {keywords : List (String × A)} :
    (∃ bound, bindArguments params positional keywords = some bound)
      ↔ Admits params positional.length (keywords.map Prod.fst) := by
  have herased := @bindArguments_iff_admits params (positional.map fun _ => none)
    (keywords.map (Prod.map id fun _ => none)) hnames
  rw [bindArguments_map, List.length_map, List.map_map] at herased
  rw [← show keywords.map (Prod.fst ∘ Prod.map id fun _ => (none : Option SemanticType))
      = keywords.map Prod.fst from rfl, ← herased]
  simp only [← Option.isSome_iff_exists, Option.isSome_map]

end

/-! ## Parameters without their types -/

/-- What of a parameter matters to whether arguments bind. -/
def SemanticCallableParam.shape (param : SemanticCallableParam) : SemanticCallableParam :=
  { param with annotationText := none, annotation := none }

section

variable {params : List SemanticCallableParam}

theorem positionalParams_shape :
    positionalParams (params.map SemanticCallableParam.shape)
      = (positionalParams params).map SemanticCallableParam.shape := by
  unfold positionalParams
  rw [List.filter_map]
  rfl

theorem positionalTarget_shape (index : Nat) :
    positionalTarget (params.map SemanticCallableParam.shape) index
      = (positionalTarget params index).map SemanticCallableParam.shape := by
  unfold positionalTarget
  rw [positionalParams_shape, List.getElem?_map, List.find?_map, Option.map_or]
  rfl

/-- Parameters of different names have different shapes. -/
theorem shape_mem_take_iff (hnames : (params.map SemanticCallableParam.name).Nodup)
    (hparam : param ∈ params) :
    param.shape ∈ (positionalParams (params.map SemanticCallableParam.shape)).take count
      ↔ param ∈ (positionalParams params).take count := by
  rw [positionalParams_shape, ← List.map_take]
  constructor
  · intro h
    rcases List.mem_map.1 h with ⟨other, hother, hshape⟩
    have hname : other.shape.name = param.shape.name := congrArg SemanticCallableParam.name hshape
    rw [← param_eq_of_name hnames (mem_params_of_positional hother).1 hparam hname]
    exact hother
  · exact List.mem_map_of_mem

theorem keywordTarget_shape (hnames : (params.map SemanticCallableParam.name).Nodup) (count : Nat)
    (keyword : String) :
    keywordTarget (params.map SemanticCallableParam.shape) count keyword
      = (keywordTarget params count keyword).map SemanticCallableParam.shape := by
  unfold keywordTarget
  rw [List.find?_map, List.find?_map]
  have htest : ((fun param : SemanticCallableParam => param.acceptsKeyword && param.name = keyword)
      ∘ SemanticCallableParam.shape)
        = fun param => param.acceptsKeyword && param.name = keyword := rfl
  rw [htest]
  cases hfound : params.find? fun param => param.acceptsKeyword && param.name = keyword with
  | none => rfl
  | some param =>
    have hmem := List.mem_of_find?_eq_some hfound
    rw [Option.map_some]
    dsimp only
    simp only [shape_mem_take_iff hnames hmem]
    split
    · rfl
    · rfl

theorem needsKeyword_shape (hnames : (params.map SemanticCallableParam.name).Nodup)
    (hparam : param ∈ params) :
    NeedsKeyword (params.map SemanticCallableParam.shape) count param.shape
      ↔ NeedsKeyword params count param := by
  unfold NeedsKeyword
  rw [shape_mem_take_iff hnames hparam]
  rfl

theorem admits_shape (hnames : (params.map SemanticCallableParam.name).Nodup)
    {keywords : List String} : Admits (params.map SemanticCallableParam.shape) count keywords
      ↔ Admits params count keywords := by
  constructor
  · intro h
    refine ⟨?_, ?_, ?_⟩
    · intro index hindex
      have := h.room index hindex
      rwa [positionalTarget_shape, Option.isSome_map] at this
    · intro keyword hkeyword
      have := h.named keyword hkeyword
      rwa [keywordTarget_shape hnames, Option.isSome_map] at this
    · intro param hparam hneeds
      exact h.complete param.shape (List.mem_map_of_mem hparam)
        ((needsKeyword_shape hnames hparam).2 hneeds)
  · intro h
    refine ⟨?_, ?_, ?_⟩
    · intro index hindex
      rw [positionalTarget_shape, Option.isSome_map]
      exact h.room index hindex
    · intro keyword hkeyword
      rw [keywordTarget_shape hnames, Option.isSome_map]
      exact h.named keyword hkeyword
    · intro shape hshape hneeds
      rcases List.mem_map.1 hshape with ⟨param, hparam, rfl⟩
      exact h.complete param hparam ((needsKeyword_shape hnames hparam).1 hneeds)

end

end TypePython.Checking
