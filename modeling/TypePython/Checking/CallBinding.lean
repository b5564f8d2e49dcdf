import Mathlib.Data.List.Nodup
import TypePython.Checking.CallApplicability
import TypePython.Lib.PartialMaps

/-!
# Binding the arguments of a call

How Python binds the arguments of a call to the parameters of a function, and how far the check of
a call agrees with it. The two differ only in arguments that no parameter but a variadic one can
take: the check looks such a keyword up under any parameter of its name, and asks for an annotation
of the variadic parameter (`applicable_agrees_iff`).
-/

namespace TypePython.Checking

open TypePython.Lib

/-! ## Parameter lists -/

namespace SemanticCallableParam

/-- Python's order of the kinds of parameters. -/
def rank (param : SemanticCallableParam) : Nat :=
  if param.positionalOnly then 0
  else if param.variadic then 2
  else if param.keywordOnly then 3
  else if param.keywordVariadic then 4
  else 1

def isVariadic (param : SemanticCallableParam) : Bool := param.variadic || param.keywordVariadic

abbrev paramType (param : SemanticCallableParam) : Option SemanticType := param.annotation

/-- A parameter that can be given by its name. -/
def acceptsKeyword (param : SemanticCallableParam) : Bool :=
  !param.positionalOnly && !param.variadic && !param.keywordVariadic

end SemanticCallableParam

/-- A parameter list that Python accepts. -/
structure ParamsAccepted (params : List SemanticCallableParam) : Prop where
  oneKind : ∀ param ∈ params,
    [param.positionalOnly, param.variadic, param.keywordOnly, param.keywordVariadic].count true ≤ 1
  order : params.Pairwise fun first second =>
    first.rank ≤ second.rank ∧ (first.isVariadic = true → first.rank ≠ second.rank)
  names : (params.map SemanticCallableParam.name).Nodup
  defaults : params.Pairwise fun first second =>
    first.isPositional = true → second.isPositional = true → first.hasDefault = true →
      second.hasDefault = true

/-! ## Binding -/

section Binding

variable {A : Type}

abbrev Bound (A : Type) := A × SemanticCallableParam

/-- Positional arguments go to the positional parameters in turn, then to `*args`. -/
def bindPositional (variadic : Option SemanticCallableParam) :
    List SemanticCallableParam → List A → Option (List (Bound A))
  | _, [] => some []
  | param :: params, arg :: args =>
    (bindPositional variadic params args).map fun bound => (arg, param) :: bound
  | [], arg :: args =>
    variadic.bind fun param =>
      (bindPositional variadic [] args).map fun bound => (arg, param) :: bound

/-- A keyword goes to the parameter it names, which must not be bound yet, else to `**kwargs`. -/
def bindKeyword (params : List SemanticCallableParam) (bound : List (Bound A))
    (keyword : String × A) : Option (Bound A) :=
  match params.find? fun param => param.acceptsKeyword && param.name = keyword.1 with
  | some param =>
    if bound.any fun pair => pair.2 = param then none else some (keyword.2, param)
  | none => (params.find? SemanticCallableParam.keywordVariadic).map fun param => (keyword.2, param)

/-- Python's binding: the positional arguments, then the keywords; at the end each parameter
without a default must have an argument. -/
def bindArguments (params : List SemanticCallableParam) (positional : List A)
    (keywords : List (String × A)) : Option (List (Bound A)) := do
  let bound ← bindPositional (params.find? SemanticCallableParam.variadic)
    (positionalParams params) positional
  let boundKeywords ← keywords.mapM (bindKeyword params bound)
  if params.all fun param =>
      param.hasDefault || param.isVariadic
        || (bound ++ boundKeywords).any fun pair => pair.2 = param then
    some (bound ++ boundKeywords)
  else none

end Binding

/-! ## What is bound -/

variable {param : SemanticCallableParam}

section Spec

variable {A : Type} {params : List SemanticCallableParam}

/-- The pairs that the positional arguments make with the parameters. -/
def positionalPairs (variadic : Option SemanticCallableParam)
    (params : List SemanticCallableParam) (args : List A) : List (Bound A) :=
  args.zip params ++
    (args.drop params.length).flatMap fun arg => variadic.toList.map fun param => (arg, param)

theorem bindPositional_nil (variadic : Option SemanticCallableParam) (args : List A) :
    bindPositional variadic [] args
      = if args = [] ∨ variadic.isSome then some (positionalPairs variadic [] args) else none := by
  induction args with
  | nil => simp [bindPositional, positionalPairs]
  | cons arg args ih =>
    cases variadic with
    | none => simp [bindPositional]
    | some param =>
      simp [bindPositional, ih, positionalPairs]

/-- The positional arguments find room unless they are more than the parameters and there is no
`*args`. -/
theorem bindPositional_eq (variadic : Option SemanticCallableParam)
    (params : List SemanticCallableParam) (args : List A) :
    bindPositional variadic params args
      = if args.length ≤ params.length ∨ variadic.isSome then
          some (positionalPairs variadic params args)
        else none := by
  induction params generalizing args with
  | nil => simp [bindPositional_nil]
  | cons param params ih =>
    cases args with
    | nil => simp [bindPositional, positionalPairs]
    | cons arg args =>
      rw [bindPositional, ih]
      by_cases hroom : args.length ≤ params.length ∨ variadic.isSome
      · simp [hroom, positionalPairs]
      · simp [hroom]

theorem mem_positionalPairs {variadic : Option SemanticCallableParam} {args : List A}
    {pair : Bound A} (h : pair ∈ positionalPairs variadic params args) :
    pair ∈ args.zip params ∨ (pair.1 ∈ args.drop params.length ∧ variadic = some pair.2) := by
  rcases List.mem_append.1 h with hzip | hextra
  · exact .inl hzip
  · rcases List.mem_flatMap.1 hextra with ⟨arg, harg, hmem⟩
    rcases List.mem_map.1 hmem with ⟨param, hparam, rfl⟩
    exact .inr ⟨harg, Option.mem_toList.1 hparam⟩

/-- The parameters that positional arguments are bound to. -/
theorem mem_zip_params {args : List A} :
    (∃ arg, (arg, param) ∈ args.zip params) ↔ param ∈ params.take args.length := by
  induction args generalizing params with
  | nil => simp
  | cons arg args ih =>
    cases params with
    | nil => simp
    | cons first params =>
      rw [List.length_cons, List.take_succ_cons, List.mem_cons, ← ih]
      simp [exists_or]

end Spec

/-! ## The call and the strays -/

section Agreement

variable (isAssignable : SemanticType → SemanticType → Bool) (params : List SemanticCallableParam)
  (positional : List (Option SemanticType)) (keywords : List (String × Option SemanticType))

/-- The arguments bind, and those of known type are assignable to the annotation of the parameter
they are bound to. -/
def BindsAndFits : Prop :=
  ∃ bound, bindArguments params positional keywords = some bound
    ∧ ∀ pair ∈ bound, argFits isAssignable pair.1 pair.2.paramType = true

/-- What does not depend on variadic parameters: there is room for the positional arguments, no
parameter is given twice, none is missing, and the arguments of parameters that are not variadic
fit. -/
structure Ordinary : Prop where
  room : positional.length ≤ (positionalParams params).length
    ∨ (params.find? SemanticCallableParam.variadic).isSome
  single : ∀ keyword ∈ keywords, ∀ param ∈ (positionalParams params).take positional.length,
    param.acceptsKeyword = true → param.name ≠ keyword.1
  complete : ∀ param ∈ params, param.hasDefault = true ∨ param.isVariadic = true
    ∨ param ∈ (positionalParams params).take positional.length
    ∨ (param.acceptsKeyword = true ∧ ∃ keyword ∈ keywords, param.name = keyword.1)
  positionalFits : ∀ pair ∈ positional.zip (positionalParams params),
    argFits isAssignable pair.1 pair.2.paramType = true
  keywordFits : ∀ keyword ∈ keywords, ∀ param ∈ params, param.acceptsKeyword = true →
    param.name = keyword.1 → argFits isAssignable keyword.2 param.annotation = true

/-- The positional arguments that only `*args` can take. -/
def strayPositional : List (Option SemanticType) := positional.drop (positionalParams params).length

/-- No parameter takes the keyword by its name. -/
def IsStray (keyword : String) : Prop :=
  ∀ param ∈ params, param.acceptsKeyword = true → param.name ≠ keyword

/-- A variadic parameter is there and an argument fits it. -/
def variadicFits (variadic : Option SemanticCallableParam) (argType : Option SemanticType) : Bool :=
  match variadic with
  | none => false
  | some param => argFits isAssignable argType param.annotation

/-- Python passes the strays to the variadic parameters, and they fit. -/
structure PythonTakesStrays : Prop where
  takesPositional : ∀ argType ∈ strayPositional params positional,
    variadicFits isAssignable (params.find? SemanticCallableParam.variadic) argType = true
  takesKeywords : ∀ keyword ∈ keywords, IsStray params keyword.1 →
    variadicFits isAssignable (params.find? SemanticCallableParam.keywordVariadic) keyword.2 = true

/-- The check lets a keyword pass: some parameter takes it, no positional argument is given to a
parameter of its name, and it fits the parameter that is found by its name. -/
def keywordPasses (positionalCount : Nat) (keyword : String × Option SemanticType) : Bool :=
  (namesKeywordParam params keyword.1 || acceptsExtraKeywords params)
    && !(((positionalParams params).map SemanticCallableParam.name).take positionalCount).contains
      keyword.1
    && keywordArgOk isAssignable params keyword.1 keyword.2

/-- The check lets the strays pass. -/
structure CheckTakesStrays : Prop where
  takesPositional : ∀ argType ∈ strayPositional params positional,
    extraArgFits isAssignable (variadicType params) argType = true
  takesKeywords : ∀ keyword ∈ keywords, IsStray params keyword.1 →
    keywordPasses isAssignable params positional.length keyword = true

/-- Each stray is judged as Python would: by the variadic parameter of its kind, also if that has
no annotation or another parameter has the name of the keyword. -/
structure StraysJudgedAlike : Prop where
  positionalAlike : ∀ argType ∈ strayPositional params positional,
    extraArgFits isAssignable (variadicType params) argType
      = variadicFits isAssignable (params.find? SemanticCallableParam.variadic) argType
  keywordsAlike : ∀ keyword ∈ keywords, IsStray params keyword.1 →
    keywordPasses isAssignable params positional.length keyword
      = variadicFits isAssignable (params.find? SemanticCallableParam.keywordVariadic) keyword.2

end Agreement

/-! ## Python's binding in parts -/

variable {keyword : String}

section Python

variable {isAssignable : SemanticType → SemanticType → Bool} {params : List SemanticCallableParam}
  {positional : List (Option SemanticType)} {keywords : List (String × Option SemanticType)}

theorem param_eq_of_name (hnames : (params.map SemanticCallableParam.name).Nodup)
    {first second : SemanticCallableParam} (hfirst : first ∈ params) (hsecond : second ∈ params)
    (hname : first.name = second.name) : first = second :=
  List.inj_on_of_nodup_map hnames hfirst hsecond hname

theorem mem_params_of_positional {count : Nat} (h : param ∈ (positionalParams params).take count) :
    param ∈ params ∧ param.isPositional = true :=
  List.mem_filter.1 (List.mem_of_mem_take h)

/-- The parameter a keyword goes to. -/
theorem find_keyword (hnames : (params.map SemanticCallableParam.name).Nodup)
    (hparam : param ∈ params) (hkeyword : param.acceptsKeyword = true)
    (hname : param.name = keyword) :
    (params.find? fun param => param.acceptsKeyword && param.name = keyword) = some param := by
  cases hfound : params.find? fun param => param.acceptsKeyword && param.name = keyword with
  | none =>
    have hnone := List.find?_eq_none.1 hfound param hparam
    simp [hkeyword, hname] at hnone
  | some other =>
    have htest := List.find?_some hfound
    rw [Bool.and_eq_true, decide_eq_true_eq] at htest
    have hother := List.mem_of_find?_eq_some hfound
    rw [param_eq_of_name hnames hother hparam (htest.2.trans hname.symm)]

theorem find_keyword_eq_none (h : IsStray params keyword) :
    (params.find? fun param => param.acceptsKeyword && param.name = keyword) = none := by
  rw [List.find?_eq_none]
  intro param hparam htest
  rw [Bool.and_eq_true, decide_eq_true_eq] at htest
  exact h param hparam htest.1 htest.2

theorem exists_of_not_isStray (h : ¬ IsStray params keyword) :
    ∃ param ∈ params, param.acceptsKeyword = true ∧ param.name = keyword := by
  simp only [IsStray, not_forall, ne_eq, not_not] at h
  rcases h with ⟨param, hparam, hkeyword, hname⟩
  exact ⟨param, hparam, hkeyword, hname⟩

/-- The pairs of the positional arguments of a call. -/
abbrev callPairs (params : List SemanticCallableParam) (positional : List (Option SemanticType)) :
    List (Bound (Option SemanticType)) :=
  positionalPairs (params.find? SemanticCallableParam.variadic) (positionalParams params) positional

/-- Of the parameters that are not variadic, the first ones get the positional arguments. -/
theorem positional_bound_iff (hplain : param.isVariadic = false) :
    (∃ pair ∈ callPairs params positional, pair.2 = param)
      ↔ param ∈ (positionalParams params).take positional.length := by
  rw [← mem_zip_params]
  constructor
  · rintro ⟨pair, hpair, rfl⟩
    rcases mem_positionalPairs hpair with hzip | ⟨-, hvariadic⟩
    · exact ⟨pair.1, hzip⟩
    · have htest := List.find?_some hvariadic
      simp [SemanticCallableParam.isVariadic, htest] at hplain
  · rintro ⟨argType, hzip⟩
    exact ⟨_, List.mem_append_left _ hzip, rfl⟩

theorem not_variadic_of_acceptsKeyword (h : param.acceptsKeyword = true) :
    param.isVariadic = false := by
  simp only [SemanticCallableParam.acceptsKeyword, Bool.and_eq_true, Bool.not_eq_true'] at h
  simp [SemanticCallableParam.isVariadic, h]

/-- A keyword that names a parameter goes to it, unless a positional argument does. -/
theorem bindKeyword_named (hnames : (params.map SemanticCallableParam.name).Nodup)
    {keyword : String × Option SemanticType} (hparam : param ∈ params)
    (hkeyword : param.acceptsKeyword = true) (hname : param.name = keyword.1)
    {bound : Bound (Option SemanticType)} :
    bindKeyword params (callPairs params positional) keyword = some bound
      ↔ param ∉ (positionalParams params).take positional.length ∧ bound = (keyword.2, param) := by
  unfold bindKeyword
  rw [find_keyword hnames hparam hkeyword hname,
    ← positional_bound_iff (not_variadic_of_acceptsKeyword hkeyword)]
  dsimp only
  split
  · rename_i hany
    simp only [List.any_eq_true, decide_eq_true_eq] at hany
    simp [hany]
  · rename_i hany
    simp only [List.any_eq_true, decide_eq_true_eq] at hany
    rw [Option.some.injEq, eq_comm]
    exact (and_iff_right hany).symm

theorem bindKeyword_stray {keyword : String × Option SemanticType}
    (hstray : IsStray params keyword.1) (pairs : List (Bound (Option SemanticType))) :
    bindKeyword params pairs keyword
      = (params.find? SemanticCallableParam.keywordVariadic).map fun param => (keyword.2, param) := by
  unfold bindKeyword
  rw [find_keyword_eq_none hstray]

theorem variadicFits_eq_true {variadic : Option SemanticCallableParam}
    {argType : Option SemanticType} :
    variadicFits isAssignable variadic argType = true
      ↔ ∃ param, variadic = some param ∧ argFits isAssignable argType param.annotation = true := by
  cases variadic <;> simp [variadicFits]

/-- What it takes that the arguments bind. -/
theorem bindArguments_eq_some {bound : List (Bound (Option SemanticType))} :
    bindArguments params positional keywords = some bound
      ↔ (positional.length ≤ (positionalParams params).length
          ∨ (params.find? SemanticCallableParam.variadic).isSome)
        ∧ ∃ boundKeywords,
          keywords.mapM (bindKeyword params (callPairs params positional)) = some boundKeywords
            ∧ bound = callPairs params positional ++ boundKeywords
            ∧ ∀ param ∈ params, param.hasDefault = true ∨ param.isVariadic = true
              ∨ ∃ pair ∈ bound, pair.2 = param := by
  unfold bindArguments
  rw [bindPositional_eq]
  by_cases hroom : positional.length ≤ (positionalParams params).length
      ∨ (params.find? SemanticCallableParam.variadic).isSome
  · rw [if_pos hroom]
    simp only [Option.bind_eq_bind, Option.bind_some, hroom, true_and]
    rw [Option.bind_eq_some_iff]
    refine exists_congr fun boundKeywords => and_congr_right fun _ => ?_
    simp only [Option.ite_none_right_eq_some, List.all_eq_true, Bool.or_eq_true, List.any_eq_true,
      decide_eq_true_eq, Option.some.injEq, or_assoc]
    constructor
    · rintro ⟨hall, rfl⟩
      exact ⟨rfl, hall⟩
    · rintro ⟨rfl, hall⟩
      exact ⟨hall, rfl⟩
  · rw [if_neg hroom]
    constructor
    · intro h
      cases h
    · intro h
      exact absurd h.1 hroom

/-- Where the arguments bind and fit, what does not depend on variadic parameters is right, and
the strays find theirs. -/
theorem ordinary_of_binds (hnames : (params.map SemanticCallableParam.name).Nodup)
    (h : BindsAndFits isAssignable params positional keywords) :
    Ordinary isAssignable params positional keywords
      ∧ PythonTakesStrays isAssignable params positional keywords := by
  rcases h with ⟨bound, hbind, hfits⟩
  rcases bindArguments_eq_some.1 hbind with ⟨hroom, boundKeywords, hkeywords, rfl, hcomplete⟩
  -- each keyword is bound to something that it fits
  have hkeyword : ∀ keyword ∈ keywords, ∃ pair,
      bindKeyword params (callPairs params positional) keyword = some pair
        ∧ argFits isAssignable pair.1 pair.2.paramType = true := by
    intro keyword hmem
    rcases mapM_defined hkeywords keyword hmem with ⟨pair, hpair, heq⟩
    exact ⟨pair, heq, hfits pair (List.mem_append_right _ hpair)⟩
  have hnamed : ∀ keyword ∈ keywords, ∀ param ∈ params, param.acceptsKeyword = true →
      param.name = keyword.1 → param ∉ (positionalParams params).take positional.length
        ∧ argFits isAssignable keyword.2 param.annotation = true := by
    intro keyword hmem param hparam haccepts hname
    rcases hkeyword keyword hmem with ⟨pair, hpair, hfit⟩
    rcases (bindKeyword_named hnames hparam haccepts hname).1 hpair with ⟨hfree, rfl⟩
    exact ⟨hfree, hfit⟩
  refine ⟨⟨hroom, ?_, ?_, ?_, ?_⟩, ⟨?_, ?_⟩⟩
  · intro keyword hmem param hparam haccepts hname
    exact (hnamed keyword hmem param (mem_params_of_positional hparam).1 haccepts hname).1 hparam
  · intro param hparam
    rcases hcomplete param hparam with hdefault | hvariadic | ⟨pair, hpair, rfl⟩
    · exact .inl hdefault
    · exact .inr (.inl hvariadic)
    · cases hkind : pair.2.isVariadic with
      | true => exact .inr (.inl rfl)
      | false =>
        refine .inr (.inr ?_)
        rcases List.mem_append.1 hpair with hpositional | hbound
        · exact .inl ((positional_bound_iff hkind).1 ⟨pair, hpositional, rfl⟩)
        · rcases (mapM_spec hkeywords pair).1 hbound with ⟨keyword, hmem, heq⟩
          by_cases hstray : IsStray params keyword.1
          · -- a stray goes to `**kwargs`, which is variadic
            rw [bindKeyword_stray hstray] at heq
            rcases Option.map_eq_some_iff.1 heq with ⟨variadic, hfound, rfl⟩
            have htest := List.find?_some hfound
            simp [SemanticCallableParam.isVariadic, htest] at hkind
          · rcases exists_of_not_isStray hstray with ⟨named, hnamedmem, haccepts, hname⟩
            rcases (bindKeyword_named hnames hnamedmem haccepts hname).1 heq with ⟨-, rfl⟩
            exact .inr ⟨haccepts, keyword, hmem, hname⟩
  · intro pair hpair
    exact hfits pair (List.mem_append_left _ (List.mem_append_left _ hpair))
  · intro keyword hmem param hparam haccepts hname
    exact (hnamed keyword hmem param hparam haccepts hname).2
  · intro argType hstray
    have hextra : positional.length > (positionalParams params).length := by
      by_contra hle
      rw [strayPositional, List.drop_eq_nil_of_le (Nat.not_lt.1 hle)] at hstray
      cases hstray
    rcases hroom with hle | hvariadic
    · omega
    · rcases Option.isSome_iff_exists.1 hvariadic with ⟨param, hparam⟩
      refine variadicFits_eq_true.2 ⟨param, hparam, hfits (argType, param) ?_⟩
      refine List.mem_append_left _ (List.mem_append_right _ ?_)
      exact List.mem_flatMap.2 ⟨argType, hstray, by simp [hparam]⟩
  · intro keyword hmem hstray
    rcases hkeyword keyword hmem with ⟨pair, hpair, hfit⟩
    rw [bindKeyword_stray hstray] at hpair
    rcases Option.map_eq_some_iff.1 hpair with ⟨param, hparam, rfl⟩
    exact variadicFits_eq_true.2 ⟨param, hparam, hfit⟩

/-- And these are enough. -/
theorem binds_of_ordinary (hnames : (params.map SemanticCallableParam.name).Nodup)
    (hordinary : Ordinary isAssignable params positional keywords)
    (hstrays : PythonTakesStrays isAssignable params positional keywords) :
    BindsAndFits isAssignable params positional keywords := by
  have hnamed : ∀ keyword ∈ keywords, ∀ param ∈ params, param.acceptsKeyword = true →
      param.name = keyword.1 → bindKeyword params (callPairs params positional) keyword
        = some (keyword.2, param) := by
    intro keyword hmem param hparam haccepts hname
    refine (bindKeyword_named hnames hparam haccepts hname).2 ⟨?_, rfl⟩
    intro htaken
    exact hordinary.single keyword hmem param htaken haccepts hname
  -- each keyword is bound, and what it is bound to it fits
  have hkeyword : ∀ keyword ∈ keywords, ∃ pair,
      bindKeyword params (callPairs params positional) keyword = some pair
        ∧ argFits isAssignable pair.1 pair.2.paramType = true := by
    intro keyword hmem
    by_cases hstray : IsStray params keyword.1
    · rcases variadicFits_eq_true.1 (hstrays.takesKeywords keyword hmem hstray)
        with ⟨param, hparam, hfit⟩
      refine ⟨(keyword.2, param), ?_, hfit⟩
      rw [bindKeyword_stray hstray, hparam]
      rfl
    · rcases exists_of_not_isStray hstray with ⟨param, hparam, haccepts, hname⟩
      exact ⟨_, hnamed keyword hmem param hparam haccepts hname,
        hordinary.keywordFits keyword hmem param hparam haccepts hname⟩
  have hsome : ∀ keyword ∈ keywords,
      (bindKeyword params (callPairs params positional) keyword).isSome := by
    intro keyword hmem
    rcases hkeyword keyword hmem with ⟨pair, hpair, -⟩
    rw [hpair]
    rfl
  rcases mapM_isSome hsome with ⟨boundKeywords, hbound⟩
  refine ⟨_, bindArguments_eq_some.2 ⟨hordinary.room, boundKeywords, hbound, rfl, ?_⟩, ?_⟩
  · intro param hparam
    rcases hordinary.complete param hparam with hdefault | hvariadic | htaken | ⟨haccepts, hgiven⟩
    · exact .inl hdefault
    · exact .inr (.inl hvariadic)
    · refine .inr (.inr ?_)
      rcases mem_zip_params.2 htaken with ⟨argType, hzip⟩
      exact ⟨_, List.mem_append_left _ (List.mem_append_left _ hzip), rfl⟩
    · rcases hgiven with ⟨keyword, hmem, hname⟩
      have hpair := (mapM_spec hbound _).2
        ⟨keyword, hmem, hnamed keyword hmem param hparam haccepts hname⟩
      exact .inr (.inr ⟨_, List.mem_append_right _ hpair, rfl⟩)
  · intro pair hpair
    rcases List.mem_append.1 hpair with hpositional | hmem
    · rcases mem_positionalPairs hpositional with hzip | ⟨hstray, hvariadic⟩
      · exact hordinary.positionalFits pair hzip
      · rcases variadicFits_eq_true.1 (hstrays.takesPositional pair.1 hstray)
          with ⟨param, hparam, hfit⟩
        rw [hvariadic] at hparam
        cases hparam
        exact hfit
    · rcases (mapM_spec hbound pair).1 hmem with ⟨keyword, hkeywordmem, heq⟩
      rcases hkeyword keyword hkeywordmem with ⟨other, hother, hfit⟩
      rw [heq] at hother
      cases hother
      exact hfit

/-- Python's binding, and the types, in parts. -/
theorem bindsAndFits_iff (hnames : (params.map SemanticCallableParam.name).Nodup) :
    BindsAndFits isAssignable params positional keywords
      ↔ Ordinary isAssignable params positional keywords
        ∧ PythonTakesStrays isAssignable params positional keywords :=
  ⟨ordinary_of_binds hnames, fun h => binds_of_ordinary hnames h.1 h.2⟩

end Python

/-! ## The check in parts -/

section Check

variable {params : List SemanticCallableParam}

/-- The positional parameters come first. -/
theorem params_split (hvalid : ParamsAccepted params) :
    positionalParams params ++ params.filter (fun param => !param.isPositional) = params := by
  have hrank : ∀ param ∈ params, (param.isPositional = true ↔ param.rank ≤ 1) := by
    intro param hparam
    have hkind := hvalid.oneKind param hparam
    unfold SemanticCallableParam.isPositional SemanticCallableParam.rank
    revert hkind
    cases param.positionalOnly <;> cases param.variadic <;> cases param.keywordOnly <;>
      cases param.keywordVariadic <;> decide
  have hfirst : params.Pairwise fun first second =>
      second.isPositional = true → first.isPositional = true := by
    refine hvalid.order.imp_of_mem fun {first second} hmem hmem' h hpositional => ?_
    rw [hrank _ hmem]
    exact Nat.le_trans h.1 ((hrank _ hmem').1 hpositional)
  clear hvalid hrank
  induction params with
  | nil => rfl
  | cons param params ih =>
    rw [List.pairwise_cons] at hfirst
    have hrest := ih hfirst.2
    cases hparam : param.isPositional with
    | true =>
      simp only [positionalParams] at hrest ⊢
      simp [hparam, hrest]
    | false =>
      -- nothing positional comes after a parameter that is not
      have hnone : positionalParams params = [] := by
        rw [positionalParams, List.filter_eq_nil_iff]
        intro other hother hpositional
        rw [hfirst.1 other hother hpositional] at hparam
        cases hparam
      rw [hnone, List.nil_append] at hrest
      simp only [positionalParams] at hnone ⊢
      simp [hparam, hnone, hrest]

theorem zip_annotations (args : List (Option SemanticType)) (first rest : List SemanticCallableParam) :
    (args.take first.length).zip ((first ++ rest).map SemanticCallableParam.annotation)
      = (args.zip first).map fun pair => (pair.1, pair.2.paramType) := by
  induction first generalizing args with
  | nil => simp
  | cons param first ih =>
    cases args with
    | nil => rfl
    | cons arg args =>
      rw [List.length_cons, List.take_succ_cons, List.cons_append, List.map_cons,
        List.zip_cons_cons, List.zip_cons_cons, List.map_cons, ih]

/-- A positional parameter is among the first ones exactly if its index is small. -/
theorem mem_take_positional (hvalid : ParamsAccepted params) {index count : Nat}
    (hparam : params[index]? = some param) (hpositional : param.isPositional = true) :
    param ∈ (positionalParams params).take count ↔ index < count := by
  have hnodup : params.Nodup := List.Nodup.of_map _ hvalid.names
  have hget : (positionalParams params ++ params.filter fun param => !param.isPositional)[index]?
      = some param := by rw [params_split hvalid]; exact hparam
  have hfirst : (positionalParams params)[index]? = some param := by
    rcases Nat.lt_or_ge index (positionalParams params).length with hlt | hge
    · rwa [List.getElem?_append_left hlt] at hget
    · -- the others are not positional
      rw [List.getElem?_append_right hge] at hget
      have hrest := (List.mem_filter.1 (List.mem_of_getElem? hget)).2
      rw [hpositional] at hrest
      cases hrest
  constructor
  · intro hmem
    rcases List.mem_iff_getElem?.1 hmem with ⟨other, hother⟩
    rw [List.getElem?_take] at hother
    split at hother
    · rename_i hlt
      have hbound : index < (positionalParams params).length :=
        (List.getElem?_eq_some_iff.1 hfirst).1
      have heq := (List.getElem?_inj hbound (hnodup.filter _)).1 (hfirst.trans hother.symm)
      omega
    · cases hother
  · intro hlt
    refine List.mem_iff_getElem?.2 ⟨index, ?_⟩
    rw [List.getElem?_take, if_pos hlt]
    exact hfirst

variable {isAssignable : SemanticType → SemanticType → Bool}
  {positional : List (Option SemanticType)} {keywords : List (String × Option SemanticType)}

theorem kind_of_param (hvalid : ParamsAccepted params) (hparam : param ∈ params) :
    (param.keywordOnly = true → param.acceptsKeyword = true ∧ param.isPositional = false
        ∧ param.isVariadic = false)
      ∧ (param.isVariadic = false → param.keywordOnly = false →
        param.isPositional = true ∧ param.acceptsKeyword = !param.positionalOnly) := by
  have hkind := hvalid.oneKind param hparam
  revert hkind
  unfold SemanticCallableParam.acceptsKeyword SemanticCallableParam.isPositional
    SemanticCallableParam.isVariadic
  cases param.positionalOnly <;> cases param.variadic <;> cases param.keywordOnly <;>
    cases param.keywordVariadic <;> decide

/-- The scan for missing arguments finds none exactly if each parameter has one. -/
theorem nothing_missing_iff (hvalid : ParamsAccepted params) (keywordNames : List String)
    (count : Nat) :
    (params.mapIdx (paramIsMissing keywordNames [] count)).contains true = false
      ↔ ∀ param ∈ params, param.hasDefault = true ∨ param.isVariadic = true
        ∨ param ∈ (positionalParams params).take count
        ∨ (param.acceptsKeyword = true ∧ param.name ∈ keywordNames) := by
  have hone : ∀ (index : Nat) (param : SemanticCallableParam), params[index]? = some param →
      (paramIsMissing keywordNames [] count index param = false
        ↔ param.hasDefault = true ∨ param.isVariadic = true
          ∨ param ∈ (positionalParams params).take count
          ∨ (param.acceptsKeyword = true ∧ param.name ∈ keywordNames)) := by
    intro index param hindex
    have hmem := List.mem_of_getElem? hindex
    have hkinds := kind_of_param hvalid hmem
    have hnotTaken : param.isPositional = false →
        param ∉ (positionalParams params).take count := by
      intro hnot htaken
      rw [(mem_params_of_positional htaken).2] at hnot
      cases hnot
    unfold paramIsMissing
    cases hkeywordOnly : param.keywordOnly with
    | true =>
      rcases hkinds.1 hkeywordOnly with ⟨haccepts, hposition, hvariadic⟩
      have htaken := hnotTaken hposition
      cases hdefault : param.hasDefault <;>
        simp [expansionProvides, haccepts, hvariadic, htaken]
    | false =>
      cases hvariadic : param.isVariadic with
      | true =>
        have hor : (param.variadic || param.keywordVariadic) = true := hvariadic
        simp [hor]
      | false =>
        have hor : (param.variadic || param.keywordVariadic) = false := hvariadic
        rcases hkinds.2 hvariadic hkeywordOnly with ⟨hposition, haccepts⟩
        rw [mem_take_positional hvalid hindex hposition, haccepts]
        cases hdefault : param.hasDefault <;> cases honly : param.positionalOnly <;>
          simp [expansionProvides, hor]
        by_cases hlt : index < count <;> simp [hlt, Nat.not_le.2, Nat.not_lt.1]
  have hnone : (params.mapIdx (paramIsMissing keywordNames [] count)).contains true = false
      ↔ ∀ (index : Nat) (param : SemanticCallableParam), params[index]? = some param →
        paramIsMissing keywordNames [] count index param = false := by
    rw [← Bool.not_eq_true, List.contains_iff_mem, List.mem_iff_getElem?]
    simp only [List.getElem?_mapIdx, not_exists, Option.map_eq_some_iff, not_and,
      Bool.not_eq_true]
  rw [hnone]
  constructor
  · intro h param hparam
    rcases List.mem_iff_getElem?.1 hparam with ⟨index, hindex⟩
    exact (hone index param hindex).1 (h index param hindex)
  · intro h index param hindex
    exact (hone index param hindex).2 (h param (List.mem_of_getElem? hindex))

/-- The types of the positional arguments are right exactly if those of the parameters are, and the
strays pass. -/
theorem positionalOk_iff (hvalid : ParamsAccepted params)
    (typeMatches : SemanticType → SemanticType → Bool) :
    positionalOk isAssignable typeMatches params positional [] = true
      ↔ (∀ pair ∈ positional.zip (positionalParams params),
          argFits isAssignable pair.1 pair.2.paramType = true)
        ∧ ∀ argType ∈ strayPositional params positional,
          extraArgFits isAssignable (variadicType params) argType = true := by
  have hzip : (positional.take (positionalParams params).length).zip
        (params.map SemanticCallableParam.annotation)
      = (positional.zip (positionalParams params)).map fun pair => (pair.1, pair.2.paramType) := by
    have h := zip_annotations positional (positionalParams params)
      (params.filter fun param => !param.isPositional)
    rwa [params_split hvalid] at h
  unfold positionalOk
  dsimp only
  rw [hzip]
  simp only [List.all_nil, Bool.and_true, Bool.and_eq_true, List.all_eq_true, List.forall_mem_map,
    strayPositional]

/-- A keyword that names a parameter passes exactly if no positional argument is given to the
parameter and the keyword fits it. -/
theorem keywordPasses_named (hvalid : ParamsAccepted params) {count : Nat}
    {keyword : String × Option SemanticType} (hparam : param ∈ params)
    (haccepts : param.acceptsKeyword = true) (hname : param.name = keyword.1) :
    keywordPasses isAssignable params count keyword = true
      ↔ param ∉ (positionalParams params).take count
        ∧ argFits isAssignable keyword.2 param.annotation = true := by
  have hnot : param.positionalOnly = false := by
    simp only [SemanticCallableParam.acceptsKeyword, Bool.and_eq_true, Bool.not_eq_true'] at haccepts
    exact haccepts.1.1
  have hnames : namesKeywordParam params keyword.1 = true :=
    List.any_eq_true.2 ⟨param, hparam, by simp [hname, hnot]⟩
  have hfind : (params.find? fun param => param.name = keyword.1) = some param := by
    cases hfound : params.find? fun param => param.name = keyword.1 with
    | none =>
      have hnone := List.find?_eq_none.1 hfound param hparam
      simp [hname] at hnone
    | some other =>
      have htest := List.find?_some hfound
      rw [decide_eq_true_eq] at htest
      have hother := List.mem_of_find?_eq_some hfound
      rw [param_eq_of_name hvalid.names hother hparam (htest.trans hname.symm)]
  have htaken : keyword.1 ∈ ((positionalParams params).map SemanticCallableParam.name).take count
      ↔ param ∈ (positionalParams params).take count := by
    rw [← List.map_take, List.mem_map]
    constructor
    · rintro ⟨other, hother, heq⟩
      rwa [← param_eq_of_name hvalid.names (mem_params_of_positional hother).1 hparam
        (heq.trans hname.symm)]
    · intro hmem
      exact ⟨param, hmem, hname⟩
  unfold keywordPasses keywordArgOk
  rw [hnames, hfind]
  simp only [Bool.true_or, Bool.true_and, Bool.and_eq_true, Bool.not_eq_true', ← htaken,
    List.contains_eq_mem, decide_eq_false_iff_not]

end Check

/-! ## Agreement -/

section Calls

variable {Arg : Type} (types : ArgumentTypes Arg) (call : CallArguments Arg)
  (params : List SemanticCallableParam)

/-- A call with positional arguments and distinct keywords, none of them starred, whose values
are resolved without diagnostics. -/
structure PlainCall : Prop where
  noStars : call.starredArgValues = []
  noExpansions : call.keywordExpansionValues = []
  counted : call.argCount = call.argValues.length
  valued : call.keywordNames.length = call.keywordArgValues.length
  distinct : call.keywordNames.Nodup
  quiet : someArgHasDiagnostics types call.argValues
    (expectedPositionalArgSemanticTypes params call.argCount) = false
  quietKeywords : someArgHasDiagnostics types call.keywordArgValues
    (expectedKeywordArgSemanticTypes params call.keywordNames) = false

/-- The keywords of a call with the types of their values. -/
def typedKeywords : List (String × Option SemanticType) :=
  call.keywordNames.zip (resolvedKeywordArgTypes types call params)

variable {types call params}
variable {isAssignable : SemanticType → SemanticType → Bool}

theorem typedKeywords_names (hcall : PlainCall types call params) :
    (typedKeywords types call params).map Prod.fst = call.keywordNames := by
  have hlength : call.keywordNames.length ≤ (resolvedKeywordArgTypes types call params).length := by
    rw [resolvedKeywordArgTypes, resolvedArgTypes, List.length_mapIdx]
    exact Nat.le_of_eq hcall.valued
  exact List.map_fst_zip hlength

/-- A statement about the keywords of a call is one about their names. -/
theorem forall_keywordNames (hcall : PlainCall types call params) (P : String → Prop) :
    (∀ name ∈ call.keywordNames, P name)
      ↔ ∀ keyword ∈ typedKeywords types call params, P keyword.1 := by
  rw [← typedKeywords_names hcall, List.forall_mem_map]

theorem mem_keywordNames (hcall : PlainCall types call params) (name : String) :
    name ∈ call.keywordNames
      ↔ ∃ keyword ∈ typedKeywords types call params, name = keyword.1 := by
  rw [← typedKeywords_names hcall, List.mem_map]
  simp only [eq_comm]

theorem guard_eq_true (test rest : Bool) :
    (if test then false else rest) = true ↔ test = false ∧ rest = true := by
  cases test <;> simp

/-- The check in parts. -/
theorem applicable_iff (hvalid : ParamsAccepted params) (hcall : PlainCall types call params)
    (typeMatches : SemanticType → SemanticType → Bool) :
    callSignatureParamsAreApplicable isAssignable typeMatches types call params = true
      ↔ Ordinary isAssignable params (plainPositionalTypes types call params)
          (typedKeywords types call params)
        ∧ CheckTakesStrays isAssignable params (plainPositionalTypes types call params)
          (typedKeywords types call params) := by
  have hpositional : positionalTypes types call params = plainPositionalTypes types call params := by
    simp [positionalTypes, starredPositional, hcall.noStars]
  have hstarred : variadicStarredTypes types call = [] := by
    simp [variadicStarredTypes, starredPositional, hcall.noStars]
  have hexpansions : keywordExpansions types call = [] := by
    simp [keywordExpansions, hcall.noExpansions]
  have hcount : call.argCount = (plainPositionalTypes types call params).length := by
    rw [plainPositionalTypes, resolvedArgTypes, List.length_mapIdx, hcall.counted]
  -- the scans, one for each `if`
  have hscans : callSignatureParamsAreApplicable isAssignable typeMatches types call params = true
      ↔ ((plainPositionalTypes types call params).length ≤ (positionalParams params).length
          ∨ (params.find? SemanticCallableParam.variadic).isSome)
        ∧ (∀ name ∈ call.keywordNames,
          (namesKeywordParam params name || acceptsExtraKeywords params) = true)
        ∧ (∀ name ∈ call.keywordNames, (((positionalParams params).map
          SemanticCallableParam.name).take (plainPositionalTypes types call params).length).contains
            name = false)
        ∧ (params.mapIdx (paramIsMissing call.keywordNames []
          (plainPositionalTypes types call params).length)).contains true = false
        ∧ positionalOk isAssignable typeMatches params (plainPositionalTypes types call params) []
          = true
        ∧ ∀ keyword ∈ typedKeywords types call params,
          keywordArgOk isAssignable params keyword.1 keyword.2 = true := by
    unfold callSignatureParamsAreApplicable keywordDuplicatesPositionalArguments
    rw [hcall.quiet, hcall.quietKeywords, hpositional, hstarred, hexpansions, hcount]
    have hroom : (!params.any SemanticCallableParam.variadic
          && (decide ((positionalParams params).length
            < (plainPositionalTypes types call params).length) || !([] : List SemanticType).isEmpty))
          = false
        ↔ (plainPositionalTypes types call params).length ≤ (positionalParams params).length
          ∨ (params.find? SemanticCallableParam.variadic).isSome := by
      rw [List.find?_isSome, ← List.any_eq_true]
      cases params.any SemanticCallableParam.variadic <;> simp
    have hkeywords : keywordOk isAssignable typeMatches params call.keywordNames
          (resolvedKeywordArgTypes types call params) [] = true
        ↔ ∀ keyword ∈ typedKeywords types call params,
          keywordArgOk isAssignable params keyword.1 keyword.2 = true := by
      simp [keywordOk, typedKeywords, List.all_eq_true]
    have hunexpected : (call.keywordNames.any fun keyword =>
          !namesKeywordParam params keyword && !acceptsExtraKeywords params) = false
        ↔ ∀ name ∈ call.keywordNames,
          (namesKeywordParam params name || acceptsExtraKeywords params) = true := by
      rw [List.any_eq_false]
      refine forall_congr' fun name => imp_congr_right fun _ => ?_
      cases namesKeywordParam params name <;> cases acceptsExtraKeywords params <;> decide
    have hfree : (call.keywordNames.any fun keyword => (((positionalParams params).map
          SemanticCallableParam.name).take (plainPositionalTypes types call params).length).contains
            keyword) = false
        ↔ ∀ name ∈ call.keywordNames, (((positionalParams params).map
          SemanticCallableParam.name).take (plainPositionalTypes types call params).length).contains
            name = false := by
      simp only [List.any_eq_false, Bool.not_eq_true]
    simp only [guard_eq_true, List.any_nil, Bool.false_eq_true, if_false]
    rw [hroom, hunexpected, hfree, Bool.and_eq_true, hkeywords]
  rw [hscans, nothing_missing_iff hvalid, positionalOk_iff hvalid, forall_keywordNames hcall,
    forall_keywordNames hcall]
  simp only [mem_keywordNames hcall]
  have hpasses : ∀ keyword : String × Option SemanticType,
      keywordPasses isAssignable params (plainPositionalTypes types call params).length keyword
          = true
        ↔ (namesKeywordParam params keyword.1 || acceptsExtraKeywords params) = true
          ∧ (((positionalParams params).map SemanticCallableParam.name).take
            (plainPositionalTypes types call params).length).contains keyword.1 = false
          ∧ keywordArgOk isAssignable params keyword.1 keyword.2 = true := by
    intro keyword
    rw [keywordPasses, Bool.and_eq_true, Bool.and_eq_true, Bool.not_eq_true', and_assoc]
  constructor
  · rintro ⟨hroom, hnamed, hfree, hcomplete, ⟨hpositionalFits, hstrays⟩, hkeywords⟩
    have hall : ∀ keyword ∈ typedKeywords types call params, keywordPasses isAssignable params
        (plainPositionalTypes types call params).length keyword = true := by
      intro keyword hmem
      exact (hpasses keyword).2 ⟨hnamed keyword hmem, hfree keyword hmem, hkeywords keyword hmem⟩
    refine ⟨⟨hroom, ?_, hcomplete, hpositionalFits, ?_⟩, ⟨hstrays, fun keyword hmem _ =>
      hall keyword hmem⟩⟩
    · intro keyword hmem param htaken haccepts hname
      have hparam := (mem_params_of_positional htaken).1
      exact ((keywordPasses_named hvalid hparam haccepts hname).1 (hall keyword hmem)).1 htaken
    · intro keyword hmem param hparam haccepts hname
      exact ((keywordPasses_named hvalid hparam haccepts hname).1 (hall keyword hmem)).2
  · rintro ⟨hordinary, hstrays⟩
    -- a keyword passes because it is a stray, or because it names a parameter
    have hall : ∀ keyword ∈ typedKeywords types call params, keywordPasses isAssignable params
        (plainPositionalTypes types call params).length keyword = true := by
      intro keyword hmem
      by_cases hstray : IsStray params keyword.1
      · exact hstrays.takesKeywords keyword hmem hstray
      · rcases exists_of_not_isStray hstray with ⟨param, hparam, haccepts, hname⟩
        refine (keywordPasses_named hvalid hparam haccepts hname).2 ⟨?_, ?_⟩
        · intro htaken
          exact hordinary.single keyword hmem param htaken haccepts hname
        · exact hordinary.keywordFits keyword hmem param hparam haccepts hname
    refine ⟨hordinary.room, ?_, ?_, hordinary.complete,
      ⟨hordinary.positionalFits, hstrays.takesPositional⟩, ?_⟩
    · exact fun keyword hmem => ((hpasses keyword).1 (hall keyword hmem)).1
    · exact fun keyword hmem => ((hpasses keyword).1 (hall keyword hmem)).2.1
    · exact fun keyword hmem => ((hpasses keyword).1 (hall keyword hmem)).2.2

/-- The check accepts a call exactly if its arguments bind and fit. -/
def AgreesWithPython (isAssignable typeMatches : SemanticType → SemanticType → Bool)
    (types : ArgumentTypes Arg) (call : CallArguments Arg) (params : List SemanticCallableParam) :
    Prop :=
  callSignatureParamsAreApplicable isAssignable typeMatches types call params = true
    ↔ BindsAndFits isAssignable params (plainPositionalTypes types call params)
      (typedKeywords types call params)

/-- Where the strays are judged alike, the check lets them pass exactly if Python takes them. -/
theorem takesStrays_iff {positional : List (Option SemanticType)}
    {keywords : List (String × Option SemanticType)}
    (h : StraysJudgedAlike isAssignable params positional keywords) :
    CheckTakesStrays isAssignable params positional keywords
      ↔ PythonTakesStrays isAssignable params positional keywords := by
  constructor
  · intro hcheck
    refine ⟨fun argType hmem => ?_, fun keyword hmem hstray => ?_⟩
    · rw [← h.positionalAlike argType hmem]
      exact hcheck.takesPositional argType hmem
    · rw [← h.keywordsAlike keyword hmem hstray]
      exact hcheck.takesKeywords keyword hmem hstray
  · intro hpython
    refine ⟨fun argType hmem => ?_, fun keyword hmem hstray => ?_⟩
    · rw [h.positionalAlike argType hmem]
      exact hpython.takesPositional argType hmem
    · rw [h.keywordsAlike keyword hmem hstray]
      exact hpython.takesKeywords keyword hmem hstray

theorem judgedAlike_of_both {positional : List (Option SemanticType)}
    {keywords : List (String × Option SemanticType)}
    (hcheck : CheckTakesStrays isAssignable params positional keywords)
    (hpython : PythonTakesStrays isAssignable params positional keywords) :
    StraysJudgedAlike isAssignable params positional keywords := by
  refine ⟨fun argType hmem => ?_, fun keyword hmem hstray => ?_⟩
  · rw [hcheck.takesPositional argType hmem, hpython.takesPositional argType hmem]
  · rw [hcheck.takesKeywords keyword hmem hstray, hpython.takesKeywords keyword hmem hstray]

/-- Something that does not depend on variadic parameters is wrong, or the strays are judged as
Python would, or both reject a stray. -/
def StraysDoNotMatter (isAssignable : SemanticType → SemanticType → Bool)
    (params : List SemanticCallableParam) (positional : List (Option SemanticType))
    (keywords : List (String × Option SemanticType)) : Prop :=
  ¬ Ordinary isAssignable params positional keywords
    ∨ StraysJudgedAlike isAssignable params positional keywords
    ∨ (¬ CheckTakesStrays isAssignable params positional keywords
      ∧ ¬ PythonTakesStrays isAssignable params positional keywords)

/-- The check agrees with Python exactly where strays do not make a difference. -/
theorem applicable_agrees_iff (hvalid : ParamsAccepted params)
    (hcall : PlainCall types call params) (typeMatches : SemanticType → SemanticType → Bool) :
    AgreesWithPython isAssignable typeMatches types call params
      ↔ StraysDoNotMatter isAssignable params (plainPositionalTypes types call params)
        (typedKeywords types call params) := by
  unfold AgreesWithPython StraysDoNotMatter
  rw [applicable_iff hvalid hcall, bindsAndFits_iff hvalid.names]
  constructor
  · intro hagree
    by_cases hordinary : Ordinary isAssignable params (plainPositionalTypes types call params)
        (typedKeywords types call params)
    · by_cases hcheck : CheckTakesStrays isAssignable params
          (plainPositionalTypes types call params) (typedKeywords types call params)
      · exact .inr (.inl (judgedAlike_of_both hcheck (hagree.1 ⟨hordinary, hcheck⟩).2))
      · exact .inr (.inr ⟨hcheck, fun hpython => hcheck (hagree.2 ⟨hordinary, hpython⟩).2⟩)
    · exact .inl hordinary
  · rintro (hordinary | halike | ⟨hcheck, hpython⟩)
    · exact iff_of_false (fun h => hordinary h.1) (fun h => hordinary h.1)
    · exact and_congr_right fun _ => takesStrays_iff halike
    · exact iff_of_false (fun h => hcheck h.2) (fun h => hpython h.2)

/-- Strays are judged as Python would if the variadic parameters have annotations and no keyword
has the name of a parameter that is given by position only. -/
theorem straysJudgedAlike_of_plain {positional : List (Option SemanticType)}
    {keywords : List (String × Option SemanticType)}
    (hannotated : ∀ param ∈ params, param.isVariadic = true → param.annotation.isSome)
    (hnames : ∀ keyword ∈ keywords, ∀ param ∈ params, param.name = keyword.1 →
      param.acceptsKeyword = true) :
    StraysJudgedAlike isAssignable params positional keywords := by
  -- a variadic parameter that is there has an annotation
  have hextra : ∀ (variadic : SemanticCallableParam → Bool) (argType : Option SemanticType),
      (∀ param, variadic param = true → param.isVariadic = true) →
        extraArgFits isAssignable ((params.find? variadic).bind SemanticCallableParam.annotation)
            argType
          = variadicFits isAssignable (params.find? variadic) argType := by
    intro variadic argType hvariadic
    cases hfound : params.find? variadic with
    | none => rfl
    | some param =>
      have hsome := hannotated param (List.mem_of_find?_eq_some hfound)
        (hvariadic param (List.find?_some hfound))
      rcases Option.isSome_iff_exists.1 hsome with ⟨paramType, hannotation⟩
      cases argType <;> simp [extraArgFits, variadicFits, argFits, hannotation]
  refine ⟨fun argType _ => hextra _ argType ?_, fun keyword hmem hstray => ?_⟩
  · intro param hparam
    simp [SemanticCallableParam.isVariadic, hparam]
  · -- no parameter has the name of the keyword
    have hnone : ∀ param ∈ params, param.name ≠ keyword.1 := by
      intro param hparam hname
      exact hstray param hparam (hnames keyword hmem param hparam hname) hname
    have hfind : (params.find? fun param => param.name = keyword.1) = none := by
      rw [List.find?_eq_none]
      intro param hparam
      simpa using hnone param hparam
    have hnamed : namesKeywordParam params keyword.1 = false := by
      rw [namesKeywordParam, List.any_eq_false]
      intro param hparam
      simp [hnone param hparam]
    have hfree : (((positionalParams params).map SemanticCallableParam.name).take
        positional.length).contains keyword.1 = false := by
      rw [List.contains_eq_mem, decide_eq_false_iff_not, ← List.map_take, List.mem_map]
      rintro ⟨param, htaken, hname⟩
      exact hnone param (mem_params_of_positional htaken).1 hname
    have hkeyword := hextra SemanticCallableParam.keywordVariadic keyword.2
      (by intro param hparam; simp [SemanticCallableParam.isVariadic, hparam])
    unfold keywordPasses keywordArgOk
    rw [hnamed, hfree, hfind]
    dsimp only
    rw [keywordVariadicType, hkeyword]
    cases hfound : params.find? SemanticCallableParam.keywordVariadic with
    | none => simp [variadicFits]
    | some param =>
      have haccepts : acceptsExtraKeywords params = true :=
        List.any_eq_true.2 ⟨param, List.mem_of_find?_eq_some hfound, List.find?_some hfound⟩
      simp [haccepts]

end Calls

/-! ## A parameter that is given by position only -/

section Signatures

/-- Values that are known by their types. -/
def typedValues : ArgumentTypes SemanticType where
  contextual _ _ := none
  direct ty := some ty
  renderedValueType _ := none
  positionalExpansion _ := none
  keywordExpansion _ := none

def sameType (expected actual : SemanticType) : Bool := expected = actual

/-- `x, /, **kwargs: int`. -/
def positionalOnlyParams : List SemanticCallableParam :=
  [{ name := "x", annotationText := none, annotation := none, hasDefault := false,
     positionalOnly := true, keywordOnly := false, variadic := false, keywordVariadic := false },
   { name := "kwargs", annotationText := some "int", annotation := some (.name "int"),
     hasDefault := false, positionalOnly := false, keywordOnly := false, variadic := false,
     keywordVariadic := true }]

theorem positionalOnlyParams_accepted : ParamsAccepted positionalOnlyParams where
  oneKind := by decide
  order := by decide
  names := by decide
  defaults := by decide

/-- A call with one positional argument and one keyword. -/
def callWithKeyword (keyword : String) : CallArguments SemanticType where
  argCount := 1
  argValues := [.name "int"]
  keywordNames := [keyword]
  keywordArgValues := [.name "int"]

theorem callWithKeyword_plain (keyword : String) (params : List SemanticCallableParam) :
    PlainCall typedValues (callWithKeyword keyword) params where
  noStars := rfl
  noExpansions := rfl
  counted := rfl
  valued := rfl
  distinct := List.nodup_singleton keyword
  quiet := rfl
  quietKeywords := rfl

/-- The check and Python agree about `f(1, y=2)`. -/
theorem extraKeyword_agrees :
    AgreesWithPython sameType sameType typedValues (callWithKeyword "y") positionalOnlyParams := by
  refine (applicable_agrees_iff positionalOnlyParams_accepted (callWithKeyword_plain _ _) _).2
    (.inr (.inl (straysJudgedAlike_of_plain ?_ ?_)))
  · decide
  · intro keyword hmem param hparam hname
    have hkeyword : keyword.1 = "y" := by
      have hfirst := List.mem_map_of_mem (f := Prod.fst) hmem
      rw [typedKeywords_names (callWithKeyword_plain _ _)] at hfirst
      exact List.mem_singleton.1 hfirst
    rw [hkeyword] at hname
    simp only [positionalOnlyParams, List.mem_cons, List.not_mem_nil, or_false] at hparam
    rcases hparam with rfl | rfl <;> exact absurd hname (by decide)

/-- Python binds `f(1, x=2)` by passing `x` to `**kwargs`; the check rejects it. -/
theorem positionalOnlyName_disagrees :
    ¬ AgreesWithPython sameType sameType typedValues (callWithKeyword "x") positionalOnlyParams := by
  intro hagree
  have hbinds : BindsAndFits sameType positionalOnlyParams
      (plainPositionalTypes typedValues (callWithKeyword "x") positionalOnlyParams)
      (typedKeywords typedValues (callWithKeyword "x") positionalOnlyParams) :=
    ⟨_, rfl, by decide⟩
  have haccepted := hagree.2 hbinds
  exact absurd haccepted (by decide)

end Signatures

end TypePython.Checking
