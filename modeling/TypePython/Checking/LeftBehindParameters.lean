import TypePython.Checking.TypeSubstitution
import TypePython.Checking.ValueModel

/-!
# Names that a substitution leaves behind

Where the name of a type parameter is still found after its substitution. The elements of an
unpacked tuple that stands among arguments are spliced in as they are, so a name in one of
them stays; so does a name where a solution has nothing to put for it. `nothingLeft_iff` says
that nothing else stays.
-/

namespace TypePython.Checking

open TypePython.Lib.Text

/-! ## Occurrences -/

section

variable (name : String)

mutual

/-- A name occurs in a type, at any depth, as a type or as the head of one. -/
def NamedIn : SemanticType → Prop
  | .name text => text = name
  | .generic head args => head = name ∨ NamedInSome args
  | .callable params returnType => NamedInParams params ∨ NamedIn returnType
  | .union branches => NamedInSome branches
  | .annotated value _ => NamedIn value
  | .unpack inner => NamedIn inner

def NamedInParams : SemanticCallableParams → Prop
  | .ellipsis => False
  | .paramList types => NamedInSome types
  | .concatenate types => NamedInSome types
  | .single expr => NamedIn expr

def NamedInSome : List SemanticType → Prop
  | [] => False
  | ty :: rest => NamedIn ty ∨ NamedInSome rest

end

end

variable {name : String}

theorem namedInSome_iff {types : List SemanticType} :
    NamedInSome name types ↔ ∃ ty ∈ types, NamedIn name ty := by
  induction types with
  | nil => simp [NamedInSome]
  | cons ty rest ih => simp [NamedInSome, ih]

theorem namedInSome_append {types others : List SemanticType} :
    NamedInSome name (types ++ others) ↔ NamedInSome name types ∨ NamedInSome name others := by
  simp only [namedInSome_iff, List.mem_append, or_and_right, exists_or]

theorem namedIn_stripAnnotated : ∀ ty : SemanticType,
    NamedIn name ty.stripAnnotated ↔ NamedIn name ty
  | .annotated value _ => by
    rw [SemanticType.stripAnnotated, namedIn_stripAnnotated value, NamedIn]
  | .name _ | .generic _ _ | .callable _ _ | .union _ | .unpack _ => by
    rw [SemanticType.stripAnnotated]
    simp

/-- What a type parameter is not called: the words the checker puts into types on its own. -/
structure ParameterName (name : String) : Prop where
  not_word : name ∉ ["None", "Optional", "..."]
  not_brackets : '[' ∉ name.toList

/-- The reading in which a type admits the names of parameters that occur in it. -/
def occurrenceModel : ValueModel { name : String // ParameterName name } where
  admits ty name := NamedIn name ty
  admits_union := by
    intro ty branches h name
    have hwords := name.2.not_word
    simp only [List.mem_cons, List.not_mem_nil, or_false, not_or] at hwords
    rw [← namedIn_stripAnnotated]
    unfold semanticUnionBranches at h
    split at h
    · next bs hstrip =>
        obtain rfl : bs = branches := by simpa using h
        rw [hstrip, NamedIn, namedInSome_iff]
    · next inner hstrip =>
        obtain rfl : [inner, .name "None"] = branches := by simpa using h
        rw [hstrip]
        simp [NamedIn, NamedInSome, Ne.symm hwords.1, Ne.symm hwords.2.1]
    · simp at h

/-- The flattening of unions neither adds nor loses a parameter. -/
theorem namedIn_join (hname : ParameterName name) {candidates : List SemanticType} :
    NamedIn name (joinSemanticTypeCandidates candidates) ↔ NamedInSome name candidates := by
  rw [namedInSome_iff]
  exact occurrenceModel.admits_join candidates ⟨name, hname⟩

/-! ## Where a name stays -/

section

variable (substitutions : GenericSolution) (name : String)

/-- The elements of an unpacked tuple of fixed length that is no type pack. -/
def unpackedTupleElements (arg : SemanticType) : Option (List SemanticType) := do
  let inner ← arg.unpackedInner
  if (substitutions.typePackOf inner).isSome then none else unpackedFixedTupleSemanticElements inner

mutual

/-- Places where a name stays: as a type that no type is bound to, as a head, and anywhere in
what is spliced into arguments. -/
def StaysIn : SemanticType → Prop
  | .name text => text = name ∧ substitutions.types[text]? = none
  | .generic head args => head = name ∨ StaysInArgs args
  | .callable params returnType => StaysInParams params ∨ StaysIn returnType
  | .union branches => StaysInSome branches
  | .annotated value _ => StaysIn value
  | .unpack inner => StaysIn inner

def StaysInParams : SemanticCallableParams → Prop
  | .ellipsis => False
  | .paramList types => StaysInArgs types
  | .concatenate types =>
    if (types.getLast?.bind substitutions.paramListOf).isSome then StaysBeforeLast types
    else StaysInSome types
  | .single expr => substitutions.paramListOf expr = none ∧ StaysIn expr

/-- A parameter list replaces an argument; of an unpacked tuple the elements are spliced in,
and nothing replaces the names in them. -/
def StaysInArgs : List SemanticType → Prop
  | [] => False
  | arg :: rest =>
    (substitutions.paramListOf arg = none
      ∧ ((∃ elements, unpackedTupleElements substitutions arg = some elements
            ∧ NamedInSome name elements)
          ∨ (unpackedSemanticArgs substitutions arg = none ∧ StaysIn arg)))
      ∨ StaysInArgs rest

def StaysInSome : List SemanticType → Prop
  | [] => False
  | ty :: rest => StaysIn ty ∨ StaysInSome rest

def StaysBeforeLast : List SemanticType → Prop
  | [] => False
  | [_] => False
  | ty :: next :: rest => StaysIn ty ∨ StaysBeforeLast (next :: rest)

end

/-- What a solution binds does not mention a parameter. -/
structure BindsWithout : Prop where
  parameter : ParameterName name
  types : ∀ (bound : String) ty, substitutions.types[bound]? = some ty → ¬NamedIn name ty
  paramLists : ∀ (bound : String) binding, substitutions.paramLists[bound]? = some binding →
    ¬NamedInSome name binding.semanticTypes
  typePacks : ∀ (bound : String) binding, substitutions.typePacks[bound]? = some binding →
    ¬NamedInSome name binding.types
      ∧ ∀ variadicTail, binding.variadicTail = some variadicTail → ¬NamedIn name variadicTail

end

section

variable {substitutions : GenericSolution} {name : String}

theorem BindsWithout.not_occurs_paramListOf (h : BindsWithout substitutions name)
    {ty : SemanticType} {binding : ParamListBinding}
    (hbinding : substitutions.paramListOf ty = some binding) :
    ¬NamedInSome name binding.semanticTypes := by
  unfold GenericSolution.paramListOf at hbinding
  split at hbinding
  · exact h.paramLists _ binding hbinding
  · cases hbinding

/-- The text a parameter list is rendered to is not a name. -/
theorem BindsWithout.not_occurs_genericArg (h : BindsWithout substitutions name)
    (binding : ParamListBinding) :
    ¬NamedIn name (paramListBindingSemanticGenericArg binding) := by
  rw [paramListBindingSemanticGenericArg, NamedIn, renderSemanticCallableParams]
  intro heq
  refine h.parameter.not_brackets ?_
  rw [← heq]
  simp

theorem BindsWithout.not_occurs_typePackOf (h : BindsWithout substitutions name)
    {ty : SemanticType} {binding : TypePackBinding}
    (hbinding : substitutions.typePackOf ty = some binding) :
    ¬NamedInSome name binding.expanded := by
  have hwords := h.parameter.not_word
  simp only [List.mem_cons, List.not_mem_nil, or_false, not_or] at hwords
  unfold GenericSolution.typePackOf at hbinding
  split at hbinding
  · obtain ⟨htypes, htail⟩ := h.typePacks _ binding hbinding
    rw [TypePackBinding.expanded, namedInSome_append]
    rintro (hmem | hmem)
    · exact htypes hmem
    · split at hmem
      · next variadicTail hvariadic =>
          rcases hmem with hmem | hmem | hmem
          · exact htail variadicTail hvariadic hmem
          · exact hwords.2.2 (Eq.symm hmem)
          · exact hmem
      · exact hmem
  · cases hbinding

/-- Of what is spliced in, only the elements of a tuple mention a name. -/
theorem BindsWithout.occurs_unpacked_iff (h : BindsWithout substitutions name)
    {arg : SemanticType} {args : List SemanticType}
    (hargs : unpackedSemanticArgs substitutions arg = some args) :
    NamedInSome name args ↔ ∃ elements, unpackedTupleElements substitutions arg = some elements
      ∧ NamedInSome name elements := by
  unfold unpackedSemanticArgs at hargs
  unfold unpackedTupleElements
  cases hinner : arg.unpackedInner with
  | none => simp [hinner] at hargs
  | some inner =>
    cases hpack : substitutions.typePackOf inner with
    | some binding =>
      obtain rfl : binding.expanded = args := by simpa [hinner, hpack] using hargs
      simp [h.not_occurs_typePackOf hpack, hpack]
    | none =>
      have helements : unpackedFixedTupleSemanticElements inner = some args := by
        simpa [hinner, hpack] using hargs
      simp [helements, hpack]

theorem unpackedTupleElements_eq_none {arg : SemanticType}
    (h : unpackedSemanticArgs substitutions arg = none) :
    unpackedTupleElements substitutions arg = none := by
  unfold unpackedSemanticArgs at h
  unfold unpackedTupleElements
  cases hinner : arg.unpackedInner with
  | none => rfl
  | some inner =>
    have helements : unpackedFixedTupleSemanticElements inner = none := by
      simp only [hinner, Option.bind_eq_bind, Option.bind_some, Option.or_eq_none_iff] at h
      exact h.2
    simp [helements]

theorem dropLast_substituteAll (first next : SemanticType) (rest : List SemanticType) :
    (substituteAll substitutions (first :: next :: rest)).dropLast
      = substituteSemanticTypeParams substitutions first
          :: (substituteAll substitutions (next :: rest)).dropLast := by
  rw [substituteAll, substituteAll, List.dropLast_cons_cons]

mutual

/-- After the substitution a name occurs exactly where it stays. -/
theorem namedIn_substitute (h : BindsWithout substitutions name) : ∀ ty : SemanticType,
    NamedIn name (substituteSemanticTypeParams substitutions ty) ↔ StaysIn substitutions name ty
  | .name text => by
    rw [substituteSemanticTypeParams, StaysIn]
    cases hbound : substitutions.types[text]? with
    | none => simp [NamedIn]
    | some ty => simp [h.types text ty hbound]
  | .generic head args => by
    rw [substituteSemanticTypeParams, NamedIn, StaysIn, namedIn_substituteArgs h args]
  | .callable params returnType => by
    rw [substituteSemanticTypeParams, NamedIn, StaysIn, namedIn_substituteParams h params,
      namedIn_substitute h returnType]
  | .union branches => by
    rw [substituteSemanticTypeParams, namedIn_join h.parameter, StaysIn,
      namedIn_substituteAll h branches]
  | .annotated value _ => by
    rw [substituteSemanticTypeParams, NamedIn, StaysIn, namedIn_substitute h value]
  | .unpack inner => by
    rw [substituteSemanticTypeParams, NamedIn, StaysIn, namedIn_substitute h inner]

theorem namedIn_substituteParams (h : BindsWithout substitutions name) :
    ∀ params : SemanticCallableParams,
      NamedInParams name (substituteSemanticCallableParamExpr substitutions params)
        ↔ StaysInParams substitutions name params
  | .ellipsis => by
    rw [substituteSemanticCallableParamExpr, NamedInParams, StaysInParams]
  | .paramList types => by
    rw [substituteSemanticCallableParamExpr, NamedInParams, StaysInParams,
      namedIn_substituteArgs h types]
  | .concatenate types => by
    rw [substituteSemanticCallableParamExpr, StaysInParams]
    cases htail : types.getLast?.bind substitutions.paramListOf with
    | none =>
      rw [if_neg (by simp)]
      exact namedIn_substituteAll h types
    | some binding =>
      obtain ⟨last, -, hbinding⟩ := Option.bind_eq_some_iff.1 htail
      rw [if_pos Option.isSome_some, ← namedIn_substituteBeforeLast h types]
      show NamedInSome name (_ ++ _) ↔ _
      rw [namedInSome_append]
      exact or_iff_left (h.not_occurs_paramListOf hbinding)
  | .single expr => by
    rw [substituteSemanticCallableParamExpr, StaysInParams]
    cases hbinding : substitutions.paramListOf expr with
    | none => simpa [NamedInParams] using namedIn_substitute h expr
    | some binding =>
      simpa [NamedInParams] using h.not_occurs_paramListOf hbinding

theorem namedIn_substituteArgs (h : BindsWithout substitutions name) :
    ∀ args : List SemanticType,
      NamedInSome name (expandSubstitutedSemanticGenericArgs substitutions args)
        ↔ StaysInArgs substitutions name args
  | [] => by
    rw [expandSubstitutedSemanticGenericArgs, NamedInSome, StaysInArgs]
  | arg :: rest => by
    rw [expandSubstitutedSemanticGenericArgs, namedInSome_append, StaysInArgs,
      namedIn_substituteArgs h rest]
    refine or_congr_left ?_
    cases hbinding : substitutions.paramListOf arg with
    | some binding => simp [NamedInSome, h.not_occurs_genericArg binding]
    | none =>
      cases helements : unpackedSemanticArgs substitutions arg with
      | some elements => simp [h.occurs_unpacked_iff helements]
      | none =>
        have htuple : unpackedTupleElements substitutions arg = none :=
          unpackedTupleElements_eq_none helements
        simpa [NamedInSome, htuple] using namedIn_substitute h arg

theorem namedIn_substituteAll (h : BindsWithout substitutions name) :
    ∀ types : List SemanticType, NamedInSome name (substituteAll substitutions types)
      ↔ StaysInSome substitutions name types
  | [] => by rw [substituteAll, NamedInSome, StaysInSome]
  | ty :: rest => by
    rw [substituteAll, NamedInSome, StaysInSome, namedIn_substitute h ty,
      namedIn_substituteAll h rest]

theorem namedIn_substituteBeforeLast (h : BindsWithout substitutions name) :
    ∀ types : List SemanticType, NamedInSome name (substituteAll substitutions types).dropLast
      ↔ StaysBeforeLast substitutions name types
  | [] => by simp [substituteAll, NamedInSome, StaysBeforeLast]
  | [_] => by simp [substituteAll, NamedInSome, StaysBeforeLast]
  | ty :: next :: rest => by
    rw [dropLast_substituteAll, NamedInSome, StaysBeforeLast, namedIn_substitute h ty,
      namedIn_substituteBeforeLast h (next :: rest)]

end

/-- A substitution leaves none of the parameters behind exactly if none of them stands in a
place where it stays. -/
theorem nothingLeft_iff {names : List String} (ty : SemanticType)
    (h : ∀ name ∈ names, BindsWithout substitutions name) :
    (∀ name ∈ names, ¬NamedIn name (substituteSemanticTypeParams substitutions ty))
      ↔ ∀ name ∈ names, ¬StaysIn substitutions name ty :=
  forall₂_congr fun name hname => not_congr (namedIn_substitute (h name hname) ty)

end

/-! ## A parameter in an unpacked tuple -/

/-- The solution that binds `T` to `int`. -/
def intForT : GenericSolution where
  types := (∅ : Std.ExtTreeMap String SemanticType).insert "T" (.name "int")

theorem intForT_bindsWithout : BindsWithout intForT "T" where
  parameter := ⟨by decide, by decide⟩
  types := by
    intro bound ty h
    rw [intForT, Std.ExtTreeMap.getElem?_insert] at h
    split at h
    · rw [← Option.some.inj h, NamedIn]
      decide
    · simp at h
  paramLists := by
    intro bound binding h
    simp [intForT] at h
  typePacks := by
    intro bound binding h
    simp [intForT] at h

/-- In `tuple[T, Unpack[tuple[str]]]` nothing stays. -/
theorem unpackedStr_nothingLeft : ¬NamedIn "T" (substituteSemanticTypeParams intForT
    (.generic "tuple" [.name "T", .unpack (.generic "tuple" [.name "str"])])) := by
  have hbinds : ∀ name ∈ ["T"], BindsWithout intForT name := by
    intro name hname
    rw [List.mem_singleton.1 hname]
    exact intForT_bindsWithout
  refine (nothingLeft_iff _ hbinds).2 ?_ "T" (List.mem_singleton.2 rfl)
  intro name hname
  rw [List.mem_singleton.1 hname]
  simp [StaysIn, StaysInArgs, unpackedTupleElements, GenericSolution.typePackOf,
    SemanticType.unpackedInner, SemanticType.stripAnnotated, unpackedFixedTupleSemanticElements,
    SemanticType.genericParts, NamedInSome, NamedIn, intForT, unpackedSemanticArgs]

/-- In `tuple[int, Unpack[tuple[T, str]]]` the parameter stays, though it is bound. -/
theorem unpackedT_left : BindsWithout intForT "T" ∧ NamedIn "T"
    (substituteSemanticTypeParams intForT
      (.generic "tuple" [.name "int", .unpack (.generic "tuple" [.name "T", .name "str"])])) := by
  refine ⟨intForT_bindsWithout, (namedIn_substitute intForT_bindsWithout _).2 ?_⟩
  simp [StaysIn, StaysInArgs, unpackedTupleElements, GenericSolution.typePackOf,
    GenericSolution.paramListOf, SemanticType.unpackedInner, SemanticType.stripAnnotated,
    unpackedFixedTupleSemanticElements, SemanticType.genericParts, NamedInSome, NamedIn, intForT]

end TypePython.Checking
