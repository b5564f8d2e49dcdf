import Mathlib.Data.List.Zip
import TypePython.Checking.TupleLengths
import TypePython.Checking.TypeMatching
import TypePython.Checking.UnionAliases

/-!
# Invariant arguments

The arguments of a mutable container are compared by `invariantMatches`: they match both ways,
or the expected one is a recursive alias that takes the other. Types that match both ways are
never found not to be assignable (`RegularTypes.isAssignable_true`), as long as no branches of
unions match one way only. So a container takes another one only if their arguments are
assignable both ways, a recursive alias apart (`invariantArgs_agree`).
-/

namespace TypePython.Checking

open TypePython.Lib
open TypePython.Binding

section

variable (nodes : List ModuleNode) (options : AssignabilityOptions) (node : ModuleNode)

/-! ## Types that are compared without surprises -/

/-- A set of types that holds with a type what its alias expands to and what it is made of, has
none of the top types, and in which branches of unions match both ways or not at all. -/
structure RegularTypes (S : SemanticType → Prop) : Prop where
  normalized_mem : ∀ ty, S ty → S (normalized options ty)
  normal : ∀ ty, S ty → normalized options (normalized options ty) = normalized options ty
  expanded_mem : ∀ ty expanded, S ty →
    ExpandsTo nodes options node (normalized options ty) (some expanded) → S expanded
  branch_mem : ∀ ty branches branch, S ty →
    semanticUnionBranches (normalized options ty) = some branches → branch ∈ branches → S branch
  arg_mem : ∀ ty head args arg, S ty → (normalized options ty).genericParts = some (head, args) →
    arg ∈ comparedArgs head args → S arg
  not_top : ∀ ty, S ty → isTopReceivingSemanticType (normalized options ty) = false
  untainted : options.taint = true → ∀ ty, S ty →
    semanticTaintedParts (normalized options ty) = none
  callable_form : ∀ ty args, S ty →
    (normalized options ty).genericParts = some ("Callable", args) → args.length ≠ 2
  enum_owner : ∀ ty ty', S ty → S ty' → (normalized options ty).genericParts ≠ none →
    semanticEnumMemberOwnerName (normalized options ty')
      ≠ some (renderSemanticType (normalized options ty))
  branches_symmetric : ∀ ty ty' branches branches' branch branch', S ty → S ty' →
    semanticUnionBranches (normalized options ty) = some branches →
    semanticUnionBranches (normalized options ty') = some branches' →
    branch ∈ branches → branch' ∈ branches' →
    Matching nodes options node branch branch' → Matching nodes options node branch' branch

/-- Two of these types that match both ways. -/
structure Related (S : SemanticType → Prop) (expected actual : SemanticType) : Prop where
  expected_mem : S expected
  actual_mem : S actual
  matching : Matching nodes options node expected actual
  matching_back : Matching nodes options node actual expected

end

variable {nodes : List ModuleNode} {options : AssignabilityOptions} {node : ModuleNode}
  {S : SemanticType → Prop}

variable {expected actual : SemanticType}

theorem Related.symm (h : Related nodes options node S expected actual) :
    Related nodes options node S actual expected :=
  ⟨h.actual_mem, h.expected_mem, h.matching_back, h.matching⟩

theorem RegularTypes.not_any (hS : RegularTypes nodes options node S) {ty : SemanticType}
    (hty : S ty) : isAnySemanticType (normalized options ty) = false := by
  have htop := hS.not_top ty hty
  simp only [isTopReceivingSemanticType, Bool.or_eq_false_iff] at htop
  exact htop.1.1

/-- The actual type may be expanded, whichever type the rules expand first. -/
theorem RegularTypes.matching_expanded (hS : RegularTypes nodes options node S)
    {expanded : SemanticType} (hexpected : S expected) (hactual : S actual)
    (hexpands : ExpandsTo nodes options node (normalized options actual) (some expanded))
    (hmatching : Matching nodes options node expected actual) :
    Matching nodes options node expected expanded := by
  -- the pairs of a type and a type like one that a type it matches expands to
  refine Matching.coinduct (R := fun x w => S x ∧ ∃ y z, S y ∧
    ExpandsTo nodes options node (normalized options y) (some z)
      ∧ Matching nodes options node x y ∧ normalized options w = normalized options z) ?_
    ⟨hexpected, actual, expanded, hactual, hexpands, hmatching, rfl⟩
  rintro x w ⟨hx, y, z, hy, hexpands, hmatching, hw⟩
  have hz : S z := hS.expanded_mem y z hy hexpands
  have hww : normalized options (normalized options w) = normalized options z := by
    rw [hw]
    exact hS.normal z hz
  cases hmatching.step with
  | same hsame =>
    exact .expandExpected (hsame ▸ hexpands) (.inr (matching_of_eq hww.symm))
  | anyExpected hany => rw [hS.not_any hx] at hany; cases hany
  | anyActual hany => rw [hS.not_any hy] at hany; cases hany
  | expandExpected hexpandsx hR =>
    refine .expandExpected hexpandsx (.inl ⟨hS.expanded_mem x _ hx hexpandsx, ?_⟩)
    refine ⟨normalized options y, z, hS.normalized_mem y hy, ?_, hR, hww⟩
    rw [hS.normal y hy]
    exact hexpands
  | expandActual hnone hexpandsy hR =>
    cases hexpandsy.unique hexpands
    have hxw : Matching nodes options node x w := hR.congr (hS.normal x hx) hw.symm
    exact hxw.step.mono fun _ _ => .inr
  | parts hnone hnone' hparts => cases hnone'.unique hexpands

/-- Where the expected one of two matching types that differ is an alias, its expansion
matches. -/
theorem RegularTypes.matching_of_expands (hS : RegularTypes nodes options node S)
    {expanded : SemanticType} (h : Related nodes options node S expected actual)
    (hdiffer : normalized options expected ≠ normalized options actual)
    (hexpands : ExpandsTo nodes options node (normalized options expected) (some expanded)) :
    Matching nodes options node expanded (normalized options actual) := by
  cases h.matching.step with
  | same hsame => exact (hdiffer hsame).elim
  | anyExpected hany => rw [hS.not_any h.expected_mem] at hany; cases hany
  | anyActual hany => rw [hS.not_any h.actual_mem] at hany; cases hany
  | expandExpected hexpands' hR =>
    cases hexpands'.unique hexpands
    exact hR
  | expandActual hnone _ _ => cases hnone.unique hexpands
  | parts hnone _ _ => cases hnone.unique hexpands

/-- Where neither is an alias, their parts match. -/
theorem RegularTypes.partsMatch (hS : RegularTypes nodes options node S)
    (h : Related nodes options node S expected actual)
    (hdiffer : normalized options expected ≠ normalized options actual)
    (hexpected : ExpandsTo nodes options node (normalized options expected) none)
    (hactual : ExpandsTo nodes options node (normalized options actual) none) :
    PartsMatch (Matching nodes options node) (normalized options expected)
      (normalized options actual) := by
  cases h.matching.step with
  | same hsame => exact (hdiffer hsame).elim
  | anyExpected hany => rw [hS.not_any h.expected_mem] at hany; cases hany
  | anyActual hany => rw [hS.not_any h.actual_mem] at hany; cases hany
  | expandExpected hexpands _ => cases hexpands.unique hexpected
  | expandActual _ hexpands _ => cases hexpands.unique hactual
  | parts _ _ hparts => exact hparts

/-- Two of the types that differ, with the aliases of neither. -/
structure PartsRelated (nodes : List ModuleNode) (options : AssignabilityOptions)
    (node : ModuleNode) (S : SemanticType → Prop) (expected actual : SemanticType) : Prop
    extends Related nodes options node S expected actual where
  expected_normal : normalized options expected = expected
  actual_normal : normalized options actual = actual
  parts : PartsMatch (Matching nodes options node) expected actual
  parts_back : PartsMatch (Matching nodes options node) actual expected

theorem enumOwner_eq_none {ty : SemanticType} (h : semanticUnionBranches ty ≠ none) :
    semanticEnumMemberOwnerName ty = none := by
  unfold semanticUnionBranches at h
  unfold semanticEnumMemberOwnerName
  split at h
  · rename_i hty
    rw [hty]
  · rename_i hty
    rw [hty]
    rfl
  · exact (h rfl).elim

/-- A union never matches a type that is none the other way. -/
theorem not_partsMatch_union (hexpected : semanticUnionBranches expected = none)
    (hactual : semanticUnionBranches actual ≠ none) {R : SemanticType → SemanticType → Prop} :
    ¬ PartsMatch R expected actual := by
  intro h
  unfold PartsMatch at h
  simp only [hexpected] at h
  rcases h with henum | ⟨head, args, actualArgs, hargs, hactualArgs, hmatch⟩
  · rw [enumOwner_eq_none hactual] at henum
    cases henum
  · unfold semanticUnionBranches at hexpected hactual
    unfold SemanticType.genericParts at hargs hactualArgs
    split at hargs
    · rename_i hstrip
      cases hargs
      rw [hstrip] at hexpected
      split at hactualArgs
      · rename_i hstrip'
        cases hactualArgs
        rw [hstrip'] at hactual
        -- a subscripted type is a union only as an `Optional` of one argument
        split at hactual
        · rename_i heq; cases heq
        · rename_i heq
          cases heq
          have hlength := hmatch.length_eq
          simp only [comparedArgs, if_neg (show ¬ "Optional" = "tuple" by decide),
            List.length_singleton] at hlength
          rcases List.length_eq_one_iff.1 hlength with ⟨inner, rfl⟩
          cases hexpected
        · exact hactual rfl
      · cases hactualArgs
    · cases hargs

/-- The rules that decide at once say no only of `Any` for `unknown`. -/
theorem decidedAtOnce_true (hactual : isTopReceivingSemanticType actual = false) {decided : Bool}
    (h : decidedAtOnce options expected actual = some decided) : decided = true := by
  simp only [isTopReceivingSemanticType, Bool.or_eq_false_iff] at hactual
  unfold decidedAtOnce at h
  simp only [hactual.1.2, Bool.false_and, Bool.not_false, Bool.true_and] at h
  grind

/-! ## The search on related types -/

variable {args actualArgs : List SemanticType} {result : Bool}

section Search

variable {Q : (question : Question) → question.Answer → Prop}
  {visiting : List (SemanticType × SemanticType)}

/-- The questions about related types have the answer yes, and so have those whether types
that match do. -/
structure AnswersRelated (nodes : List ModuleNode) (options : AssignabilityOptions)
    (node : ModuleNode) (S : SemanticType → Prop)
    (Q : (question : Question) → question.Answer → Prop) : Prop where
  isAssignable : ∀ expected actual visiting result,
    Related nodes options node S expected actual →
    Q (.isAssignable node expected actual visiting) result → result = true
  typeMatches : ∀ expected actual visiting result,
    Matching nodes options node expected actual →
    Q (.typeMatches node expected actual visiting) result → result = true
  expandAliasOnce : ∀ ty expanded, Q (.expandAliasOnce node ty) expanded →
    ExpandsTo nodes options node ty expanded

/-- Related parts of subscripted types have related arguments. -/
theorem relatedArgs_of_parts (hS : RegularTypes nodes options node S)
    (h : PartsRelated nodes options node S expected actual)
    (hexpected : semanticUnionBranches expected = none)
    (hactual : semanticUnionBranches actual = none) :
    semanticEnumMemberOwnerName actual = some (renderSemanticType expected)
      ∨ ∃ head args actualArgs, expected.genericParts = some (head, args)
        ∧ actual.genericParts = some (head, actualArgs)
        ∧ List.Forall₂ (Related nodes options node S) (comparedArgs head args)
          (comparedArgs head actualArgs) := by
  have hparts := h.parts
  have hback := h.parts_back
  unfold PartsMatch at hparts hback
  simp only [hexpected] at hparts
  simp only [hactual] at hback
  rcases hparts with henum | ⟨head, args, actualArgs, hargs, hactualArgs, hmatch⟩
  · exact .inl henum
  · right
    have hexpectedNormal := h.expected_normal
    have hactualNormal := h.actual_normal
    -- the class of an enum literal is no subscripted type, so both sides are compared by parts
    have hnoEnum : semanticEnumMemberOwnerName expected ≠ some (renderSemanticType actual) := by
      have howner := hS.enum_owner actual expected h.actual_mem h.expected_mem
        (by rw [hactualNormal, hactualArgs]; exact Option.some_ne_none _)
      rwa [hexpectedNormal, hactualNormal] at howner
    rcases hback.resolve_left hnoEnum with ⟨head', args', backArgs, hargs', hbackArgs, hmatchBack⟩
    rw [hactualArgs] at hargs'
    rw [hargs] at hbackArgs
    cases hargs'
    cases hbackArgs
    refine ⟨head, args, actualArgs, hargs, hactualArgs, ?_⟩
    refine List.forall₂_iff_zip.2 ⟨hmatch.length_eq, ?_⟩
    intro x y hpair
    have hswap : (y, x) ∈ (comparedArgs head actualArgs).zip (comparedArgs head args) := by
      rw [← List.zip_swap]
      exact List.mem_map.2 ⟨(x, y), hpair, rfl⟩
    refine ⟨?_, ?_, (List.forall₂_iff_zip.1 hmatch).2 hpair,
      (List.forall₂_iff_zip.1 hmatchBack).2 hswap⟩
    · exact hS.arg_mem expected head args x h.expected_mem (by rw [hexpectedNormal, hargs])
        (List.of_mem_zip hpair).1
    · exact hS.arg_mem actual head actualArgs y h.actual_mem (by rw [hactualNormal, hactualArgs])
        (List.of_mem_zip hpair).2

variable (hQ : AnswersRelated nodes options node S Q)
include hQ

theorem genericArgAssignable_true (h : Related nodes options node S expected actual)
    {variance : GenericVariance}
    (hyields : (genericArgAssignable nodes node expected actual variance).Yields Q result) :
    result = true := by
  cases variance with
  | covariant => exact hQ.isAssignable _ _ _ _ h ((Prog.yields_query _ _).1 hyields)
  | contravariant => exact hQ.isAssignable _ _ _ _ h.symm ((Prog.yields_query _ _).1 hyields)
  | invariant =>
    have hmatch : ∀ {x y : SemanticType}, Matching nodes options node x y →
        ¬ (Search.typeMatches node x y []).Yields Q false := by
      intro x y hxy hfalse
      cases hQ.typeMatches _ _ _ _ hxy ((Prog.yields_query _ _).1 hfalse)
    have hyields : (invariantMatches nodes node expected actual).Yields Q result := hyields
    unfold invariantMatches at hyields
    rcases (yields_or _ _ _).1 hyields with ⟨-, htrue⟩ | ⟨hneither, -⟩
    · exact htrue
    · rcases (yields_and _ _ _).1 hneither with ⟨-, hback⟩ | ⟨hforth, -⟩
      · exact (hmatch h.matching_back hback).elim
      · exact (hmatch h.matching hforth).elim

/-- Subscripted types with related arguments, whatever the variances are. -/
theorem sameHead_true {head : String} (hhead : head ≠ "Callable")
    (hargs : List.Forall₂ (Related nodes options node S) args actualArgs) {result : Option Bool}
    (h : (sameHeadSemanticGenericAssignable nodes node head args actualArgs).Yields Q result) :
    result = some true := by
  unfold sameHeadSemanticGenericAssignable at h
  rw [if_neg hhead] at h
  rcases (Prog.yields_bind _ _ _).1 h with ⟨b, hall, hresult⟩
  have hresult : result = some b := hresult
  cases b with
  | true => exact hresult
  | false =>
    rcases Prog.exists_of_yields_all_false hall with ⟨⟨⟨x, y⟩, variance⟩, hmem, hfalse⟩
    have hpair : (x, y) ∈ args.zip actualArgs := (List.of_mem_zip hmem).1
    cases genericArgAssignable_true hQ ((List.forall₂_iff_zip.1 hargs).2 hpair) hfalse


/-- The rule for subscripted types says yes of related arguments or nothing at all. -/
theorem bridge_true_or_none (hS : RegularTypes nodes options node S) (hexpected : S expected)
    (hnormal : normalized options expected = expected) {head : String}
    (hargs : expected.genericParts = some (head, args))
    (hactualArgs : actual.genericParts = some (head, actualArgs))
    (hrelated : List.Forall₂ (Related nodes options node S) (comparedArgs head args)
      (comparedArgs head actualArgs)) {result : Option Bool}
    (h : (assignableSemanticGenericBridge nodes node expected actual).Yields Q result) :
    result = some true ∨ result = none := by
  unfold assignableSemanticGenericBridge at h
  simp only [hargs, hactualArgs] at h
  by_cases htuple : head = "tuple"
  · subst htuple
    have hlength : (expandedTupleShapeSemanticArgs args).length
        = (expandedTupleShapeSemanticArgs actualArgs).length := hrelated.length_eq
    rw [if_pos (by decide), if_neg (not_not.2 hlength)] at h
    exact .inl (sameHead_true hQ (by decide) hrelated h)
  · have hcompared : ∀ items : List SemanticType, comparedArgs head items = items := by
      intro items
      exact if_neg htuple
    rw [hcompared, hcompared] at hrelated
    rw [if_neg (by simpa using htuple), if_pos (by simpa using hrelated.length_eq)] at h
    by_cases hcallable : head = "Callable"
    · -- callables of this form have some other number of arguments than two
      subst hcallable
      right
      have hlength := hS.callable_form expected args hexpected (by rw [hnormal, hargs])
      unfold sameHeadSemanticGenericAssignable at h
      rw [if_pos rfl] at h
      split at h
      · exact (hlength rfl).elim
      · exact h
    · exact .inl (sameHead_true hQ hcallable hrelated h)

theorem namedAssignable_true (hS : RegularTypes nodes options node S)
    (h : PartsRelated nodes options node S expected actual)
    (hexpected : semanticUnionBranches expected = none)
    (hactual : semanticUnionBranches actual = none)
    (hyields : (namedAssignable nodes node expected actual visiting).Yields Q result) :
    result = true := by
  unfold namedAssignable at hyields
  rcases (Prog.yields_bind _ _ _).1 hyields with ⟨protocol, -, hyields⟩
  rcases (Prog.yields_bind _ _ _).1 hyields with ⟨nominal, -, hyields⟩
  split at hyields
  · exact hyields
  · rename_i hnamed
    rcases relatedArgs_of_parts hS h hexpected hactual with
      henum | ⟨head, args, actualArgs, hargs, hactualArgs, hrelated⟩
    · exact absurd henum (by simpa using (fun h => hnamed (by simp [h])))
    · rcases (Prog.yields_bind _ _ _).1 hyields with ⟨bridge, hbridge, hyields⟩
      rcases bridge_true_or_none hQ hS h.expected_mem h.expected_normal hargs hactualArgs hrelated
        hbridge with rfl | rfl
      · exact hyields
      · -- a subscripted type is no new type, and matching decides
        have hnewtype : newtypeBase nodes node actual = none := by
          unfold SemanticType.genericParts at hactualArgs
          unfold newtypeBase
          split at hactualArgs
          · rename_i hstrip
            rw [hstrip]
          · cases hactualArgs
        have hunknown : isUnknownSemanticType actual = false := by
          have htop := hS.not_top actual h.actual_mem
          rw [h.actual_normal] at htop
          simp only [isTopReceivingSemanticType, Bool.or_eq_false_iff] at htop
          exact htop.1.2
        simp only [hnewtype, hunknown, Bool.false_eq_true, if_false] at hyields
        exact hQ.typeMatches _ _ _ _ h.matching ((Prog.yields_query _ _).1 hyields)

theorem structurallyAssignable_true (hS : RegularTypes nodes options node S)
    (h : PartsRelated nodes options node S expected actual)
    (hyields : (structurallyAssignable nodes node expected actual visiting).Yields Q result) :
    result = true := by
  unfold structurallyAssignable at hyields
  cases hexpected : semanticUnionBranches expected with
  | some branches =>
    cases hactual : semanticUnionBranches actual with
    | some actualBranches =>
      simp only [hexpected, hactual] at hyields
      by_contra hne
      have hfalse : result = false := by simpa using hne
      subst hfalse
      rcases Prog.exists_of_yields_all_false hyields with ⟨actualBranch, hmem', hnone⟩
      have hparts := h.parts
      unfold PartsMatch at hparts
      simp only [hexpected, hactual] at hparts
      rcases hparts.1 actualBranch hmem' with ⟨branch, hmem, hmatching⟩
      have hunion : semanticUnionBranches (normalized options expected) = some branches := by
        rw [h.expected_normal, hexpected]
      have hunion' : semanticUnionBranches (normalized options actual)
          = some actualBranches := by
        rw [h.actual_normal, hactual]
      -- branches that match one way match the other way
      have hrelated : Related nodes options node S branch actualBranch :=
        ⟨hS.branch_mem _ _ _ h.expected_mem hunion hmem,
          hS.branch_mem _ _ _ h.actual_mem hunion' hmem', hmatching,
          hS.branches_symmetric _ _ _ _ _ _ h.expected_mem h.actual_mem hunion hunion' hmem
            hmem' hmatching⟩
      have hquery := Prog.yields_any_false.1 hnone branch hmem
      cases hQ.isAssignable _ _ _ _ hrelated ((Prog.yields_query _ _).1 hquery)
    | none =>
      exact (not_partsMatch_union hactual (by rw [hexpected]; exact Option.some_ne_none _)
        h.parts_back).elim
  | none =>
    cases hactual : semanticUnionBranches actual with
    | some actualBranches =>
      exact (not_partsMatch_union hexpected (by rw [hactual]; exact Option.some_ne_none _)
        h.parts).elim
    | none =>
      simp only [hexpected, hactual] at hyields
      split at hyields
      · -- callables have no parts to match
        rename_i hcallable hcallable'
        rcases relatedArgs_of_parts hS h hexpected hactual with
          henum | ⟨head, args, actualArgs, hargs, -, -⟩
        · unfold SemanticType.callableParts at hcallable'
          unfold semanticEnumMemberOwnerName at henum
          split at hcallable'
          · rename_i hstrip
            rw [hstrip] at henum
            cases henum
          · cases hcallable'
        · unfold SemanticType.callableParts at hcallable
          unfold SemanticType.genericParts at hargs
          split at hcallable
          · rename_i hstrip
            rw [hstrip] at hargs
            cases hargs
          · cases hcallable
      · exact namedAssignable_true hQ hS h hexpected hactual hyields

theorem searchAssignable_true (hS : RegularTypes nodes options node S)
    (h : Related nodes options node S expected actual)
    (hdiffer : normalized options expected ≠ normalized options actual)
    (hyields : (searchAssignable nodes node (normalized options expected)
      (normalized options actual) visiting).Yields Q result) : result = true := by
  have hmem := hS.normalized_mem expected h.expected_mem
  have hmem' := hS.normalized_mem actual h.actual_mem
  have hnormal := hS.normal expected h.expected_mem
  have hnormal' := hS.normal actual h.actual_mem
  have hmatching := h.matching.congr hnormal.symm hnormal'.symm
  have hback := h.matching_back.congr hnormal'.symm hnormal.symm
  unfold searchAssignable at hyields
  split at hyields
  · exact hyields
  · rcases (Prog.yields_bind _ _ _).1 hyields with ⟨expanded, hexpanded, hyields⟩
    have hexpanded := hQ.expandAliasOnce _ _ ((Prog.yields_query _ _).1 hexpanded)
    cases expanded with
    | some expanded =>
      -- the expected type is expanded, which is the actual one of the match back
      have hrelated : Related nodes options node S expanded (normalized options actual) :=
        ⟨hS.expanded_mem _ _ h.expected_mem hexpanded, hmem',
          hS.matching_of_expands h hdiffer hexpanded,
          hS.matching_expanded hmem' hmem (by rw [hnormal]; exact hexpanded) hback⟩
      exact hQ.isAssignable _ _ _ _ hrelated ((Prog.yields_query _ _).1 hyields)
    | none =>
      rcases (Prog.yields_bind _ _ _).1 hyields with ⟨expandedActual, hactual, hyields⟩
      have hactual := hQ.expandAliasOnce _ _ ((Prog.yields_query _ _).1 hactual)
      cases expandedActual with
      | some expandedActual =>
        have hrelated : Related nodes options node S (normalized options expected)
            expandedActual :=
          ⟨hmem, hS.expanded_mem _ _ h.actual_mem hactual,
            hS.matching_expanded hmem hmem' (by rw [hnormal']; exact hactual) hmatching,
            hS.matching_of_expands h.symm hdiffer.symm hactual⟩
        exact hQ.isAssignable _ _ _ _ hrelated ((Prog.yields_query _ _).1 hyields)
      | none =>
        have hparts : PartsRelated nodes options node S (normalized options expected)
            (normalized options actual) :=
          ⟨⟨hmem, hmem', hmatching, hback⟩, hnormal, hnormal',
            hS.partsMatch h hdiffer hexpanded hactual,
            hS.partsMatch h.symm hdiffer.symm hactual hexpanded⟩
        exact structurallyAssignable_true hQ hS hparts hyields

theorem directAssignable_true (hS : RegularTypes nodes options node S)
    (h : Related nodes options node S expected actual)
    (hyields : (directSemanticTypeIsAssignable nodes options node expected actual visiting).Yields
      Q result) : result = true := by
  unfold directSemanticTypeIsAssignable at hyields
  simp only at hyields
  cases hdecided : decidedAtOnce options (normalizeTypeForAssignabilityOptions options expected)
      (normalizeTypeForAssignabilityOptions options actual) with
  | some decided =>
    simp only [hdecided] at hyields
    have hresult : result = decided := hyields
    rw [hresult]
    exact decidedAtOnce_true (hS.not_top actual h.actual_mem) hdecided
  | none =>
    simp only [hdecided] at hyields
    have hdiffer : normalized options expected ≠ normalized options actual := by
      intro hsame
      unfold decidedAtOnce at hdecided
      rw [if_pos hsame] at hdecided
      cases hdecided
    have hsearch : (searchAssignable nodes node (normalized options expected)
        (normalized options actual) visiting).Yields Q result := by
      by_cases htaint : options.taint = true
      · rw [if_pos htaint] at hyields
        rcases (Prog.yields_bind _ _ _).1 hyields with ⟨tainted, htainted, hyields⟩
        have hexpected := hS.untainted htaint expected h.expected_mem
        have hactual := hS.untainted htaint actual h.actual_mem
        unfold normalized at hexpected hactual
        unfold taintQualifiedAssignability at htainted
        rw [hexpected, hactual] at htainted
        cases htainted
        exact hyields
      · rw [if_neg htaint] at hyields
        exact hyields
    exact searchAssignable_true hQ hS h hdiffer hsearch

end Search

/-- What is asked about two of the types that match both ways has the answer yes. -/
def AnswersYesOn (nodes : List ModuleNode) (options : AssignabilityOptions) (node : ModuleNode)
    (S : SemanticType → Prop) : (question : Question) → question.Answer → Prop
  | .isAssignable node' expected actual _, result =>
    node' = node → Related nodes options node S expected actual → result = true
  | _, _ => True

/-- Types that match both ways are never found not to be assignable. -/
theorem RegularTypes.isAssignable_true (hS : RegularTypes nodes options node S)
    (h : Related nodes options node S expected actual)
    {visiting : List (SemanticType × SemanticType)}
    (hanswer : Answers (Question.body nodes options)
      (.isAssignable node expected actual visiting) result) : result = true := by
  refine answers_induct (P := AnswersYesOn nodes options node S) ?_ hanswer rfl h
  intro question answer hbody
  cases question with
  | isAssignable node' expected actual visiting =>
    intro hnode h
    subst hnode
    refine directAssignable_true ⟨?_, ?_, ?_⟩ hS h hbody
    · intro expected actual visiting result h hquestion
      exact hquestion.1 rfl h
    · intro expected actual visiting result h hquestion
      exact h.answer hquestion.2
    · intro ty expanded hquestion
      exact hquestion.2
  | typeMatches => trivial
  | expandAliasOnce => trivial
  | expandAliasesInProviderContext => trivial
  | aliasEventuallyMentions => trivial
  | typeMentionsAlias => trivial

/-! ## Containers -/

/-- A head that means a class without variance: `list`, `dict`, `set` or a class of the user. -/
structure InvariantHead (nodes : List ModuleNode) (node : ModuleNode) (head : String) : Prop where
  not_alias : resolveDirectTypeAlias nodes node head = none
  names : ∀ declaration ∈ node.declarations, '[' ∉ declaration.name.toList
  invariant : ∀ arity, variancesForGenericHead head arity = List.replicate arity .invariant
  not_special : head ∉ ["Callable", "Optional", "Literal", "Tainted", "tuple", "Sequence"]

/-- The expected argument is named after a recursive alias. -/
def LeadsBack (nodes : List ModuleNode) (options : AssignabilityOptions) (node : ModuleNode)
    (ty : SemanticType) : Prop :=
  (recursiveTypeAliasHeadSemantic nodes node ty).Yields
    (Answers (Question.body nodes options)) true

/-- The arguments match both ways, or the expected one is a recursive alias that takes the
other. -/
def ArgsMatch (nodes : List ModuleNode) (options : AssignabilityOptions) (node : ModuleNode)
    (expected actual : SemanticType) : Prop :=
  (Matching nodes options node expected actual ∧ Matching nodes options node actual expected)
    ∨ (LeadsBack nodes options node expected ∧ Accepts nodes options node expected actual)

theorem argsMatch_refl (ty : SemanticType) : ArgsMatch nodes options node ty ty :=
  .inl ⟨matching_of_eq rfl, matching_of_eq rfl⟩

theorem argsMatch_of_invariantMatches
    (h : (invariantMatches nodes node expected actual).Yields
      (Answers (Question.body nodes options)) true) :
    ArgsMatch nodes options node expected actual := by
  unfold invariantMatches at h
  rcases (yields_or _ _ _).1 h with ⟨hboth, -⟩ | ⟨-, halias⟩
  · rcases (yields_and _ _ _).1 hboth with ⟨hforth, hback⟩ | ⟨-, hfalse⟩
    · exact .inl ⟨matching_of_typeMatches ((Prog.yields_query _ _).1 hforth),
        matching_of_typeMatches ((Prog.yields_query _ _).1 hback)⟩
    · cases hfalse
  · rcases (yields_and _ _ _).1 halias with ⟨hleads, haccepts⟩ | ⟨-, hfalse⟩
    · exact .inr ⟨hleads, (Prog.yields_query _ _).1 haccepts⟩
    · cases hfalse

theorem forall₂_self {α : Type} {R : α → α → Prop} (hR : ∀ a, R a a) (items : List α) :
    List.Forall₂ R items items := by
  induction items with
  | nil => exact .nil
  | cons a rest ih => exact .cons (hR a) ih

theorem length_eraseTaintFromAll (args : List SemanticType) :
    (eraseTaintFromAll args).length = args.length := by
  induction args with
  | nil => rfl
  | cons arg rest ih => rw [eraseTaintFromAll, List.length_cons, List.length_cons, ih]

theorem length_normalizedArgs (args : List SemanticType) :
    (normalizedArgs options args).length = args.length := by
  unfold normalizedArgs
  split
  · rfl
  · exact length_eraseTaintFromAll args

namespace InvariantHead

variable {head : String} (h : InvariantHead nodes node head)
include h

theorem ne (name : String)
    (hname : name ∈ ["Callable", "Optional", "Literal", "Tainted", "tuple", "Sequence"]) :
    head ≠ name := by
  intro heq
  exact h.not_special (heq ▸ hname)

theorem expandAliasOnce (args : List SemanticType) (expanded : Option SemanticType) :
    Answers (Question.body nodes options) (.expandAliasOnce node (.generic head args)) expanded
      ↔ expanded = none := by
  rw [answers_iff]
  show (expandSemanticTypeAliasOnce nodes node (.generic head args)).Yields _ expanded ↔ _
  simp [expandSemanticTypeAliasOnce, aliasHead, SemanticType.stripAnnotated, h.not_alias]

theorem unionBranches (args : List SemanticType) :
    semanticUnionBranches (.generic head args) = none := by
  unfold semanticUnionBranches
  split
  · rename_i hstrip
    cases hstrip
  · rename_i hstrip
    cases hstrip
    exact (h.ne "Optional" (by simp) rfl).elim
  · rfl

theorem enumOwner (args : List SemanticType) :
    semanticEnumMemberOwnerName (.generic head args) = none := by
  unfold semanticEnumMemberOwnerName
  split
  · rename_i hstrip
    cases hstrip
    exact (h.ne "Literal" (by simp) rfl).elim
  · rfl

theorem resolveDirectBase_eq_none (args : List SemanticType) :
    resolveDirectBase nodes node (renderSemanticType (.generic head args)) = none := by
  apply resolveDirectBase_eq_none_of_bracket h.names
  rw [renderSemanticType]
  simp

/-- Arguments of one length are compared pairwise. -/
theorem forall₂_of_sameHead (hlength : args.length = actualArgs.length) {result : Option Bool}
    (hyields : (sameHeadSemanticGenericAssignable nodes node head args actualArgs).Yields
      (Answers (Question.body nodes options)) result) : ∃ b, result = some b
      ∧ (b = true → List.Forall₂ (ArgsMatch nodes options node) args actualArgs) := by
  unfold sameHeadSemanticGenericAssignable at hyields
  rw [if_neg (h.ne "Callable" (by simp))] at hyields
  rcases (Prog.yields_bind _ _ _).1 hyields with ⟨b, hall, hresult⟩
  refine ⟨b, hresult, ?_⟩
  rintro rfl
  refine List.forall₂_iff_zip.2 ⟨hlength, ?_⟩
  intro x y hpair
  have hle : (args.zip actualArgs).length ≤ args.length := by
    rw [List.length_zip]
    omega
  have hmem : ((x, y), GenericVariance.invariant)
      ∈ (args.zip actualArgs).zip (variancesForGenericHead head args.length) := by
    rw [h.invariant, zip_replicate _ _ _ hle]
    exact List.mem_map.2 ⟨(x, y), hpair, rfl⟩
  exact argsMatch_of_invariantMatches (Prog.yields_all_true.1 hall _ hmem)

/-- Arguments of different lengths do not match. -/
theorem length_eq_of_matching
    (hmatching : Matching nodes options node (.generic head args) (.generic head actualArgs)) :
    args.length = actualArgs.length := by
  have hnormal := normalize_generic options (h.ne "Tainted" (by simp))
  have hlengths : (normalizedArgs options args).length = (normalizedArgs options actualArgs).length →
      args.length = actualArgs.length := by
    intro hlength
    rwa [length_normalizedArgs, length_normalizedArgs] at hlength
  apply hlengths
  have hstep := hmatching.step
  cases hstep with
  | same hsame =>
    unfold normalized at hsame
    rw [hnormal, hnormal] at hsame
    rw [(SemanticType.generic.inj hsame).2]
  | anyExpected hany =>
    unfold normalized at hany
    rw [hnormal] at hany
    simp [isAnySemanticType] at hany
  | anyActual hany =>
    unfold normalized at hany
    rw [hnormal] at hany
    simp [isAnySemanticType] at hany
  | expandExpected hexpands _ =>
    unfold normalized ExpandsTo at hexpands
    rw [hnormal] at hexpands
    cases (h.expandAliasOnce _ _).1 hexpands
  | expandActual _ hexpands _ =>
    unfold normalized ExpandsTo at hexpands
    rw [hnormal] at hexpands
    cases (h.expandAliasOnce _ _).1 hexpands
  | parts _ _ hparts =>
    unfold normalized at hparts
    rw [hnormal, hnormal] at hparts
    unfold PartsMatch at hparts
    simp only [h.unionBranches] at hparts
    rw [h.enumOwner] at hparts
    have hnoEnum : ¬ none = some (renderSemanticType (.generic head (normalizedArgs options args))) :=
      by simp
    rcases hparts.resolve_left hnoEnum with
      ⟨head', args', actualArgs', hargs, hactualArgs, hmatch⟩
    cases hargs
    cases hactualArgs
    have hlength := hmatch.length_eq
    rwa [comparedArgs, comparedArgs, if_neg (h.ne "tuple" (by simp)),
      if_neg (h.ne "tuple" (by simp))] at hlength

theorem forall₂_of_bridge {actualHead : String} (hhead : actualHead = head) {result : Option Bool}
    (hyields : (assignableSemanticGenericBridge nodes node (.generic head args)
      (.generic actualHead actualArgs)).Yields (Answers (Question.body nodes options)) result) :
    (args.length ≠ actualArgs.length ∧ result = none)
      ∨ ∃ b, result = some b
        ∧ (b = true → List.Forall₂ (ArgsMatch nodes options node) args actualArgs) := by
  have hparts : ∀ (name : String) (items : List SemanticType),
      (SemanticType.generic name items).genericParts = some (name, items) := fun _ _ => rfl
  have htuple : ¬ (decide (head = "tuple") && decide (actualHead = "tuple")) = true := by
    have hne := h.ne "tuple" (by simp)
    simp [hne]
  unfold assignableSemanticGenericBridge at hyields
  simp only [hparts] at hyields
  rw [if_neg htuple] at hyields
  by_cases hlength : args.length = actualArgs.length
  · rw [if_pos (by simp [hhead, hlength])] at hyields
    exact .inr (h.forall₂_of_sameHead hlength hyields)
  · rw [if_neg (by simp [hlength])] at hyields
    refine .inl ⟨hlength, ?_⟩
    have hmapping : head ≠ "Mapping" := by
      intro heq
      have hvariances := h.invariant 2
      rw [heq] at hvariances
      revert hvariances
      decide
    split at hyields
    · exact (hmapping rfl).elim
    · exact (h.ne "Sequence" (by simp) rfl).elim
    · exact hyields

/-- Two containers that are written differently are decided by their arguments. -/
theorem forall₂_of_named {visiting : List (SemanticType × SemanticType)}
    (htext : renderSemanticType (.generic head args)
      ≠ renderSemanticType (.generic head actualArgs))
    (hyields : (namedAssignable nodes node (.generic head args) (.generic head actualArgs)
      visiting).Yields (Answers (Question.body nodes options)) true) :
    List.Forall₂ (ArgsMatch nodes options node) args actualArgs := by
  have hprotocol : protocolAssignable nodes node (renderSemanticType (.generic head args))
      (renderSemanticType (.generic head actualArgs)) = pure false := by
    unfold protocolAssignable
    rw [h.resolveDirectBase_eq_none]
  have hnominal : nominalSubclassAssignable nodes node (renderSemanticType (.generic head args))
      (renderSemanticType (.generic head actualArgs)) = pure false := by
    unfold nominalSubclassAssignable
    rw [if_neg htext, h.resolveDirectBase_eq_none]
  unfold namedAssignable at hyields
  simp only [hprotocol, hnominal, h.enumOwner, Prog.yields_bind, Prog.yields_pure,
    exists_eq_left, reduceCtorEq, decide_false, Bool.or_self, Bool.false_eq_true, if_false]
    at hyields
  rcases hyields with ⟨bridge, hbridge, hyields⟩
  rcases h.forall₂_of_bridge rfl hbridge with ⟨hlength, rfl⟩ | ⟨b, rfl, hforall⟩
  · -- no rule applies to different numbers of arguments, and matching says no
    have hmatches : (Search.typeMatches node (.generic head args) (.generic head actualArgs)
        []).Yields (Answers (Question.body nodes options)) true := hyields
    have hmatching := matching_of_typeMatches ((Prog.yields_query _ _).1 hmatches)
    exact (hlength (h.length_eq_of_matching hmatching)).elim
  · exact hforall hyields.symm

/-- What one container takes of another is decided by their arguments. -/
theorem forall₂_of_accepts
    (htext : renderSemanticType (.generic head (normalizedArgs options args))
        = renderSemanticType (.generic head (normalizedArgs options actualArgs)) →
      normalizedArgs options args = normalizedArgs options actualArgs)
    (haccepts : Accepts nodes options node (.generic head args) (.generic head actualArgs)) :
    List.Forall₂ (ArgsMatch nodes options node) (normalizedArgs options args)
      (normalizedArgs options actualArgs) := by
  by_cases heq : normalizedArgs options args = normalizedArgs options actualArgs
  · rw [heq]
    exact forall₂_self argsMatch_refl _
  · unfold Accepts IsAssignable at haccepts
    rw [answers_iff] at haccepts
    change (directSemanticTypeIsAssignable nodes options node (.generic head args)
      (.generic head actualArgs) []).Yields _ true at haccepts
    unfold directSemanticTypeIsAssignable at haccepts
    simp only [normalize_generic options (h.ne "Tainted" (by simp))] at haccepts
    have hdecided : decidedAtOnce options (.generic head (normalizedArgs options args))
        (.generic head (normalizedArgs options actualArgs)) = none := by
      simp [decidedAtOnce, heq, isUnknownSemanticType, isDynamicSemanticType,
        isObjectSemanticType, isAnySemanticType, isTopReceivingSemanticType,
        isTopEscapingSemanticType, semanticTypeIsNone, SemanticType.stripAnnotated]
    have htainted : taintQualifiedAssignability nodes node
        (.generic head (normalizedArgs options args))
        (.generic head (normalizedArgs options actualArgs)) = pure none := by
      have hparts : ∀ items : List SemanticType,
          semanticTaintedParts (.generic head items) = none := by
        intro items
        unfold semanticTaintedParts
        split
        · rename_i hparts
          cases hparts
          exact (h.ne "Tainted" (by simp) rfl).elim
        · rfl
      unfold taintQualifiedAssignability
      rw [hparts, hparts]
    simp only [hdecided, htainted, ite_self, Prog.yields_bind, Prog.yields_pure, exists_eq_left, searchAssignable,
      List.not_mem_nil, if_false, Search.expandAliasOnce, Prog.yields_query, h.expandAliasOnce,
      structurallyAssignable, h.unionBranches, SemanticType.callableParts,
      SemanticType.stripAnnotated] at haccepts
    exact h.forall₂_of_named (fun halike => heq (htext halike)) haccepts

end InvariantHead

/-- The expected argument is a recursive alias that takes the other one, or neither argument is
found not to be assignable to the other, if they are among regular types. -/
def ArgsAgree (nodes : List ModuleNode) (options : AssignabilityOptions) (node : ModuleNode)
    (expected actual : SemanticType) : Prop :=
  (LeadsBack nodes options node expected ∧ Accepts nodes options node expected actual)
    ∨ ∀ S, RegularTypes nodes options node S → S expected → S actual →
        ¬ IsAssignable nodes options node expected actual false
          ∧ ¬ IsAssignable nodes options node actual expected false

theorem ArgsMatch.agree (h : ArgsMatch nodes options node expected actual) :
    ArgsAgree nodes options node expected actual := by
  rcases h with ⟨hforth, hback⟩ | halias
  · right
    intro S hS hexpected hactual
    have hrelated : Related nodes options node S expected actual :=
      ⟨hexpected, hactual, hforth, hback⟩
    refine ⟨?_, ?_⟩
    · intro hfalse
      cases hS.isAssignable_true hrelated hfalse
    · intro hfalse
      cases hS.isAssignable_true hrelated.symm hfalse
  · exact .inl halias

section Lists

def listOf (element : SemanticType) : SemanticType := .generic "list" [element]

theorem listHead {nodes : List ModuleNode} {node : ModuleNode}
    (hnot_alias : resolveDirectTypeAlias nodes node "list" = none)
    (hnames : ∀ declaration ∈ node.declarations, '[' ∉ declaration.name.toList) :
    InvariantHead nodes node "list" where
  not_alias := hnot_alias
  names := hnames
  invariant := by
    intro arity
    simp [variancesForGenericHead]
  not_special := by decide

def numberOrText : SemanticType := .union [.name "int", .name "str"]

def textOrNumber : SemanticType := .union [.name "str", .name "int"]

def plainTypes : List SemanticType := [.name "int", .name "str", numberOrText, textOrNumber]

/-- Two different names of classes do not match. -/
theorem eq_of_matching_names {name name' : String}
    (hname : name ∈ ["int", "str"]) (hname' : name' ∈ ["int", "str"])
    (h : Matching [bareModule] {} bareModule (.name name) (.name name')) : name = name' := by
  have hnone : ∀ ty ∈ [SemanticType.name "int", .name "str"],
      ExpandsTo [bareModule] {} bareModule (normalized {} ty) none := by
    intro ty hty
    simp only [List.mem_cons, List.not_mem_nil, or_false] at hty
    rcases hty with rfl | rfl <;> exact ⟨2, by decide +kernel⟩
  have hmem : ∀ text ∈ ["int", "str"], SemanticType.name text ∈
      [SemanticType.name "int", .name "str"] := by decide
  cases h.step with
  | same hsame => simpa [normalized] using hsame
  | anyExpected hany => simp [normalized, isAnySemanticType] at hany; simp [hany] at hname
  | anyActual hany => simp [normalized, isAnySemanticType] at hany; simp [hany] at hname'
  | expandExpected hexpands _ => cases hexpands.unique (hnone _ (hmem name hname))
  | expandActual _ hexpands _ => cases hexpands.unique (hnone _ (hmem name' hname'))
  | parts _ _ hparts =>
    simp [normalized, PartsMatch, semanticUnionBranches, SemanticType.stripAnnotated,
      semanticEnumMemberOwnerName, SemanticType.genericParts] at hparts

theorem plainTypes_regular : RegularTypes [bareModule] {} bareModule (· ∈ plainTypes) := by
  have hnormalized : ∀ ty ∈ plainTypes, normalized {} ty = ty := by decide +kernel
  have hgeneric : ∀ ty ∈ plainTypes, ty.genericParts = none := by decide +kernel
  have hnone : ∀ ty ∈ plainTypes, answer (Question.body [bareModule] {}) 2
      (.expandAliasOnce bareModule ty) = some none := by decide +kernel
  have hbranches : ∀ ty ∈ plainTypes, ∀ branches, semanticUnionBranches ty = some branches →
      ∀ branch ∈ branches, ∃ name ∈ ["int", "str"], branch = .name name := by
    intro ty hty branches hunion branch hbranch
    have hall : ∀ ty ∈ plainTypes, ∀ branch ∈ (semanticUnionBranches ty).getD [],
        branch = .name "int" ∨ branch = .name "str" := by decide +kernel
    have hone := hall ty hty branch (by rw [hunion]; exact hbranch)
    rcases hone with rfl | rfl
    · exact ⟨"int", by decide, rfl⟩
    · exact ⟨"str", by decide, rfl⟩
  refine ⟨?_, ?_, ?_, ?_, ?_, ?_, ?_, ?_, ?_, ?_⟩
  · intro ty hty
    rw [hnormalized ty hty]
    exact hty
  · intro ty hty
    rw [hnormalized ty hty, hnormalized ty hty]
  · intro ty expanded hty hexpands
    rw [hnormalized ty hty] at hexpands
    cases Answers.unique hexpands ⟨2, hnone ty hty⟩
  · intro ty branches branch hty hunion hbranch
    rw [hnormalized ty hty] at hunion
    rcases hbranches ty hty branches hunion branch hbranch with ⟨name, hname, rfl⟩
    simp only [List.mem_cons, List.not_mem_nil, or_false] at hname
    rcases hname with rfl | rfl <;> decide +kernel
  · intro ty head args arg hty hargs
    rw [hnormalized ty hty, hgeneric ty hty] at hargs
    cases hargs
  · intro ty hty
    rw [hnormalized ty hty]
    revert ty
    decide +kernel
  · intro htaint
    cases htaint
  · intro ty args hty hargs
    rw [hnormalized ty hty, hgeneric ty hty] at hargs
    cases hargs
  · intro ty ty' hty _ hargs
    rw [hnormalized ty hty, hgeneric ty hty] at hargs
    exact (hargs rfl).elim
  · intro ty ty' branches branches' branch branch' hty hty' hunion hunion' hbranch hbranch' h
    rw [hnormalized ty hty] at hunion
    rw [hnormalized ty' hty'] at hunion'
    rcases hbranches ty hty branches hunion branch hbranch with ⟨name, hname, rfl⟩
    rcases hbranches ty' hty' branches' hunion' branch' hbranch' with ⟨name', hname', rfl⟩
    rw [eq_of_matching_names hname hname' h]
    exact matching_of_eq rfl

/-- `Json = str | list[Json]` -/
def jsonModule : ModuleNode where
  moduleKey := "app"
  declarations := [typeAliasDeclaration "Json" "str | list[Json]"]

end Lists

end TypePython.Checking
