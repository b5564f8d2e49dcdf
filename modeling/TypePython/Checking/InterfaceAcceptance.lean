import TypePython.Checking.InterfaceLookups
import TypePython.Checking.Overrides
import TypePython.Checking.TypeMatching

/-!
# Classes accepted for interfaces

The check accepts a class for an interface exactly when every requirement that the search of the
interface comes up with has a member that fits, as both are declared (`satisfiesInterface_iff`).
-/

namespace TypePython.Checking

open Relation
open TypePython.Lib
open TypePython.Binding

/-! ## What is accepted -/

section

variable (nodes : List ModuleNode) (options : AssignabilityOptions)

/-- The check accepts the class for the interface. -/
def SatisfiesInterface (cls interface : ClassRef) : Prop :=
  (typeSatisfiesInterface nodes cls.1 cls.2 interface.1 interface.2).Yields
    (Answers (Question.body nodes options)) true

open Classical in
/-- What the checker answers of two types in a module. -/
noncomputable def answersAssignable (node : ModuleNode) (expected actual : SemanticType) : Bool :=
  decide (IsAssignable nodes options node expected actual true)

/-- A member that the check takes for a requirement, looked up by its kind. -/
inductive MemberFits (cls : ClassRef) (name : String) (requirement : Declaration) : Prop
  | method {member : Declaration} :
      requirement.kind = .function → (memberSpace nodes .function name).Finds cls member →
        MembersMatch (answersAssignable nodes options) cls.1 member requirement →
          MemberFits cls name requirement
  | propertyValue {member : Declaration} :
      requirement.kind = .function → requirement.methodKind = some .property →
        (∀ other, ¬ (memberSpace nodes .function name).Finds cls other) →
          (memberSpace nodes .value name).Finds cls member →
            AnnotationsFit (answersAssignable nodes options) cls.1
              (declarationSignatureReturnSemanticType requirement)
              (declarationEffectiveValueSemanticType member) →
                MemberFits cls name requirement
  | value {member : Declaration} :
      requirement.kind = .value → (memberSpace nodes .value name).Finds cls member →
        AnnotationsFit (answersAssignable nodes options) cls.1
          (declarationValueAnnotationSemanticType requirement)
          (declarationEffectiveValueSemanticType member) →
            MemberFits cls name requirement

/-- Every requirement the interface comes up with has a member that fits. -/
def MembersFit (cls interface : ClassRef) : Prop :=
  ∀ name requirement, (requirementSpace nodes name).Finds interface requirement →
    MemberFits nodes options cls name requirement

end

variable {cls : ClassRef} {member requirement baseMember : Declaration} {node : ModuleNode}
  {name : String}

section

variable {nodes : List ModuleNode} {options : AssignabilityOptions}

theorem yields_optionalTypesAssignable {expected actual : Option SemanticType} :
    (optionalTypesAssignable node expected actual).Yields (Answers (Question.body nodes options)) true
      ↔ AnnotationsFit (answersAssignable nodes options) node expected actual := by
  cases expected with
  | none => simp [optionalTypesAssignable, AnnotationsFit]
  | some expected =>
    cases actual with
    | none => simp [optionalTypesAssignable, AnnotationsFit]
    | some actual =>
      simp only [AnnotationsFit, answersAssignable, decide_eq_true_eq]
      exact Prog.yields_query _ _

theorem shape_eq_iff {child base : SemanticCallableParam} :
    child.shape = base.shape
      ↔ (child.positionalOnly = base.positionalOnly && child.keywordOnly = base.keywordOnly
        && child.variadic = base.variadic && child.keywordVariadic = base.keywordVariadic
        && child.hasDefault = base.hasDefault && child.name = base.name) = true := by
  unfold SemanticCallableParam.shape
  simp only [SemanticCallableParam.mk.injEq, Bool.and_eq_true, decide_eq_true_eq, true_and]
  constructor
  · rintro ⟨hname, hdefault, honly, hkeyword, hvariadic, hkeywords⟩
    exact ⟨⟨⟨⟨⟨honly, hkeyword⟩, hvariadic⟩, hkeywords⟩, hdefault⟩, hname⟩
  · rintro ⟨⟨⟨⟨⟨honly, hkeyword⟩, hvariadic⟩, hkeywords⟩, hdefault⟩, hname⟩
    exact ⟨hname, hdefault, honly, hkeyword, hvariadic, hkeywords⟩

theorem yields_overrideParamCompatible {child base : SemanticCallableParam} :
    (overrideParamCompatible node child base).Yields (Answers (Question.body nodes options)) true
      ↔ child.shape = base.shape
        ∧ AnnotationsFit (answersAssignable nodes options) node ( child.annotation)
          ( base.annotation) := by
  rw [← yields_optionalTypesAssignable, shape_eq_iff]
  unfold overrideParamCompatible
  split
  · next hsame => rw [and_iff_right hsame]
  · next hdiffer => simp [hdiffer]

theorem sameCallableSignature_iff : sameCallableSignature member baseMember = true
      ↔ member.callableSignature.isSome = true
        ∧ member.callableSignature = baseMember.callableSignature := by
  unfold sameCallableSignature
  cases member.callableSignature with
  | none => simp
  | some signature =>
    cases baseMember.callableSignature with
    | none => simp
    | some baseSignature =>
      rcases signature with ⟨params, returns⟩
      rcases baseSignature with ⟨baseParams, baseReturns⟩
      have hreturns : returns.map BoundTypeExpr.expr = baseReturns.map BoundTypeExpr.expr
          ↔ returns = baseReturns := by
        apply Function.Injective.eq_iff
        apply Option.map_injective
        rintro ⟨expr⟩ ⟨expr'⟩ heq
        exact congrArg BoundTypeExpr.mk heq
      simp [hreturns]

/-- The words are compared part by part. -/
theorem sameSignature_iff : sameSignature member baseMember = true
      ↔ (member.methodKind = baseMember.methodKind && sameCallableSignature member baseMember)
        = true := by
  unfold sameSignature
  rw [Bool.and_assoc, Bool.and_eq_true, Bool.and_eq_true, Bool.and_eq_true,
    sameCallableSignature_iff, decide_eq_true_eq, decide_eq_true_eq]

theorem overridesContextManagerMethod_eq (member baseMember : Declaration) :
    overridesContextManagerMethod member baseMember = comparesArityOnly member baseMember := by
  unfold overridesContextManagerMethod comparesArityOnly
  cases baseMember.owner with
  | none => simp
  | some owner => simp

theorem yields_signaturesFit {params baseParams : List SemanticCallableParam}
    (hlength : params.length = baseParams.length) : (Search.and
        (Prog.all (fun param : SemanticCallableParam × SemanticCallableParam =>
          overrideParamCompatible node param.1 param.2) (params.zip baseParams))
        (optionalTypesAssignable node (methodReturnSemanticType baseMember)
          (methodReturnSemanticType member))).Yields (Answers (Question.body nodes options)) true
      ↔ SignaturesFit (answersAssignable nodes options) node member baseMember params
        baseParams := by
  have hreturns : methodReturnSemanticType = declaredReturnType := rfl
  simp only [yields_and, Bool.true_eq_false, and_false, or_false, Prog.yields_all_true,
    yields_overrideParamCompatible, yields_optionalTypesAssignable, hreturns]
  constructor
  · rintro ⟨hparams, hresult⟩
    exact ⟨(map_shape_eq_iff hlength).1 fun pair hpair => (hparams pair hpair).1,
      fun pair hpair => (hparams pair hpair).2, hresult⟩
  · intro h
    exact ⟨fun pair hpair => ⟨(map_shape_eq_iff hlength).2 h.shapes pair hpair,
      h.parameters pair hpair⟩, h.returns⟩

/-- The search compares methods as the check of overrides does. -/
theorem yields_methodsAreCompatibleForOverride :
    (methodsAreCompatibleForOverride node member baseMember).Yields
        (Answers (Question.body nodes options)) true
      ↔ MembersMatch (answersAssignable nodes options) node member baseMember := by
  unfold methodsAreCompatibleForOverride MembersMatch
  rw [sameSignature_iff, overridesContextManagerMethod_eq]
  by_cases hsame : (member.methodKind = baseMember.methodKind
      && sameCallableSignature member baseMember) = true
  · rw [if_pos hsame]
    simp [hsame]
  rw [if_neg hsame, or_iff_right hsame]
  by_cases harity : comparesArityOnly member baseMember = true
  · rw [if_pos harity]
    simp [harity, eq_comm]
  rw [if_neg harity]
  rw [Bool.not_eq_true] at harity
  simp only [harity, Bool.false_eq_true, false_and, false_or, true_and]
  by_cases hkind : member.methodKind = baseMember.methodKind
  · rw [if_neg (not_not_intro hkind)]
    cases declarationSemanticSignatureParams member with
    | none => simp [hkind]
    | some params =>
      cases declarationSemanticSignatureParams baseMember with
      | none => simp [hkind]
      | some baseParams =>
        rw [forall_some_some_iff]
        simp only [hkind, true_and]
        by_cases hlength : params.length = baseParams.length
        · rw [if_neg (not_not_intro hlength), yields_signaturesFit hlength]
        · rw [if_pos hlength]
          refine ⟨fun h => absurd h (by simp), fun h => absurd ?_ hlength⟩
          simpa using congrArg List.length h.shapes
  · rw [if_pos hkind]
    simp [hkind]

theorem memberFits_function (hkind : requirement.kind = .function)
    (hfinds : (memberSpace nodes .function name).Finds cls member) :
    MemberFits nodes options cls name requirement
      ↔ MembersMatch (answersAssignable nodes options) cls.1 member requirement := by
  constructor
  · intro h
    cases h with
    | method _ hother hmatch => rwa [hfinds.unique hother]
    | propertyValue _ _ hnone => exact absurd hfinds (hnone member)
    | value hvalue => rw [hkind] at hvalue; cases hvalue
  · exact .method hkind hfinds

theorem memberFits_propertyValue (hkind : requirement.kind = .function)
    (hnone : ∀ member, ¬ (memberSpace nodes .function name).Finds cls member) :
    MemberFits nodes options cls name requirement
      ↔ requirement.methodKind = some .property
        ∧ ∃ member, (memberSpace nodes .value name).Finds cls member
          ∧ AnnotationsFit (answersAssignable nodes options) cls.1
            (declarationSignatureReturnSemanticType requirement)
            (declarationEffectiveValueSemanticType member) := by
  constructor
  · intro h
    cases h with
    | method _ hfinds => exact absurd hfinds (hnone _)
    | propertyValue _ hproperty _ hfinds hfits => exact ⟨hproperty, _, hfinds, hfits⟩
    | value hvalue => rw [hkind] at hvalue; cases hvalue
  · rintro ⟨hproperty, member, hfinds, hfits⟩
    exact .propertyValue hkind hproperty hnone hfinds hfits

theorem memberFits_value (hkind : requirement.kind = .value) :
    MemberFits nodes options cls name requirement
      ↔ ∃ member, (memberSpace nodes .value name).Finds cls member
        ∧ AnnotationsFit (answersAssignable nodes options) cls.1
          (declarationValueAnnotationSemanticType requirement)
          (declarationEffectiveValueSemanticType member) := by
  constructor
  · intro h
    cases h with
    | method hfunction => rw [hkind] at hfunction; cases hfunction
    | propertyValue hfunction => rw [hkind] at hfunction; cases hfunction
    | value _ hfinds hfits => exact ⟨_, hfinds, hfits⟩
  · rintro ⟨member, hfinds, hfits⟩
    exact .value hkind hfinds hfits

theorem memberFits_kind (h : MemberFits nodes options cls name requirement) :
    requirement.kind = .function ∨ requirement.kind = .value := by
  cases h with
  | method hkind => exact .inl hkind
  | propertyValue hkind => exact .inl hkind
  | value hkind => exact .inr hkind

theorem yields_false : ¬ (pure false : Search Bool).Yields (Answers (Question.body nodes options))
    true := by
  simp

theorem yields_actualMemberSatisfiesRequirement (hknown : Known nodes cls)
    (hacyclic : Acyclic nodes cls) :
    (actualMemberSatisfiesRequirement nodes cls.1 cls.2 requirement).Yields
        (Answers (Question.body nodes options)) true
      ↔ MemberFits nodes options cls requirement.name requirement := by
  have hmethods : ∀ member,
      findApparentCallableDeclaration nodes cls.1 cls.2 requirement.name = some member
        ↔ (memberSpace nodes .function requirement.name).Finds cls member :=
    fun member => findApparentMember_iff hknown hacyclic
  have hvalues : ∀ member,
      findApparentValueDeclaration nodes cls.1 cls.2 requirement.name = some member
        ↔ (memberSpace nodes .value requirement.name).Finds cls member :=
    fun member => findApparentMember_iff hknown hacyclic
  unfold actualMemberSatisfiesRequirement
  cases hkind : requirement.kind with
  | function =>
    dsimp only
    cases hmethod : findApparentCallableDeclaration nodes cls.1 cls.2 requirement.name with
    | some member =>
      rw [memberFits_function hkind ((hmethods member).1 hmethod)]
      exact yields_methodsAreCompatibleForOverride
    | none =>
      rw [memberFits_propertyValue hkind fun member hfinds => by
        rw [(hmethods member).2 hfinds] at hmethod
        cases hmethod]
      dsimp only
      simp only [← hvalues]
      by_cases hproperty : requirement.methodKind = some .property
      · rw [if_pos hproperty, and_iff_right hproperty]
        cases findApparentValueDeclaration nodes cls.1 cls.2 requirement.name with
        | none => simp
        | some member => simp [yields_optionalTypesAssignable]
      · rw [if_neg hproperty]
        exact iff_of_false yields_false fun h => hproperty h.1
  | value =>
    dsimp only
    rw [memberFits_value hkind]
    simp only [← hvalues]
    cases findApparentValueDeclaration nodes cls.1 cls.2 requirement.name with
    | none => simp
    | some member => simp [yields_optionalTypesAssignable]
  | typeAlias | classDecl | overload | importDecl =>
    refine iff_of_false yields_false fun h => ?_
    rcases memberFits_kind h with hfunction | hvalue
    · rw [hkind] at hfunction
      cases hfunction
    · rw [hkind] at hvalue
      cases hvalue

/-- The check accepts a class when every requirement has a member that fits. -/
theorem satisfiesInterface_iff {interface : ClassRef} (hknown : Known nodes cls)
    (hacyclic : Acyclic nodes cls) (hinterface : Known nodes interface)
    (hinterfaceAcyclic : Acyclic nodes interface) :
    SatisfiesInterface nodes options cls interface ↔ MembersFit nodes options cls interface := by
  unfold SatisfiesInterface typeSatisfiesInterface MembersFit
  rw [Prog.yields_all_true]
  constructor
  · intro h name requirement hfinds
    obtain ⟨owner, -, hown⟩ := finds_way hfinds
    obtain rfl := (ownMember_spec hown).name
    have hmem := (mem_collectInterfaceMembers hinterface hinterfaceAcyclic).2 hfinds
    exact (yields_actualMemberSatisfiesRequirement hknown hacyclic).1 (h requirement hmem)
  · intro h requirement hmem
    have hfinds := (mem_collectInterfaceMembers hinterface hinterfaceAcyclic).1 hmem
    exact (yields_actualMemberSatisfiesRequirement hknown hacyclic).2
      (h requirement.name requirement hfinds)

end

end TypePython.Checking
