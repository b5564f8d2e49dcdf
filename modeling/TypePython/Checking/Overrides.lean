import TypePython.Checking.AbstractClasses
import TypePython.Checking.CallAdmission

/-!
# The checks of overriding members

A member is compared with the first member of its name and kind in each base that is found under
its whole text, parameter by parameter and as both are declared. Members behind those bases are not
looked at.
-/

namespace TypePython.Checking

open TypePython.Binding

/-! ## Two members -/

inductive OverrideCompatibilityFailure where
  | methodKindMismatch
  | parameterCountMismatch (childCount baseCount : Nat)
  | specialContextManagerArityMismatch (childCount baseCount : Option Nat)
  | parameterModifierMismatch (parameterName : String)
  | parameterNameMismatch (childName baseName : String)
  | parameterTypeMismatch (parameterName : String) (expected actual : SemanticType)
  | returnTypeMismatch (expected actual : SemanticType)
deriving DecidableEq

section

variable (isAssignable : ModuleNode → SemanticType → SemanticType → Bool)

/-- A parameter of an overriding method against the one in its place. -/
def overrideParamFailure (node : ModuleNode) (pair : SemanticCallableParam × SemanticCallableParam) :
    Option OverrideCompatibilityFailure :=
  let (child, base) := pair
  if child.positionalOnly ≠ base.positionalOnly || child.keywordOnly ≠ base.keywordOnly
      || child.variadic ≠ base.variadic || child.keywordVariadic ≠ base.keywordVariadic
      || child.hasDefault ≠ base.hasDefault then
    some (.parameterModifierMismatch child.name)
  else if child.name ≠ base.name then some (.parameterNameMismatch child.name base.name)
  else
    match child.annotation, base.annotation with
    | some childType, some baseType =>
      if isAssignable node childType baseType then none
      else some (.parameterTypeMismatch child.name childType baseType)
    | _, _ => none

/-- What a method returns, `Self` being the class that declares it. -/
def declaredReturnType (member : Declaration) : Option SemanticType :=
  match member.owner with
  | none => declarationSignatureReturnSemanticType member
  | some owner => declarationSignatureReturnSemanticTypeWithSelf member owner.name

def overrideReturnFailure (node : ModuleNode) (member baseMember : Declaration) :
    Option OverrideCompatibilityFailure :=
  match declaredReturnType member, declaredReturnType baseMember with
  | some childReturn, some baseReturn =>
    if isAssignable node baseReturn childReturn then none
    else some (.returnTypeMismatch baseReturn childReturn)
  | _, _ => none

/-- The two are declared with the same words. -/
def sameSignature (member baseMember : Declaration) : Bool :=
  member.methodKind = baseMember.methodKind && member.callableSignature.isSome
    && member.callableSignature = baseMember.callableSignature

/-- Of these members of context managers only the number of parameters is compared. -/
def comparesArityOnly (member baseMember : Declaration) : Bool :=
  (member.name = "__enter__" || member.name = "__exit__")
    && baseMember.owner.any (fun owner =>
      owner.name = "ContextManager" || owner.name = "AbstractContextManager")
    && member.methodKind = some .instanceMethod && baseMember.methodKind = some .instanceMethod

def methodOverrideIncompatibility (node : ModuleNode) (member baseMember : Declaration) :
    Option OverrideCompatibilityFailure :=
  if sameSignature member baseMember then none
  else if comparesArityOnly member baseMember then
    if declarationSignatureParamCount member ≠ declarationSignatureParamCount baseMember then
      some (.specialContextManagerArityMismatch (declarationSignatureParamCount member)
        (declarationSignatureParamCount baseMember))
    else none
  else if member.methodKind ≠ baseMember.methodKind then some .methodKindMismatch
  else
    match declarationSemanticSignatureParams member,
      declarationSemanticSignatureParams baseMember with
    | some params, some baseParams =>
      if params.length ≠ baseParams.length then
        some (.parameterCountMismatch params.length baseParams.length)
      else
        ((params.zip baseParams).findSome? (overrideParamFailure isAssignable node)).or
          (overrideReturnFailure isAssignable node member baseMember)
    | _, _ => none

end

/-! ## The members of a module -/

section

variable (nodes : List ModuleNode)
  (isAssignable : ModuleNode → SemanticType → SemanticType → Bool)

def topLevelClasses (node : ModuleNode) : List Declaration :=
  node.declarations.filter fun declaration =>
    declaration.kind = .classDecl && declaration.owner.isNone

def membersOf (cls : ClassRef) : List Declaration :=
  cls.1.declarations.filter fun declaration => isOwnedBy cls.2.name declaration

/-- The member of a base that a member is compared with. -/
def overriddenMember (base : ClassRef) (member : Declaration) : Option Declaration :=
  base.1.declarations.find? fun declaration =>
    isOwnedBy base.2.name declaration && declaration.name = member.name
      && declaration.kind = member.kind

structure OverrideDiagnostic where
  message : String
  reason : OverrideCompatibilityFailure

def overrideDiagnostic (cls : ClassRef) (member : Declaration) (base : String) :
    Option OverrideDiagnostic := do
  let baseClass ← resolveDirectBase nodes cls.1 base
  let baseMember ← overriddenMember baseClass member
  let reason ← methodOverrideIncompatibility isAssignable cls.1 member baseMember
  return {
    message := "type \x60" ++ cls.2.name ++ "\x60 in module \x60" ++ cls.1.modulePath
      ++ "\x60 overrides member \x60" ++ member.name ++ "\x60 from base \x60" ++ baseClass.2.name
      ++ "\x60 with an incompatible signature or annotation"
    reason }

def overrideCompatibilityDiagnostics (node : ModuleNode) : List OverrideDiagnostic :=
  (topLevelClasses node).flatMap fun declaration =>
    (membersOf (node, declaration)).flatMap fun member =>
      declaration.renderedClassBases.filterMap
        (overrideDiagnostic nodes isAssignable (node, declaration) member)

/-- The base declares a member of the name with a flag. -/
def declaresFlagged (flag : Declaration → Bool) (base : ClassRef) (memberName : String) : Bool :=
  base.1.declarations.any fun declaration =>
    isOwnedBy base.2.name declaration && declaration.name = memberName && flag declaration

/-- The members of a class that a base declares with a flag, as a diagnostic of a code. -/
def finalMemberDiagnostics (flag : Declaration → Bool) (code word : String) (cls base : ClassRef) :
    List ClassDiagnostic :=
  ((membersOf cls).filter fun member => declaresFlagged flag base member.name).map fun member =>
    { code
      message := "type \x60" ++ cls.2.name ++ "\x60 in module \x60" ++ cls.1.modulePath
        ++ "\x60 overrides " ++ word ++ " member \x60" ++ member.name ++ "\x60 from base \x60"
        ++ base.2.name ++ "\x60" }

def finalClassDiagnostic (cls base : ClassRef) : List ClassDiagnostic :=
  if base.2.isFinalDecorator then
    [{ code := "TPY4005"
       message := "type \x60" ++ cls.2.name ++ "\x60 in module \x60" ++ cls.1.modulePath
        ++ "\x60 subclasses final class \x60" ++ base.2.name ++ "\x60" }]
  else []

def finalDecoratorDiagnostics (node : ModuleNode) : List ClassDiagnostic :=
  (topLevelClasses node).flatMap fun declaration =>
    (declaration.renderedClassBases.filterMap (resolveDirectBase nodes node)).flatMap fun base =>
      finalClassDiagnostic (node, declaration) base
        ++ finalMemberDiagnostics Declaration.isFinalDecorator "TPY4005" "final"
          (node, declaration) base

def finalOverrideDiagnostics (node : ModuleNode) : List ClassDiagnostic :=
  (topLevelClasses node).flatMap fun declaration =>
    (declaration.renderedClassBases.filterMap (resolveDirectBase nodes node)).flatMap fun base =>
      finalMemberDiagnostics Declaration.isFinal "TPY4006" "Final" (node, declaration) base

/-- None of the three checks reports anything. -/
def OverridesAccepted : Prop :=
  ∀ node ∈ nodes, overrideCompatibilityDiagnostics nodes isAssignable node = []
    ∧ finalDecoratorDiagnostics nodes node = [] ∧ finalOverrideDiagnostics nodes node = []

end

/-! ## What is accepted -/

section

variable (nodes : List ModuleNode)
  (isAssignable : ModuleNode → SemanticType → SemanticType → Bool)

/-- Types in the same place, as far as there are any. -/
def AnnotationsFit (node : ModuleNode) : Option SemanticType → Option SemanticType → Prop
  | some expected, some actual => isAssignable node expected actual = true
  | _, _ => True

/-- Parameters of the same names and kinds in the same order, and types that fit. -/
structure SignaturesFit (node : ModuleNode) (member baseMember : Declaration)
    (params baseParams : List SemanticCallableParam) : Prop where
  shapes : params.map SemanticCallableParam.shape = baseParams.map SemanticCallableParam.shape
  parameters : ∀ pair ∈ params.zip baseParams,
    AnnotationsFit isAssignable node (SemanticCallableParam.annotation pair.1)
      (SemanticCallableParam.annotation pair.2)
  returns : AnnotationsFit isAssignable node (declaredReturnType baseMember)
    (declaredReturnType member)

/-- What the check asks of two members. -/
def MembersMatch (node : ModuleNode) (member baseMember : Declaration) : Prop :=
  sameSignature member baseMember = true
    ∨ (comparesArityOnly member baseMember = true
      ∧ declarationSignatureParamCount member = declarationSignatureParamCount baseMember)
    ∨ (comparesArityOnly member baseMember = false ∧ member.methodKind = baseMember.methodKind
      ∧ ∀ params baseParams, declarationSemanticSignatureParams member = some params →
        declarationSemanticSignatureParams baseMember = some baseParams →
          SignaturesFit isAssignable node member baseMember params baseParams)

/-- What the checks ask of a class and a base found under its whole text. -/
structure MatchesBase (cls base : ClassRef) : Prop where
  notFinal : base.2.isFinalDecorator = false
  membersNotFinal : ∀ member ∈ membersOf cls, ∀ flag ∈ [Declaration.isFinalDecorator, Declaration.isFinal],
    declaresFlagged flag base member.name = false
  membersMatch : ∀ member ∈ membersOf cls, ∀ baseMember,
    overriddenMember base member = some baseMember →
      MembersMatch isAssignable cls.1 member baseMember

/-- The classes of the graph match the bases found under their whole texts. -/
def MatchWrittenBases : Prop :=
  ∀ node ∈ nodes, ∀ declaration ∈ topLevelClasses node, ∀ base,
    WrittenBase nodes (node, declaration) base → MatchesBase isAssignable (node, declaration) base

end

section

variable {nodes : List ModuleNode}
  {isAssignable : ModuleNode → SemanticType → SemanticType → Bool}

theorem overrideParamFailure_eq_none {node : ModuleNode} {child base : SemanticCallableParam} :
    overrideParamFailure isAssignable node (child, base) = none
      ↔ child.shape = base.shape
        ∧ AnnotationsFit isAssignable node ( child.annotation) ( base.annotation) := by
  rcases child with ⟨name, _, childType, hasDefault, positionalOnly, keywordOnly, variadic, keywords⟩
  rcases base with ⟨name', _, baseType, hasDefault', positionalOnly', keywordOnly', variadic',
    keywords'⟩
  unfold overrideParamFailure SemanticCallableParam.shape
  simp only [SemanticCallableParam.mk.injEq, true_and]
  split
  · next hmodifiers =>
      simp only [Bool.or_eq_true, decide_eq_true_eq, ne_eq, or_assoc] at hmodifiers
      refine ⟨fun h => absurd h (by simp), fun h => ?_⟩
      rcases h.1 with ⟨-, hdefault, honly, hkeyword, hvariadic, hkeywords⟩
      rcases hmodifiers with h | h | h | h | h
      · exact absurd honly h
      · exact absurd hkeyword h
      · exact absurd hvariadic h
      · exact absurd hkeywords h
      · exact absurd hdefault h
  · next hmodifiers =>
      simp only [Bool.or_eq_true, decide_eq_true_eq, ne_eq, or_assoc, not_or, not_not]
        at hmodifiers
      rcases hmodifiers with ⟨rfl, rfl, rfl, rfl, rfl⟩
      split
      · next hname =>
          exact ⟨fun h => absurd h (by simp), fun h => absurd h.1.1 hname⟩
      · next hname =>
          rw [ne_eq, not_not] at hname
          cases childType with
          | none => simp [AnnotationsFit, hname]
          | some childType =>
            cases baseType with
            | none => simp [AnnotationsFit, hname]
            | some baseType => simp [AnnotationsFit, hname]

theorem overrideReturnFailure_eq_none {node : ModuleNode} {member baseMember : Declaration} :
    overrideReturnFailure isAssignable node member baseMember = none
      ↔ AnnotationsFit isAssignable node (declaredReturnType baseMember)
        (declaredReturnType member) := by
  unfold overrideReturnFailure
  cases declaredReturnType member with
  | none => cases declaredReturnType baseMember <;> simp [AnnotationsFit]
  | some childReturn =>
    cases declaredReturnType baseMember with
    | none => simp [AnnotationsFit]
    | some baseReturn => simp [AnnotationsFit]

theorem map_shape_eq_iff : ∀ {params baseParams : List SemanticCallableParam},
    params.length = baseParams.length →
      ((∀ pair ∈ params.zip baseParams, pair.1.shape = pair.2.shape)
        ↔ params.map SemanticCallableParam.shape = baseParams.map SemanticCallableParam.shape)
  | [], [], _ => by simp
  | param :: params, base :: baseParams, hlength => by
    have hlength : params.length = baseParams.length := by simpa using hlength
    simp [← map_shape_eq_iff hlength]

theorem parameters_fit_iff {node : ModuleNode} {params baseParams : List SemanticCallableParam}
    (hlength : params.length = baseParams.length) :
    (params.zip baseParams).findSome? (overrideParamFailure isAssignable node) = none
      ↔ params.map SemanticCallableParam.shape = baseParams.map SemanticCallableParam.shape
        ∧ ∀ pair ∈ params.zip baseParams,
          AnnotationsFit isAssignable node (SemanticCallableParam.annotation pair.1)
            (SemanticCallableParam.annotation pair.2) := by
  rw [List.findSome?_eq_none_iff, ← map_shape_eq_iff hlength, ← forall₂_and]
  simp only [imp_and, Prod.forall, overrideParamFailure_eq_none]

/-- What is asked of two values that are there. -/
theorem forall_some_some_iff {α β : Type} {P : α → β → Prop} {a : α} {b : β} :
    (∀ a' b', some a = some a' → some b = some b' → P a' b') ↔ P a b := by
  constructor
  · exact fun h => h a b rfl rfl
  · rintro h _ _ ⟨⟩ ⟨⟩
    exact h

theorem methodOverrideIncompatibility_eq_none {node : ModuleNode}
    {member baseMember : Declaration} :
    methodOverrideIncompatibility isAssignable node member baseMember = none
      ↔ MembersMatch isAssignable node member baseMember := by
  unfold methodOverrideIncompatibility MembersMatch
  by_cases hsame : sameSignature member baseMember = true
  · simp [hsame]
  rw [if_neg hsame, or_iff_right hsame]
  by_cases harity : comparesArityOnly member baseMember = true
  · rw [if_pos harity]
    simp [harity]
  rw [if_neg harity]
  rw [Bool.not_eq_true] at harity
  simp only [harity, Bool.false_eq_true, false_and, false_or, true_and]
  by_cases hkind : member.methodKind = baseMember.methodKind
  · rw [if_neg (not_not_intro hkind)]
    cases declarationSemanticSignatureParams member with
    | none => simp [hkind]
    | some params =>
      cases declarationSemanticSignatureParams baseMember with
      | none => simp [hkind]
      | some baseParams =>
        rw [forall_some_some_iff]
        simp only [hkind, true_and]
        by_cases hlength : params.length = baseParams.length
        · rw [if_neg (not_not_intro hlength), Option.or_eq_none_iff,
            parameters_fit_iff hlength, overrideReturnFailure_eq_none, and_assoc]
          exact ⟨fun h => ⟨h.1, h.2.1, h.2.2⟩, fun h => ⟨h.shapes, h.parameters, h.returns⟩⟩
        · rw [if_pos hlength]
          refine ⟨fun h => absurd h (by simp), fun h => absurd ?_ hlength⟩
          simpa using congrArg List.length h.shapes
  · rw [if_pos hkind]
    simp [hkind]

theorem mem_writtenBases {cls base : ClassRef} :
    base ∈ cls.2.renderedClassBases.filterMap (resolveDirectBase nodes cls.1)
      ↔ WrittenBase nodes cls base :=
  List.mem_filterMap

theorem finalMemberDiagnostics_eq_nil {flag : Declaration → Bool} {code word : String}
    {cls base : ClassRef} :
    finalMemberDiagnostics flag code word cls base = []
      ↔ ∀ member ∈ membersOf cls, declaresFlagged flag base member.name = false := by
  unfold finalMemberDiagnostics
  rw [List.map_eq_nil_iff, List.filter_eq_nil_iff]
  simp only [Bool.not_eq_true]

theorem overrideDiagnostic_eq_none {cls : ClassRef} {member : Declaration} {text : String} :
    overrideDiagnostic nodes isAssignable cls member text = none
      ↔ ∀ base, resolveDirectBase nodes cls.1 text = some base → ∀ baseMember,
        overriddenMember base member = some baseMember →
          MembersMatch isAssignable cls.1 member baseMember := by
  unfold overrideDiagnostic
  cases resolveDirectBase nodes cls.1 text with
  | none => simp
  | some base =>
    simp only [Option.bind_eq_bind, Option.bind_some, Option.some.injEq, forall_eq']
    cases overriddenMember base member with
    | none => simp
    | some baseMember =>
      simp only [Option.bind_some, Option.some.injEq, forall_eq']
      rw [← methodOverrideIncompatibility_eq_none]
      cases methodOverrideIncompatibility isAssignable cls.1 member baseMember <;> simp

/-- The three checks report nothing exactly when each class matches the bases found under their
whole texts. -/
theorem overridesAccepted_iff :
    OverridesAccepted nodes isAssignable ↔ MatchWrittenBases nodes isAssignable := by
  unfold OverridesAccepted MatchWrittenBases overrideCompatibilityDiagnostics
    finalDecoratorDiagnostics finalOverrideDiagnostics
  simp only [List.flatMap_eq_nil_iff, List.filterMap_eq_nil_iff, List.append_eq_nil_iff,
    overrideDiagnostic_eq_none, finalMemberDiagnostics_eq_nil, finalClassDiagnostic]
  refine forall₂_congr fun node _ => ?_
  constructor
  · rintro ⟨hmembers, hdecorated, hfinal⟩ declaration hdeclaration base hbase
    have hlisted := mem_writtenBases.2 hbase
    have ⟨hclass, hdecoratedMembers⟩ := hdecorated declaration hdeclaration base hlisted
    refine ⟨by simpa using hclass, ?_, ?_⟩
    · intro member hmember flag hflag
      rcases List.mem_cons.1 hflag with rfl | hflag
      · exact hdecoratedMembers member hmember
      · rw [List.mem_singleton.1 hflag]
        exact hfinal declaration hdeclaration base hlisted member hmember
    · intro member hmember baseMember hfound
      rcases hbase with ⟨text, htext, hresolved⟩
      exact hmembers declaration hdeclaration member hmember text htext base hresolved baseMember
        hfound
  · intro hmatch
    refine ⟨?_, ?_, ?_⟩
    · intro declaration hdeclaration member hmember text htext base hresolved baseMember hfound
      exact (hmatch declaration hdeclaration base ⟨text, htext, hresolved⟩).membersMatch member
        hmember baseMember hfound
    · intro declaration hdeclaration base hlisted
      have hbase := hmatch declaration hdeclaration base (mem_writtenBases.1 hlisted)
      refine ⟨by simp [hbase.notFinal], fun member hmember => ?_⟩
      exact hbase.membersNotFinal member hmember _ List.mem_cons_self
    · intro declaration hdeclaration base hlisted member hmember
      have hbase := hmatch declaration hdeclaration base (mem_writtenBases.1 hlisted)
      exact hbase.membersNotFinal member hmember _ (by simp)

end

end TypePython.Checking
