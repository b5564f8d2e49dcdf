import TypePython.Checking.Assignability
import TypePython.Lib.RelatedQueries

/-!
# Assignability without strict nulls

The searches with and without strict nulls, side by side. The option is read in one rule only,
which adds pairs that are assignable; every other rule passes what it accepts on
(`related_isAssignable`), so nothing is lost when nulls are not strict
(`relaxingNulls_accepts`).
-/

namespace TypePython.Checking

open TypePython.Lib
open TypePython.Lib.Prog
open TypePython.Lib.Prog.Related
open TypePython.Binding

section

variable {nodes : List ModuleNode} {options : AssignabilityOptions} {node : ModuleNode}

/-- How the answers with strict nulls are related to those without: what is assignable stays
assignable, and every other question has the same answer. -/
def NullsRelaxed : (question : Question) → question.Answer → question.Answer → Prop
  | .isAssignable .., answer, answer' => Implies answer answer'
  | .typeMatches .., answer, answer' => answer = answer'
  | .expandAliasOnce .., answer, answer' => answer = answer'
  | .expandAliasesInProviderContext .., answer, answer' => answer = answer'
  | .aliasEventuallyMentions .., answer, answer' => answer = answer'
  | .typeMentionsAlias .., answer, answer' => answer = answer'

/-- The questions that have the same answer with and without strict nulls. -/
def Agreed (question : Question) : Prop :=
  ∀ answer answer', NullsRelaxed question answer answer' → answer = answer'

/-- A verdict that is positive or left open stays so. -/
def VerdictRelaxed (verdict verdict' : Option Bool) : Prop :=
  (verdict = some true → verdict' = some true) ∧ (verdict = none → verdict' = none)

theorem VerdictRelaxed.refl (verdict : Option Bool) : VerdictRelaxed verdict verdict := ⟨id, id⟩

theorem VerdictRelaxed.of_implies {holds holds' : Bool} (h : Implies holds holds') :
    VerdictRelaxed (some holds) (some holds') := by
  refine ⟨fun htrue => ?_, fun hnone => absurd hnone (by simp)⟩
  rw [h (Option.some.inj htrue)]

/-- A negative verdict is related to all. -/
theorem VerdictRelaxed.of_false (verdict : Option Bool) : VerdictRelaxed (some false) verdict :=
  ⟨fun h => absurd h (by simp), fun h => absurd h (by simp)⟩

/-! ## Questions with one answer -/

theorem asks_structurallyMatches (expected actual : SemanticType)
    (visiting : List (SemanticType × SemanticType)) :
    (structurallyMatches node expected actual visiting).Asks Agreed := by
  have hquery : ∀ expected actual : SemanticType,
      (Search.typeMatches node expected actual visiting).Asks Agreed :=
    fun _ _ => asks_query fun _ _ => id
  unfold structurallyMatches
  split
  · split
    · refine asks_bind (asks_all (fun _ => asks_any (fun _ => hquery _ _) _) _) fun holds => ?_
      cases holds with
      | true => exact asks_all (fun _ => asks_any (fun _ => hquery _ _) _) _
      | false => exact asks_pure false
    · exact asks_any (fun _ => hquery _ _) _
  · split
    · exact asks_pure true
    · split
      · split
        · simp only
          -- tuples are compared by their elements, other types by their arguments
          split <;> split
          · exact asks_all (fun _ => hquery _ _) _
          · exact asks_pure false
          · exact asks_all (fun _ => hquery _ _) _
          · exact asks_pure false
        · exact asks_pure false
      · exact asks_pure false

theorem asks_directSemanticTypeMatches (expected actual : SemanticType)
    (visiting : List (SemanticType × SemanticType)) :
    (directSemanticTypeMatches options node expected actual visiting).Asks Agreed := by
  have hexpand : ∀ ty : SemanticType, (Search.expandAliasOnce node ty).Asks Agreed :=
    fun _ => asks_query fun _ _ => id
  unfold directSemanticTypeMatches
  simp only
  split
  · exact asks_pure true
  · split
    · exact asks_pure true
    · refine asks_bind (hexpand _) fun expanded => ?_
      cases expanded with
      | some expanded => exact asks_query fun _ _ => id
      | none =>
        refine asks_bind (hexpand _) fun expanded => ?_
        cases expanded with
        | some expanded => exact asks_query fun _ _ => id
        | none => exact asks_structurallyMatches _ _ _

theorem asks_expandSemanticTypeAliasOnce (ty : SemanticType) :
    (expandSemanticTypeAliasOnce nodes node ty).Asks Agreed := by
  unfold expandSemanticTypeAliasOnce
  simp only
  split
  · exact asks_pure none
  · split
    · exact asks_pure none
    · exact asks_bind (asks_query fun _ _ => id) fun _ => asks_pure _

theorem asks_expandAliasesInProviderContext (ty : SemanticType) (seen : List SemanticType) :
    (expandSemanticTypeAliasesInProviderContext node ty seen).Asks Agreed := by
  unfold expandSemanticTypeAliasesInProviderContext
  split
  · exact asks_pure ty
  · refine asks_bind (asks_query fun _ _ => id) fun expanded => ?_
    cases expanded with
    | none => exact asks_pure ty
    | some next => exact asks_query fun _ _ => id

theorem asks_typeAliasEventuallyMentions (current target : String) (visiting : List ClassKey) :
    (typeAliasEventuallyMentions nodes node current target visiting).Asks Agreed := by
  unfold typeAliasEventuallyMentions
  split
  · exact asks_pure false
  · split
    · exact asks_pure _
    · split
      · exact asks_pure false
      · exact asks_query fun _ _ => id

theorem asks_semanticTypeMentionsAlias (ty : SemanticType) (target : String)
    (visiting : List ClassKey) :
    (semanticTypeMentionsAlias node ty target visiting).Asks Agreed := by
  have hmentions : ∀ ty : SemanticType,
      (Prog.query (Question.typeMentionsAlias node ty target visiting) : Search Bool).Asks Agreed :=
    fun _ => asks_query fun _ _ => id
  have hname : ∀ name : String, (if name = target then pure true
      else Prog.query (Question.aliasEventuallyMentions node name target visiting) :
        Search Bool).Asks Agreed := by
    intro name
    split
    · exact asks_pure true
    · exact asks_query fun _ _ => id
  unfold semanticTypeMentionsAlias
  simp only
  split
  · exact asks_any hmentions _
  · split
    · refine asks_bind (hname _) fun holds => ?_
      cases holds with
      | true => exact asks_pure true
      | false => exact asks_any hmentions _
    · exact hname _
    · exact asks_pure false

theorem asks_recursiveTypeAliasHeadSemantic (ty : SemanticType) :
    (recursiveTypeAliasHeadSemantic nodes node ty).Asks Agreed := by
  unfold recursiveTypeAliasHeadSemantic
  split
  · exact asks_pure false
  · split
    · exact asks_pure false
    · exact asks_query fun _ _ => id

/-! ## The rules, one by one -/

theorem related_isAssignable_query (expected actual : SemanticType)
    (visiting : List (SemanticType × SemanticType)) :
    Related NullsRelaxed Implies (Search.isAssignable node expected actual visiting)
      (Search.isAssignable node expected actual visiting) :=
  of_query (R := NullsRelaxed) (Question.isAssignable node expected actual visiting)

theorem related_typeMatches_query (expected actual : SemanticType)
    (visiting : List (SemanticType × SemanticType)) :
    Related NullsRelaxed Implies (Search.typeMatches node expected actual visiting)
      (Search.typeMatches node expected actual visiting) :=
  (of_query (R := NullsRelaxed) (Question.typeMatches node expected actual visiting)).mono
    fun _ _ => Implies.of_eq

/-- The verdict of a test. -/
theorem related_verdict {test test' : Search Bool} (h : Related NullsRelaxed Implies test test') :
    Related NullsRelaxed VerdictRelaxed (do let result ← test; pure (some result))
      (do let result ← test'; pure (some result)) :=
  h.bind fun _ _ himplies => of_pure (VerdictRelaxed.of_implies himplies)

theorem related_same {verdict : Option Bool} :
    Related NullsRelaxed VerdictRelaxed (pure verdict : Search (Option Bool)) (pure verdict) :=
  of_pure (VerdictRelaxed.refl verdict)

theorem related_invariantMatches (expected actual : SemanticType) :
    Related NullsRelaxed Implies (invariantMatches nodes node expected actual)
      (invariantMatches nodes node expected actual) := by
  have hrecursive : Related NullsRelaxed Implies
      (recursiveTypeAliasHeadSemantic nodes node expected)
      (recursiveTypeAliasHeadSemantic nodes node expected) :=
    (of_asks (asks_recursiveTypeAliasHeadSemantic expected)).mono fun _ _ => Implies.of_eq
  exact or_else (and_then (related_typeMatches_query _ _ _) (related_typeMatches_query _ _ _))
    (and_then hrecursive (related_isAssignable_query _ _ _))

theorem related_taintQualifiedAssignability (expected actual : SemanticType) :
    Related NullsRelaxed VerdictRelaxed (taintQualifiedAssignability nodes node expected actual)
      (taintQualifiedAssignability nodes node expected actual) := by
  unfold taintQualifiedAssignability
  split
  · exact related_same
  · exact related_verdict (and_then (related_invariantMatches _ _)
      (related_isAssignable_query _ _ _))
  · exact related_same

/-! ### Callables -/

theorem related_callableParamsAssignable (expected actual : List SemanticType) :
    Related NullsRelaxed Implies (callableParamsAssignable node expected actual)
      (callableParamsAssignable node expected actual) :=
  all_items fun param _ => related_isAssignable_query param.2 param.1 []

theorem related_callableStructuralParamsAssignable
    (expectedParams actualParams : SemanticCallableParams) :
    Related NullsRelaxed VerdictRelaxed
      (callableStructuralParamsAssignable node expectedParams actualParams)
      (callableStructuralParamsAssignable node expectedParams actualParams) := by
  unfold callableStructuralParamsAssignable
  split
  · exact related_same
  · exact related_same
  · split
    · exact related_same
    · exact related_verdict (related_callableParamsAssignable _ _)
  · exact related_verdict (related_isAssignable_query _ _ _)
  · split
    · split
      · exact related_same
      · exact related_verdict (and_then (related_callableParamsAssignable _ _)
          (related_isAssignable_query _ _ _))
    · exact related_same
  · exact related_same

/-- The result is compared first; where it fails there is a negative verdict. -/
theorem related_callableSemanticAnnotationAssignable
    (expectedParams actualParams : SemanticCallableParams)
    (expectedReturn actualReturn : SemanticType) :
    Related NullsRelaxed VerdictRelaxed
      (callableSemanticAnnotationAssignable node expectedParams expectedReturn actualParams
        actualReturn)
      (callableSemanticAnnotationAssignable node expectedParams expectedReturn actualParams
        actualReturn) := by
  refine (related_isAssignable_query expectedReturn actualReturn []).bind
    fun holds holds' himplies => ?_
  cases holds with
  | false => exact of_left VerdictRelaxed.of_false _
  | true =>
    rw [himplies rfl]
    exact related_callableStructuralParamsAssignable _ _

/-! ### Generic types -/

theorem related_genericArgAssignable (expected actual : SemanticType)
    (variance : GenericVariance) :
    Related NullsRelaxed Implies (genericArgAssignable nodes node expected actual variance)
      (genericArgAssignable nodes node expected actual variance) := by
  cases variance with
  | invariant => exact related_invariantMatches _ _
  | covariant => exact related_isAssignable_query _ _ _
  | contravariant => exact related_isAssignable_query _ _ _

theorem related_sameHeadSemanticGenericAssignable (head : String)
    (expectedArgs actualArgs : List SemanticType) :
    Related NullsRelaxed VerdictRelaxed
      (sameHeadSemanticGenericAssignable nodes node head expectedArgs actualArgs)
      (sameHeadSemanticGenericAssignable nodes node head expectedArgs actualArgs) := by
  unfold sameHeadSemanticGenericAssignable
  split
  · split
    · exact related_callableSemanticAnnotationAssignable _ _ _ _
    · exact related_same
  · exact related_verdict (all_items fun arg _ => related_genericArgAssignable _ _ _)

theorem related_assignableSemanticGenericBridge (expected actual : SemanticType) :
    Related NullsRelaxed VerdictRelaxed
      (assignableSemanticGenericBridge nodes node expected actual)
      (assignableSemanticGenericBridge nodes node expected actual) := by
  unfold assignableSemanticGenericBridge
  split
  · split
    · simp only
      split
      · exact related_same
      · exact related_sameHeadSemanticGenericAssignable _ _ _
    · split
      · exact related_sameHeadSemanticGenericAssignable _ _ _
      · split
        · exact related_verdict (and_then (related_invariantMatches _ _)
            (related_isAssignable_query _ _ _))
        · split
          · exact related_verdict (related_isAssignable_query _ _ _)
          · exact related_same
        · exact related_same
  · exact related_same

/-! ### Bases and members -/

theorem related_nominalSubclassAssignable (expected actual : String) :
    Related NullsRelaxed Implies (nominalSubclassAssignable nodes node expected actual)
      (nominalSubclassAssignable nodes node expected actual) := by
  unfold nominalSubclassAssignable
  split
  · exact of_pure (Implies.of_true true)
  · split
    · exact of_pure (Implies.of_false false)
    · refine any_item fun base _ => ?_
      split
      · exact of_pure (Implies.of_true true)
      · exact related_isAssignable_query _ _ _

theorem related_optionalTypesAssignable (expected actual : Option SemanticType) :
    Related NullsRelaxed Implies (optionalTypesAssignable node expected actual)
      (optionalTypesAssignable node expected actual) := by
  unfold optionalTypesAssignable
  split
  · exact related_isAssignable_query _ _ _
  · exact of_pure (Implies.of_true true)

theorem related_overrideParamCompatible (child base : SemanticCallableParam) :
    Related NullsRelaxed Implies (overrideParamCompatible node child base)
      (overrideParamCompatible node child base) := by
  unfold overrideParamCompatible
  split
  · exact related_optionalTypesAssignable _ _
  · exact of_pure (Implies.of_false false)

theorem related_methodsAreCompatibleForOverride (member baseMember : Declaration) :
    Related NullsRelaxed Implies (methodsAreCompatibleForOverride node member baseMember)
      (methodsAreCompatibleForOverride node member baseMember) := by
  unfold methodsAreCompatibleForOverride
  split
  · exact of_pure (Implies.of_true true)
  · split
    · exact of_pure (Implies.of_eq rfl)
    · split
      · exact of_pure (Implies.of_false false)
      · split
        · split
          · exact of_pure (Implies.of_false false)
          · exact and_then (all_items fun param _ => related_overrideParamCompatible _ _)
              (related_optionalTypesAssignable _ _)
        · exact of_pure (Implies.of_true true)

theorem related_actualMemberSatisfiesRequirement (actualDecl requirement : Declaration) :
    Related NullsRelaxed Implies
      (actualMemberSatisfiesRequirement nodes node actualDecl requirement)
      (actualMemberSatisfiesRequirement nodes node actualDecl requirement) := by
  unfold actualMemberSatisfiesRequirement
  simp only
  split
  · split
    · exact related_methodsAreCompatibleForOverride _ _
    · split
      · split
        · exact of_pure (Implies.of_false false)
        · exact related_optionalTypesAssignable _ _
      · exact of_pure (Implies.of_false false)
  · split
    · exact of_pure (Implies.of_false false)
    · exact related_optionalTypesAssignable _ _
  · exact of_pure (Implies.of_false false)

theorem related_protocolAssignable (expected actual : String) :
    Related NullsRelaxed Implies (protocolAssignable nodes node expected actual)
      (protocolAssignable nodes node expected actual) := by
  unfold protocolAssignable
  split
  · exact of_pure (Implies.of_false false)
  · split
    · split
      · exact of_pure (Implies.of_false false)
      · exact all_items fun requirement _ => related_actualMemberSatisfiesRequirement _ _
    · exact of_pure (Implies.of_false false)

/-! ## The search -/

theorem related_namedAssignable (expected actual : SemanticType)
    (visiting : List (SemanticType × SemanticType)) :
    Related NullsRelaxed Implies (namedAssignable nodes node expected actual visiting)
      (namedAssignable nodes node expected actual visiting) := by
  unfold namedAssignable
  refine (related_protocolAssignable _ _).bind fun protocol protocol' hprotocol => ?_
  refine (related_nominalSubclassAssignable _ _).bind fun nominal nominal' hnominal => ?_
  by_cases haccepted : (decide (semanticEnumMemberOwnerName actual
      = some (renderSemanticType expected)) || protocol' || nominal') = true
  · rw [if_pos haccepted]
    exact of_right Implies.of_true _
  · -- what no rule accepts without strict nulls, none accepts with them
    simp only [Bool.or_eq_true, not_or, Bool.not_eq_true] at haccepted
    obtain ⟨⟨henum, hprotocol'⟩, hnominal'⟩ := haccepted
    have hprotocolFalse : protocol = false := by
      cases protocol with
      | false => rfl
      | true => exact absurd (hprotocol rfl) (by rw [hprotocol']; decide)
    have hnominalFalse : nominal = false := by
      cases nominal with
      | false => rfl
      | true => exact absurd (hnominal rfl) (by rw [hnominal']; decide)
    simp only [henum, hprotocol', hnominal', hprotocolFalse, hnominalFalse, Bool.or_self,
      Bool.false_eq_true, if_false]
    refine (related_assignableSemanticGenericBridge expected actual).bind
      fun verdict verdict' hverdict => ?_
    cases verdict with
    | none =>
      rw [hverdict.2 rfl]
      simp only
      split
      · exact related_isAssignable_query _ _ _
      · split
        · exact of_pure (Implies.of_false false)
        · exact related_typeMatches_query _ _ _
    | some result =>
      cases result with
      | false => exact of_left Implies.of_false _
      | true =>
        rw [hverdict.1 rfl]
        exact of_pure (Implies.of_true true)

theorem related_structurallyAssignable (expected actual : SemanticType)
    (visiting : List (SemanticType × SemanticType)) :
    Related NullsRelaxed Implies (structurallyAssignable nodes node expected actual visiting)
      (structurallyAssignable nodes node expected actual visiting) := by
  unfold structurallyAssignable
  split
  · exact all_items fun actualBranch _ => any_item fun expectedBranch _ =>
      related_isAssignable_query _ _ _
  · exact any_item fun branch _ => related_isAssignable_query _ _ _
  · exact all_items fun branch _ => related_isAssignable_query _ _ _
  · split
    · refine (related_callableSemanticAnnotationAssignable _ _ _ _).bind
        fun verdict verdict' hverdict => of_pure fun htrue => ?_
      have hverdictTrue : verdict = some true := by
        cases verdict with
        | none => exact absurd htrue (by decide)
        | some result => exact congrArg some htrue
      rw [hverdict.1 hverdictTrue, Option.getD_some]
    · exact related_namedAssignable _ _ _

theorem related_searchAssignable (expected actual : SemanticType)
    (visiting : List (SemanticType × SemanticType)) :
    Related NullsRelaxed Implies (searchAssignable nodes node expected actual visiting)
      (searchAssignable nodes node expected actual visiting) := by
  have hexpand : ∀ ty : SemanticType, Related NullsRelaxed Eq (Search.expandAliasOnce node ty)
      (Search.expandAliasOnce node ty) := fun ty =>
    of_query (R := NullsRelaxed) (Question.expandAliasOnce node ty)
  unfold searchAssignable
  split
  · exact of_pure (Implies.of_true true)
  · refine (hexpand expected).bind fun expanded expanded' heq => ?_
    subst heq
    cases expanded with
    | some expanded => exact related_isAssignable_query _ _ _
    | none =>
      refine (hexpand actual).bind fun expanded expanded' heq => ?_
      subst heq
      cases expanded with
      | some expanded => exact related_isAssignable_query _ _ _
      | none => exact related_structurallyAssignable _ _ _

/-- What is decided at once with strict nulls is decided alike without, and what is not is
left open or accepted. -/
theorem decidedAtOnce_relaxed (options : AssignabilityOptions) (expected actual : SemanticType) :
    decidedAtOnce { options with strictNulls := false } expected actual
        = decidedAtOnce { options with strictNulls := true } expected actual
      ∨ (decidedAtOnce { options with strictNulls := true } expected actual = none
        ∧ decidedAtOnce { options with strictNulls := false } expected actual = some true) := by
  unfold decidedAtOnce
  simp only [Bool.not_true, Bool.false_and, Bool.false_eq_true, if_false, Bool.not_false,
    Bool.true_and]
  split_ifs <;> simp

theorem related_isAssignable (options : AssignabilityOptions) (expected actual : SemanticType)
    (visiting : List (SemanticType × SemanticType)) :
    Related NullsRelaxed Implies
      (directSemanticTypeIsAssignable nodes { options with strictNulls := true } node expected
        actual visiting)
      (directSemanticTypeIsAssignable nodes { options with strictNulls := false } node expected
        actual visiting) := by
  unfold directSemanticTypeIsAssignable
  have hnormalize : ∀ (strictNulls : Bool) (ty : SemanticType),
      normalizeTypeForAssignabilityOptions { options with strictNulls } ty
        = normalizeTypeForAssignabilityOptions options ty := fun _ _ => rfl
  simp only [hnormalize]
  generalize normalizeTypeForAssignabilityOptions options expected = expected
  generalize normalizeTypeForAssignabilityOptions options actual = actual
  rcases decidedAtOnce_relaxed options expected actual with hsame | ⟨-, haccepted⟩
  · rw [hsame]
    split
    · exact of_pure (Implies.of_eq rfl)
    · split
      on_goal 1 =>
        refine (related_taintQualifiedAssignability _ _).bind fun verdict verdict' hverdict => ?_
      on_goal 2 => refine related_same.bind fun verdict verdict' hverdict => ?_
      -- the search goes on unless the taint decides
      all_goals
        cases verdict with
        | none =>
          rw [hverdict.2 rfl]
          exact related_searchAssignable _ _ _
        | some result =>
          cases result with
          | false => exact of_left Implies.of_false _
          | true =>
            rw [hverdict.1 rfl]
            exact of_pure (Implies.of_true true)
  · rw [haccepted]
    exact of_right Implies.of_true _

/-- What is assignable with strict nulls is assignable without. -/
theorem relaxingNulls_accepts {expected actual : SemanticType} {result : Bool}
    (hstrict : IsAssignable nodes { options with strictNulls := true } node expected actual true)
    (hrelaxed : IsAssignable nodes { options with strictNulls := false } node expected actual
      result) : result = true := by
  refine answers_related (R := NullsRelaxed) (fun question => ?_) hstrict hrelaxed rfl
  cases question with
  | isAssignable node expected actual visiting => exact related_isAssignable _ _ _ _
  | typeMatches node expected actual visiting =>
    exact of_asks (asks_directSemanticTypeMatches expected actual visiting)
  | expandAliasOnce node ty => exact of_asks (asks_expandSemanticTypeAliasOnce ty)
  | expandAliasesInProviderContext node ty seen =>
    exact of_asks (asks_expandAliasesInProviderContext ty seen)
  | aliasEventuallyMentions node current target visiting =>
    exact of_asks (asks_typeAliasEventuallyMentions current target visiting)
  | typeMentionsAlias node ty target visiting =>
    exact of_asks (asks_semanticTypeMentionsAlias ty target visiting)

end

/-! ## `None` where a type is optional -/

/-- `Optional[int]`. -/
def optionalInt : SemanticType := .generic "Optional" [.name "int"]

/-- A module without declarations. -/
def emptyModule : ModuleNode where
  moduleKey := "app"

theorem optionalInt_accepts_none : IsAssignable [emptyModule] { strictNulls := true } emptyModule
    optionalInt (.name "None") true :=
  ⟨6, by decide +kernel⟩

theorem optionalInt_accepts_none_relaxed : IsAssignable [emptyModule] { strictNulls := false }
    emptyModule optionalInt (.name "None") true :=
  ⟨6, by decide +kernel⟩

/-- Without strict nulls the answer for `None` and an optional type is still yes. -/
theorem optionalInt_answer_relaxed : ∃ result, IsAssignable [emptyModule] { strictNulls := false }
    emptyModule optionalInt (.name "None") result ∧ result = true :=
  ⟨true, optionalInt_accepts_none_relaxed,
    @relaxingNulls_accepts _ {} _ _ _ _ optionalInt_accepts_none optionalInt_accepts_none_relaxed⟩

end TypePython.Checking
