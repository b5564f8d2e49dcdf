import Mathlib.Data.List.Forall2
import TypePython.Checking.Assignability
import TypePython.Lib.Revisits

/-!
# Matching types

The search for a match answers yes at a pair it is already under, so what it finds is the
greatest relation that its rules keep: `Matching`. A match that is found is one
(`matching_of_typeMatches`), and types that match are never found not to (`Matching.answer`).
-/

namespace TypePython.Checking

open TypePython.Lib
open TypePython.Binding

section

variable (nodes : List ModuleNode) (options : AssignabilityOptions) (node : ModuleNode)

/-! ## The rules -/

abbrev normalized (ty : SemanticType) : SemanticType :=
  normalizeTypeForAssignabilityOptions options ty

/-- What an alias expands to; nothing if the type is none. -/
def ExpandsTo (ty : SemanticType) (expanded : Option SemanticType) : Prop :=
  Answers (Question.body nodes options) (.expandAliasOnce node ty) expanded

/-- The arguments as they are compared. -/
def comparedArgs (head : String) (args : List SemanticType) : List SemanticType :=
  if head = "tuple" then expandedTupleShapeSemanticArgs args else args

/-- The rules for types that are no aliases. -/
def PartsMatch (R : SemanticType → SemanticType → Prop) (expected actual : SemanticType) : Prop :=
  match semanticUnionBranches expected, semanticUnionBranches actual with
  | some branches, some actualBranches =>
    (∀ actualBranch ∈ actualBranches, ∃ branch ∈ branches, R branch actualBranch)
      ∧ ∀ branch ∈ branches, ∃ actualBranch ∈ actualBranches, R branch actualBranch
  | some branches, none => ∃ branch ∈ branches, R branch actual
  | none, _ =>
    semanticEnumMemberOwnerName actual = some (renderSemanticType expected)
      ∨ ∃ head args actualArgs, expected.genericParts = some (head, args)
        ∧ actual.genericParts = some (head, actualArgs)
        ∧ List.Forall₂ R (comparedArgs head args) (comparedArgs head actualArgs)

inductive MatchStep (R : SemanticType → SemanticType → Prop) (expected actual : SemanticType) :
    Prop
  | same (h : normalized options expected = normalized options actual)
  | anyExpected (h : isAnySemanticType (normalized options expected) = true)
  | anyActual (h : isAnySemanticType (normalized options actual) = true)
  | expandExpected {expanded : SemanticType}
      (h : ExpandsTo nodes options node (normalized options expected) (some expanded))
      (hR : R expanded (normalized options actual))
  | expandActual {expanded : SemanticType}
      (hexpected : ExpandsTo nodes options node (normalized options expected) none)
      (h : ExpandsTo nodes options node (normalized options actual) (some expanded))
      (hR : R (normalized options expected) expanded)
  | parts (hexpected : ExpandsTo nodes options node (normalized options expected) none)
      (hactual : ExpandsTo nodes options node (normalized options actual) none)
      (hparts : PartsMatch R (normalized options expected) (normalized options actual))

/-- The rules on pairs. -/
def MatchRules (R : SemanticType × SemanticType → Prop) (pair : SemanticType × SemanticType) :
    Prop :=
  MatchStep nodes options node (fun expected actual => R (expected, actual)) pair.1 pair.2

/-- The pairs that match: the greatest relation that the rules keep. -/
def Matching (expected actual : SemanticType) : Prop :=
  Greatest (MatchRules nodes options node) (expected, actual)

end

variable {nodes : List ModuleNode} {options : AssignabilityOptions} {node : ModuleNode}

/-! ## The greatest relation -/

variable {expected actual : SemanticType} {R : SemanticType → SemanticType → Prop}

theorem PartsMatch.mono {S : SemanticType → SemanticType → Prop} (hRS : ∀ x y, R x y → S x y)
    (h : PartsMatch R expected actual) : PartsMatch S expected actual := by
  unfold PartsMatch at h ⊢
  split
  · rename_i branches actualBranches hexpected hactual
    simp only [hexpected, hactual] at h
    refine ⟨?_, ?_⟩
    · intro actualBranch hmem
      rcases h.1 actualBranch hmem with ⟨branch, hbranch, hR⟩
      exact ⟨branch, hbranch, hRS _ _ hR⟩
    · intro branch hmem
      rcases h.2 branch hmem with ⟨actualBranch, hbranch, hR⟩
      exact ⟨actualBranch, hbranch, hRS _ _ hR⟩
  · rename_i branches hexpected hactual
    simp only [hexpected, hactual] at h
    rcases h with ⟨branch, hbranch, hR⟩
    exact ⟨branch, hbranch, hRS _ _ hR⟩
  · rename_i hexpected
    simp only [hexpected] at h
    rcases h with henum | ⟨head, args, actualArgs, hargs, hactualArgs, hmatch⟩
    · exact .inl henum
    · exact .inr ⟨head, args, actualArgs, hargs, hactualArgs, hmatch.imp hRS⟩

theorem MatchStep.mono {S : SemanticType → SemanticType → Prop} (hRS : ∀ x y, R x y → S x y)
    (h : MatchStep nodes options node R expected actual) :
    MatchStep nodes options node S expected actual := by
  cases h with
  | same h => exact .same h
  | anyExpected h => exact .anyExpected h
  | anyActual h => exact .anyActual h
  | expandExpected h hR => exact .expandExpected h (hRS _ _ hR)
  | expandActual hexpected h hR => exact .expandActual hexpected h (hRS _ _ hR)
  | parts hexpected hactual hparts => exact .parts hexpected hactual (hparts.mono hRS)

theorem matchRules_mono : MonotoneRules (MatchRules nodes options node) := by
  intro R S hRS pair h
  exact h.mono fun x y => hRS (x, y)

/-- Types that match keep to the rules. -/
theorem Matching.step (h : Matching nodes options node expected actual) :
    MatchStep nodes options node (Matching nodes options node) expected actual :=
  Greatest.step matchRules_mono h

/-- Pairs that keep to the rules among themselves and the matching ones match. -/
theorem Matching.coinduct
    (hR : ∀ x y, R x y →
      MatchStep nodes options node (fun a b => R a b ∨ Matching nodes options node a b) x y)
    (h : R expected actual) : Matching nodes options node expected actual :=
  Greatest.coinduct matchRules_mono (R := fun pair => R pair.1 pair.2)
    (fun pair => hR pair.1 pair.2) h

variable {expected' actual' : SemanticType}

/-- The rules look at normalized types. -/
theorem MatchStep.congr (hexpected : normalized options expected = normalized options expected')
    (hactual : normalized options actual = normalized options actual')
    (h : MatchStep nodes options node R expected actual) :
    MatchStep nodes options node R expected' actual' := by
  cases h with
  | same h => exact .same (hexpected ▸ hactual ▸ h)
  | anyExpected h => exact .anyExpected (hexpected ▸ h)
  | anyActual h => exact .anyActual (hactual ▸ h)
  | expandExpected h hR => exact .expandExpected (hexpected ▸ h) (hactual ▸ hR)
  | expandActual hnone h hR => exact .expandActual (hexpected ▸ hnone) (hactual ▸ h) (hexpected ▸ hR)
  | parts hnone hnone' hparts =>
    exact .parts (hexpected ▸ hnone) (hactual ▸ hnone') (hexpected ▸ hactual ▸ hparts)

theorem Matching.congr (hexpected : normalized options expected = normalized options expected')
    (hactual : normalized options actual = normalized options actual')
    (h : Matching nodes options node expected actual) :
    Matching nodes options node expected' actual' := by
  refine Matching.coinduct (R := fun x y => x = expected' ∧ y = actual') ?_ ⟨rfl, rfl⟩
  rintro x y ⟨rfl, rfl⟩
  exact (h.step.congr hexpected hactual).mono fun _ _ => .inr

theorem matching_of_eq (h : normalized options expected = normalized options actual) :
    Matching nodes options node expected actual :=
  Matching.coinduct (R := fun x y => normalized options x = normalized options y)
    (fun _ _ => .same) h

/-! ## What the search finds -/

section Search

variable {Q : (question : Question) → question.Answer → Prop}
  {visiting : List (SemanticType × SemanticType)}

theorem yields_and (first second : Search Bool) (result : Bool) :
    (Search.and first second).Yields Q result
      ↔ (first.Yields Q true ∧ second.Yields Q result)
        ∨ (first.Yields Q false ∧ result = false) := by
  unfold Search.and
  rw [Prog.yields_bind]
  constructor
  · rintro ⟨b, hb, hresult⟩
    cases b with
    | true => exact .inl ⟨hb, hresult⟩
    | false => exact .inr ⟨hb, hresult⟩
  · rintro (⟨hb, hresult⟩ | ⟨hb, hresult⟩)
    · exact ⟨true, hb, hresult⟩
    · exact ⟨false, hb, hresult⟩

theorem yields_or (first second : Search Bool) (result : Bool) :
    (Search.or first second).Yields Q result
      ↔ (first.Yields Q true ∧ result = true)
        ∨ (first.Yields Q false ∧ second.Yields Q result) := by
  unfold Search.or
  rw [Prog.yields_bind]
  constructor
  · rintro ⟨b, hb, hresult⟩
    cases b with
    | true => exact .inl ⟨hb, hresult⟩
    | false => exact .inr ⟨hb, hresult⟩
  · rintro (⟨hb, hresult⟩ | ⟨hb, hresult⟩)
    · exact ⟨true, hb, hresult⟩
    · exact ⟨false, hb, hresult⟩

theorem forall₂_of_zip {α β : Type} {R : α → β → Prop} {xs : List α} {ys : List β}
    (hlength : xs.length = ys.length) (h : ∀ pair ∈ xs.zip ys, R pair.1 pair.2) :
    List.Forall₂ R xs ys := by
  rw [List.forall₂_iff_zip]
  exact ⟨hlength, fun hpair => h _ hpair⟩

theorem structurallyMatches_generics {head actualHead : String}
    {args actualArgs : List SemanticType} (hexpected : semanticUnionBranches expected = none)
    (henum : semanticEnumMemberOwnerName actual ≠ some (renderSemanticType expected))
    (hargs : expected.genericParts = some (head, args))
    (hactualArgs : actual.genericParts = some (actualHead, actualArgs)) :
    structurallyMatches node expected actual visiting =
      if head = actualHead then
        if (comparedArgs head args).length = (comparedArgs head actualArgs).length then
          Prog.all (fun pair : SemanticType × SemanticType =>
            Search.typeMatches node pair.1 pair.2 visiting)
            ((comparedArgs head args).zip (comparedArgs head actualArgs))
        else pure false
      else pure false := by
  unfold structurallyMatches
  simp only [hexpected, hargs, hactualArgs]
  rw [if_neg henum]
  rfl

/-- Parts that are found to match do, by the answers to the questions about them. -/
theorem partsMatch_of_yields
    (h : (structurallyMatches node expected actual visiting).Yields Q true) :
    PartsMatch (fun x y => Q (.typeMatches node x y visiting) true) expected actual := by
  have hsearch := h
  unfold structurallyMatches at h
  unfold PartsMatch
  cases hexpected : semanticUnionBranches expected with
  | some branches =>
    cases hactual : semanticUnionBranches actual with
    | some actualBranches =>
      simp only [hexpected, hactual] at h
      rcases (yields_and _ _ _).1 h with ⟨hall, hback⟩ | ⟨-, hfalse⟩
      · refine ⟨?_, ?_⟩
        · intro actualBranch hmem
          have hany := Prog.yields_all_true.1 hall actualBranch hmem
          rcases Prog.exists_of_yields_any_true hany with ⟨branch, hbranch, hquery⟩
          exact ⟨branch, hbranch, (Prog.yields_query _ _).1 hquery⟩
        · intro branch hmem
          have hany := Prog.yields_all_true.1 hback branch hmem
          rcases Prog.exists_of_yields_any_true hany with ⟨actualBranch, hbranch, hquery⟩
          exact ⟨actualBranch, hbranch, (Prog.yields_query _ _).1 hquery⟩
      · cases hfalse
    | none =>
      simp only [hexpected, hactual] at h
      rcases Prog.exists_of_yields_any_true h with ⟨branch, hbranch, hquery⟩
      exact ⟨branch, hbranch, (Prog.yields_query _ _).1 hquery⟩
  | none =>
    by_cases henum : semanticEnumMemberOwnerName actual = some (renderSemanticType expected)
    · exact .inl henum
    · cases hargs : expected.genericParts with
      | none =>
        simp only [hexpected, hargs] at h
        rw [if_neg henum] at h
        cases h
      | some parts =>
        cases hactualArgs : actual.genericParts with
        | none =>
          simp only [hexpected, hargs, hactualArgs] at h
          rw [if_neg henum] at h
          cases h
        | some actualParts =>
          rw [structurallyMatches_generics hexpected henum hargs hactualArgs] at hsearch
          split at hsearch
          · rename_i hhead
            split at hsearch
            · rename_i hlength
              refine .inr ⟨parts.1, parts.2, actualParts.2, rfl, ?_, ?_⟩
              · rw [hhead]
              · refine forall₂_of_zip hlength ?_
                intro pair hpair
                exact (Prog.yields_query _ _).1 (Prog.yields_all_true.1 hsearch pair hpair)
            · cases hsearch
          · cases hsearch

/-- Parts that match are not found not to, if the parts themselves are not. -/
theorem PartsMatch.yields (hparts : PartsMatch R expected actual)
    (hR : ∀ x y result, R x y → Q (.typeMatches node x y visiting) result → result = true)
    {result : Bool} (h : (structurallyMatches node expected actual visiting).Yields Q result) :
    result = true := by
  have hquery : ∀ {x y : SemanticType}, R x y →
      ¬ (Search.typeMatches node x y visiting).Yields Q false := by
    intro x y hxy hfalse
    cases hR x y false hxy ((Prog.yields_query _ _).1 hfalse)
  by_contra hne
  have hfalse : result = false := by simpa using hne
  subst hfalse
  have hsearch := h
  unfold structurallyMatches at h
  unfold PartsMatch at hparts
  cases hexpected : semanticUnionBranches expected with
  | some branches =>
    cases hactual : semanticUnionBranches actual with
    | some actualBranches =>
      simp only [hexpected, hactual] at h hparts
      rcases (yields_and _ _ _).1 h with ⟨-, hback⟩ | ⟨hall, -⟩
      · rcases Prog.exists_of_yields_all_false hback with ⟨branch, hbranch, hnone⟩
        rcases hparts.2 branch hbranch with ⟨actualBranch, hmem, hbranches⟩
        exact hquery hbranches (Prog.yields_any_false.1 hnone actualBranch hmem)
      · rcases Prog.exists_of_yields_all_false hall with ⟨actualBranch, hbranch, hnone⟩
        rcases hparts.1 actualBranch hbranch with ⟨branch, hmem, hbranches⟩
        exact hquery hbranches (Prog.yields_any_false.1 hnone branch hmem)
    | none =>
      simp only [hexpected, hactual] at h hparts
      rcases hparts with ⟨branch, hmem, hbranch⟩
      exact hquery hbranch (Prog.yields_any_false.1 h branch hmem)
  | none =>
    by_cases henum : semanticEnumMemberOwnerName actual = some (renderSemanticType expected)
    · simp only [hexpected] at h
      rw [if_pos henum] at h
      cases h
    · simp only [hexpected] at hparts
      rcases hparts.resolve_left henum with ⟨head, args, actualArgs, hargs, hactualArgs, hmatch⟩
      rw [structurallyMatches_generics hexpected henum hargs hactualArgs, if_pos rfl,
        if_pos hmatch.length_eq] at hsearch
      rcases Prog.exists_of_yields_all_false hsearch with ⟨⟨x, y⟩, hpair, hnone⟩
      exact hquery ((List.forall₂_iff_zip.1 hmatch).2 hpair) hnone

end Search

theorem typeMatches_congr {visiting : List (SemanticType × SemanticType)}
    (hexpected : normalized options expected = normalized options expected')
    (hactual : normalized options actual = normalized options actual') {result : Bool}
    (h : Answers (Question.body nodes options) (.typeMatches node expected actual visiting) result) :
    Answers (Question.body nodes options) (.typeMatches node expected' actual' visiting) result := by
  rw [answers_iff] at h ⊢
  change (directSemanticTypeMatches options node expected actual visiting).Yields _ result at h
  change (directSemanticTypeMatches options node expected' actual' visiting).Yields _ result
  unfold directSemanticTypeMatches at h ⊢
  unfold normalized at hexpected hactual
  rw [← hexpected, ← hactual]
  exact h

/-- What is found to match is on the way already or keeps to the rules. -/
theorem matchStep_of_typeMatches {visiting : List (SemanticType × SemanticType)}
    (h : Answers (Question.body nodes options) (.typeMatches node expected actual visiting) true) :
    (normalized options expected, normalized options actual) ∈ visiting
      ∨ MatchStep nodes options node (fun x y => Answers (Question.body nodes options)
          (.typeMatches node x y
            ((normalized options expected, normalized options actual) :: visiting)) true)
        expected actual := by
  rw [answers_iff] at h
  change (directSemanticTypeMatches options node expected actual visiting).Yields _ true at h
  unfold directSemanticTypeMatches at h
  simp only at h
  split at h
  · rename_i hsame
    simp only [Bool.or_eq_true, decide_eq_true_eq] at hsame
    rcases hsame with (hsame | hany) | hany
    · exact .inr (.same hsame)
    · exact .inr (.anyExpected hany)
    · exact .inr (.anyActual hany)
  · split at h
    · rename_i hmem
      exact .inl hmem
    · rcases (Prog.yields_bind _ _ _).1 h with ⟨expanded, hexpanded, h⟩
      have hexpanded := (Prog.yields_query _ _).1 hexpanded
      cases expanded with
      | some expanded =>
        exact .inr (.expandExpected hexpanded ((Prog.yields_query _ _).1 h))
      | none =>
        rcases (Prog.yields_bind _ _ _).1 h with ⟨expandedActual, hactual, h⟩
        have hactual := (Prog.yields_query _ _).1 hactual
        cases expandedActual with
        | some expandedActual =>
          exact .inr (.expandActual hexpanded hactual ((Prog.yields_query _ _).1 h))
        | none => exact .inr (.parts hexpanded hactual (partsMatch_of_yields h))

/-- A match that is found is one. -/
theorem matching_of_typeMatches
    (h : Answers (Question.body nodes options) (.typeMatches node expected actual []) true) :
    Matching nodes options node expected actual := by
  refine greatest_of_visits
    (fun pair => (normalized options pair.1, normalized options pair.2))
    (fun visiting pair => Answers (Question.body nodes options)
      (.typeMatches node pair.1 pair.2 visiting) true)
    matchRules_mono ?_ ?_ h
  · intro visiting pair pair' hkey hpair
    rcases Prod.mk.inj hkey with ⟨hexpected, hactual⟩
    exact typeMatches_congr hexpected hactual hpair
  · intro visiting pair hpair
    exact matchStep_of_typeMatches hpair

theorem ExpandsTo.unique {ty : SemanticType} {expanded expanded' : Option SemanticType}
    (h : ExpandsTo nodes options node ty expanded)
    (h' : ExpandsTo nodes options node ty expanded') : expanded = expanded' :=
  Answers.unique h h'

/-- What is asked about two types that match has the answer yes, if it has one. -/
def AnswersYes (nodes : List ModuleNode) (options : AssignabilityOptions) (node : ModuleNode) :
    (question : Question) → question.Answer → Prop
  | .typeMatches node' expected actual _, result =>
    node' = node → Matching nodes options node expected actual → result = true
  | _, _ => True

/-- Types that match are not found not to. -/
theorem Matching.answer {visiting : List (SemanticType × SemanticType)}
    (hmatching : Matching nodes options node expected actual) {result : Bool}
    (h : Answers (Question.body nodes options) (.typeMatches node expected actual visiting)
      result) : result = true := by
  refine answers_induct (P := AnswersYes nodes options node) ?_ h rfl hmatching
  intro question answer hbody
  cases question with
  | typeMatches node' expected actual visiting =>
    intro hnode hmatching
    subst hnode
    change (directSemanticTypeMatches options node' expected actual visiting).Yields _ answer
      at hbody
    unfold directSemanticTypeMatches at hbody
    simp only at hbody
    split at hbody
    · exact hbody
    · rename_i hdiffer
      simp only [Bool.or_eq_true, decide_eq_true_eq, not_or] at hdiffer
      split at hbody
      · exact hbody
      · rcases (Prog.yields_bind _ _ _).1 hbody with ⟨expanded, hexpanded, hbody⟩
        have hexpanded := ((Prog.yields_query _ _).1 hexpanded).2
        have hstep := hmatching.step
        cases hstep with
        | same hsame => exact (hdiffer.1.1 hsame).elim
        | anyExpected hany => exact (hdiffer.1.2 hany).elim
        | anyActual hany => exact (hdiffer.2 hany).elim
        | expandExpected hexpands hR =>
          cases hexpands.unique hexpanded
          exact ((Prog.yields_query _ _).1 hbody).1 rfl hR
        | expandActual hnone hexpands hR =>
          cases hnone.unique hexpanded
          rcases (Prog.yields_bind _ _ _).1 hbody with ⟨expandedActual, hactual, hbody⟩
          cases hexpands.unique ((Prog.yields_query _ _).1 hactual).2
          exact ((Prog.yields_query _ _).1 hbody).1 rfl hR
        | parts hnone hnone' hparts =>
          cases hnone.unique hexpanded
          rcases (Prog.yields_bind _ _ _).1 hbody with ⟨expandedActual, hactual, hbody⟩
          cases hnone'.unique ((Prog.yields_query _ _).1 hactual).2
          exact hparts.yields (fun x y result hxy hanswer => hanswer.1 rfl hxy) hbody
  | isAssignable => trivial
  | expandAliasOnce => trivial
  | expandAliasesInProviderContext => trivial
  | aliasEventuallyMentions => trivial
  | typeMentionsAlias => trivial

end TypePython.Checking
