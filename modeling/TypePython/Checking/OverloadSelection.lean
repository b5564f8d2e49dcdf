import TypePython.Checking.CallBinding
import TypePython.Checking.InferenceRoundTrip
import Mathlib.Data.List.Nodup
import Mathlib.Data.List.FinRange

/-!
# Selecting an overload

Every overload of a callee is tried on a call. Of the candidates that apply, the one that is more
specific than all the others is selected; when there is not exactly one such candidate, the call is
ambiguous.

* `selected_iff`: which candidate is selected, by what the candidates are and not by where they
  stand (`Preferred`).
* `outcome_congr`: the outcome is the same for attempts with the same applicable candidates.
* `dependsOnlyOnApplicable_iff`: the selection is all that is expected of it, unless two candidates
  are each more specific than all the others.
-/

namespace TypePython.Checking

/-! ## Candidates -/

/-- An overload whose parameters are instantiated for a call. A parameter without an annotation has
no annotation text either, and its type is dynamic. -/
structure ResolvedDirectCallCandidate (Decl : Type) where
  declaration : Decl
  signatureParams : List SemanticCallableParam
  semanticParamTypes : List SemanticType
  returnType : Option SemanticType
  plain : ∀ param ∈ signatureParams, param.annotation = none → param.annotationText = none
  typed : semanticParamTypes = signatureParams.map SemanticCallableParam.annotationOrDynamic

/-- What became of an overload: a candidate of its own, or a failure. -/
structure OverloadAttempt (Decl Failure : Type) where
  declaration : Decl
  result : Except Failure (ResolvedDirectCallCandidate Decl)
  own : ∀ candidate, result = .ok candidate → candidate.declaration = declaration

inductive ResolvedOverloadSelection (Decl Failure : Type) where
  | selected (candidate : ResolvedDirectCallCandidate Decl)
  | ambiguous (applicableCount : Nat)
  | notApplicable (runtimeGenericFailures : List (Decl × Failure))

/-- What a selection says: the declaration, or that there is none. -/
inductive SelectionOutcome (Decl : Type) where
  | selected (declaration : Decl)
  | ambiguous
  | notApplicable
deriving DecidableEq

def ResolvedOverloadSelection.outcome {Decl Failure : Type} :
    ResolvedOverloadSelection Decl Failure → SelectionOutcome Decl
  | .selected candidate => .selected candidate.declaration
  | .ambiguous _ => .ambiguous
  | .notApplicable _ => .notApplicable

/-! ## Specificity -/

section Specificity

variable (isAssignable : SemanticType → SemanticType → Bool)

/-- The parameters differ in more than their types. -/
def paramsDiffer (candidate baseline : SemanticCallableParam) : Bool :=
  candidate.name ≠ baseline.name
    || candidate.hasDefault ≠ baseline.hasDefault
    || candidate.positionalOnly ≠ baseline.positionalOnly
    || candidate.keywordOnly ≠ baseline.keywordOnly
    || candidate.variadic ≠ baseline.variadic
    || candidate.keywordVariadic ≠ baseline.keywordVariadic

/-- The loop over the parameters from an index on; what it returns at the end is whether some type
was different. -/
def paramsAreMoreSpecific (candidateTypes baselineTypes : List SemanticType) :
    Nat → List (SemanticCallableParam × SemanticCallableParam) → Bool → Bool
  | _, [], strictlyMoreSpecific => strictlyMoreSpecific
  | index, (candidate, baseline) :: rest, strictlyMoreSpecific =>
    if paramsDiffer candidate baseline then false
    else if candidate.annotation.isNone || baseline.annotation.isNone then
      if candidate.renderedAnnotationText ≠ baseline.renderedAnnotationText then false
      else paramsAreMoreSpecific candidateTypes baselineTypes (index + 1) rest
        strictlyMoreSpecific
    else
      match candidateTypes[index]?, baselineTypes[index]? with
      | some candidateType, some baselineType =>
        if !isAssignable baselineType candidateType then false
        else paramsAreMoreSpecific candidateTypes baselineTypes (index + 1) rest
          (strictlyMoreSpecific || candidateType ≠ baselineType)
      | _, _ => false

variable {Decl : Type}

def overloadIsMoreSpecific (candidate baseline : ResolvedDirectCallCandidate Decl) : Bool :=
  if candidate.signatureParams.length ≠ baseline.signatureParams.length then false
  else paramsAreMoreSpecific isAssignable candidate.semanticParamTypes baseline.semanticParamTypes 0
    (candidate.signatureParams.zip baseline.signatureParams) false

variable [DecidableEq Decl]

/-- More specific than every other candidate. -/
def isMostSpecific (applicable : List (ResolvedDirectCallCandidate Decl))
    (candidate : ResolvedDirectCallCandidate Decl) : Bool :=
  applicable.all fun other =>
    candidate.declaration = other.declaration || overloadIsMoreSpecific isAssignable candidate other

def selectMostSpecificOverloadIndex (applicable : List (ResolvedDirectCallCandidate Decl)) :
    Option (Fin applicable.length) :=
  if honly : applicable.length = 1 then some ⟨0, by omega⟩
  else
    match (List.finRange applicable.length).filter fun index =>
        isMostSpecific isAssignable applicable applicable[index] with
    | [index] => some index
    | _ => none

end Specificity

/-! ## The selection -/

section Selection

variable (isAssignable typeMatches : SemanticType → SemanticType → Bool)
  {Arg : Type} (types : ArgumentTypes Arg) (call : CallArguments Arg) {Decl Failure : Type}

/-- The candidate of an attempt, if the call can be made with its parameters. -/
def applicableCandidate (attempt : OverloadAttempt Decl Failure) :
    Option (ResolvedDirectCallCandidate Decl) :=
  match attempt.result with
  | .ok candidate =>
    if callSignatureParamsAreApplicable isAssignable typeMatches types call
        candidate.signatureParams then some candidate
    else none
  | .error _ => none

def applicableCandidates (attempts : List (OverloadAttempt Decl Failure)) :
    List (ResolvedDirectCallCandidate Decl) :=
  attempts.filterMap (applicableCandidate isAssignable typeMatches types call)

/-- A failure that is reported when no overload applies. -/
def runtimeGenericFailure (hasRuntimeGenericParamlist : Decl → Bool)
    (attempt : OverloadAttempt Decl Failure) : Option (Decl × Failure) :=
  match attempt.result with
  | .ok _ => none
  | .error failure =>
    if hasRuntimeGenericParamlist attempt.declaration then some (attempt.declaration, failure)
    else none

def resolveOverloadSelectionFromAttempts [DecidableEq Decl]
    (hasRuntimeGenericParamlist : Decl → Bool)
    (attempts : List (OverloadAttempt Decl Failure)) : ResolvedOverloadSelection Decl Failure :=
  match applicableCandidates isAssignable typeMatches types call attempts with
  | [] => .notApplicable (attempts.filterMap (runtimeGenericFailure hasRuntimeGenericParamlist))
  | [candidate] => .selected candidate
  | first :: second :: rest =>
    match selectMostSpecificOverloadIndex isAssignable (first :: second :: rest) with
    | some index => .selected (first :: second :: rest)[index]
    | none => .ambiguous (first :: second :: rest).length

end Selection

/-! ## What the comparison says -/

section Comparison

variable {isAssignable : SemanticType → SemanticType → Bool}

/-- The loop goes on over a pair of parameters only if their types are assignable, where both are
annotated, and their texts agree, where they are not. -/
theorem paramsAreMoreSpecific_cons {candidateTypes baselineTypes : List SemanticType} {index : Nat}
    {candidate baseline : SemanticCallableParam}
    {rest : List (SemanticCallableParam × SemanticCallableParam)} {strictly : Bool}
    (h : paramsAreMoreSpecific isAssignable candidateTypes baselineTypes index
      ((candidate, baseline) :: rest) strictly = true) :
    (∃ strictly', paramsAreMoreSpecific isAssignable candidateTypes baselineTypes (index + 1) rest
        strictly' = true)
      ∧ ((candidate.annotation = none ∨ baseline.annotation = none)
          ∧ candidate.renderedAnnotationText = baseline.renderedAnnotationText
        ∨ ∃ candidateType baselineType, candidateTypes[index]? = some candidateType
          ∧ baselineTypes[index]? = some baselineType
          ∧ isAssignable baselineType candidateType = true) := by
  rw [paramsAreMoreSpecific] at h
  split_ifs at h with hdiffer hplain htext
  · rw [Bool.or_eq_true, Option.isNone_iff_eq_none, Option.isNone_iff_eq_none] at hplain
    exact ⟨⟨strictly, h⟩, .inl ⟨hplain, not_not.1 htext⟩⟩
  · split at h
    · rename_i candidateType baselineType hcandidate hbaseline
      split_ifs at h with hassignable
      have hfits : isAssignable baselineType candidateType = true := by
        simpa using hassignable
      exact ⟨⟨_, h⟩, .inr ⟨candidateType, baselineType, hcandidate, hbaseline, hfits⟩⟩
    · cases h

/-- What holds of every pair of parameters when the whole loop says yes. -/
theorem pair_of_moreSpecific {candidateTypes baselineTypes : List SemanticType}
    {pairs : List (SemanticCallableParam × SemanticCallableParam)} {start : Nat} {strictly : Bool}
    (h : paramsAreMoreSpecific isAssignable candidateTypes baselineTypes start pairs strictly
      = true) {index : Nat} {candidate baseline : SemanticCallableParam}
    (hpair : pairs[index]? = some (candidate, baseline)) :
    (candidate.annotation = none ∨ baseline.annotation = none)
        ∧ candidate.renderedAnnotationText = baseline.renderedAnnotationText
      ∨ ∃ candidateType baselineType, candidateTypes[start + index]? = some candidateType
        ∧ baselineTypes[start + index]? = some baselineType
        ∧ isAssignable baselineType candidateType = true := by
  induction pairs generalizing start strictly index with
  | nil => exact absurd hpair (by simp)
  | cons first rest ih =>
    have ⟨⟨strictly', hrest⟩, hfirst⟩ := paramsAreMoreSpecific_cons h
    cases index with
    | zero =>
      rw [List.getElem?_cons_zero] at hpair
      rw [Option.some.inj hpair] at hfirst
      exact hfirst
    | succ index =>
      rw [List.getElem?_cons_succ] at hpair
      have hlater := ih hrest hpair
      rwa [Nat.add_assoc, Nat.add_comm 1 index] at hlater

variable {Decl : Type}

/-- An annotated type of the more specific candidate is assignable to the type at its position in
the other one. -/
theorem assignable_of_moreSpecific {candidate baseline : ResolvedDirectCallCandidate Decl}
    (h : overloadIsMoreSpecific isAssignable candidate baseline = true) {index : Nat}
    {ty : SemanticType}
    (hannotated : candidate.signatureParams[index]?.bind SemanticCallableParam.annotation
      = some ty) :
    ∃ expected, baseline.semanticParamTypes[index]? = some expected
      ∧ isAssignable expected ty = true := by
  unfold overloadIsMoreSpecific at h
  split_ifs at h with hlength
  rcases Option.bind_eq_some_iff.1 hannotated with ⟨param, hparam, hty⟩
  have hindex : index < baseline.signatureParams.length := by
    have hlt := (List.getElem?_eq_some_iff.1 hparam).1
    omega
  have hother := List.getElem?_eq_getElem hindex
  have hpair : (candidate.signatureParams.zip baseline.signatureParams)[index]?
      = some (param, baseline.signatureParams[index]) := by
    rw [List.getElem?_zip_eq_some]
    exact ⟨hparam, hother⟩
  rcases pair_of_moreSpecific h hpair with ⟨hplain, htext⟩ 
    | ⟨actual, expected, hactual, hexpected, hfits⟩
  · -- the other parameter would have neither an annotation nor a text
    rcases hplain with hnone | hnone
    · rw [hty] at hnone
      cases hnone
    · have hblank := baseline.plain _ (List.getElem_mem hindex) hnone
      rw [SemanticCallableParam.renderedAnnotationText,
        SemanticCallableParam.renderedAnnotationText, hnone, hblank, hty] at htext
      cases htext
  · rw [Nat.zero_add] at hactual hexpected
    refine ⟨expected, hexpected, ?_⟩
    rw [candidate.typed, List.getElem?_map, hparam, Option.map_some,
      SemanticCallableParam.annotationOrDynamic, hty] at hactual
    rw [Option.some.inj hactual.symm] at hfits
    exact hfits

end Comparison

/-! ## Which candidate is selected -/

/-- Of a list without repetitions, the only element of a kind. -/
theorem filter_eq_singleton_iff {α : Type} {items : List α} (hitems : items.Nodup) {p : α → Bool}
    {item : α} :
    items.filter p = [item] ↔ (item ∈ items ∧ p item = true)
      ∧ ∀ other ∈ items, p other = true → other = item := by
  constructor
  · intro h
    have hmem : ∀ other, other ∈ items.filter p ↔ other = item := by simp [h]
    exact ⟨List.mem_filter.1 ((hmem item).2 rfl),
      fun other hother hp => (hmem other).1 (List.mem_filter.2 ⟨hother, hp⟩)⟩
  · rintro ⟨hitem, honly⟩
    have hperm : (items.filter p).Perm [item] := by
      rw [List.perm_ext_iff_of_nodup (hitems.filter p) (List.nodup_singleton item)]
      intro other
      rw [List.mem_filter, List.mem_singleton]
      constructor
      · exact fun hother => honly other hother.1 hother.2
      · rintro rfl
        exact hitem
    exact List.perm_singleton.1 hperm

theorem eq_of_declaration {Decl : Type} {applicable : List (ResolvedDirectCallCandidate Decl)}
    (hdistinct : (applicable.map ResolvedDirectCallCandidate.declaration).Nodup)
    {first second : ResolvedDirectCallCandidate Decl} (hfirst : first ∈ applicable)
    (hsecond : second ∈ applicable) (h : first.declaration = second.declaration) :
    first = second :=
  List.inj_on_of_nodup_map hdistinct hfirst hsecond h

section Preferred

variable {isAssignable : SemanticType → SemanticType → Bool} {Decl : Type} [DecidableEq Decl]
  {applicable : List (ResolvedDirectCallCandidate Decl)}

theorem isMostSpecific_iff {candidate : ResolvedDirectCallCandidate Decl} :
    isMostSpecific isAssignable applicable candidate = true ↔ ∀ other ∈ applicable,
      candidate.declaration = other.declaration
        ∨ overloadIsMoreSpecific isAssignable candidate other = true := by
  simp [isMostSpecific]

/-- More specific than all the others, as no other candidate is. -/
def Preferred (isAssignable : SemanticType → SemanticType → Bool)
    (applicable : List (ResolvedDirectCallCandidate Decl))
    (candidate : ResolvedDirectCallCandidate Decl) : Prop :=
  candidate ∈ applicable ∧ isMostSpecific isAssignable applicable candidate = true
    ∧ ∀ other ∈ applicable, isMostSpecific isAssignable applicable other = true → other = candidate

/-- It does not matter where the candidates stand. -/
theorem Preferred.congr {applicable' : List (ResolvedDirectCallCandidate Decl)}
    (hsame : ∀ candidate, candidate ∈ applicable' ↔ candidate ∈ applicable)
    {candidate : ResolvedDirectCallCandidate Decl}
    (h : Preferred isAssignable applicable candidate) :
    Preferred isAssignable applicable' candidate := by
  have hmost : ∀ other, isMostSpecific isAssignable applicable' other
      = isMostSpecific isAssignable applicable other := by
    intro other
    rw [Bool.eq_iff_iff, isMostSpecific_iff, isMostSpecific_iff]
    simp only [hsame]
  refine ⟨(hsame candidate).2 h.1, (hmost candidate).trans h.2.1, ?_⟩
  intro other hother hbest
  exact h.2.2 other ((hsame other).1 hother) ((hmost other).symm.trans hbest)

/-- The only candidate is the preferred one. -/
theorem preferred_singleton (candidate : ResolvedDirectCallCandidate Decl) :
    Preferred isAssignable [candidate] candidate := by
  refine ⟨List.mem_singleton_self candidate, ?_, fun other hother _ => List.mem_singleton.1 hother⟩
  rw [isMostSpecific_iff]
  intro other hother
  rw [List.mem_singleton.1 hother]
  exact .inl rfl

theorem selectMostSpecificOverloadIndex_iff
    (hdistinct : (applicable.map ResolvedDirectCallCandidate.declaration).Nodup)
    {index : Fin applicable.length} :
    selectMostSpecificOverloadIndex isAssignable applicable = some index
      ↔ Preferred isAssignable applicable (applicable.get index) := by
  have hitems : applicable.Nodup := List.Nodup.of_map _ hdistinct
  unfold selectMostSpecificOverloadIndex
  by_cases honly : applicable.length = 1
  · rcases List.length_eq_one_iff.1 honly with ⟨candidate, rfl⟩
    have hindex : index = ⟨0, by simp⟩ := Subsingleton.elim (α := Fin 1) _ _
    rw [dif_pos honly, hindex]
    exact iff_of_true rfl (preferred_singleton candidate)
  · rw [dif_neg honly]
    have hfilter := @filter_eq_singleton_iff _ _ (List.nodup_finRange applicable.length)
      (fun index => isMostSpecific isAssignable applicable applicable[index]) index
    have hpreferred : Preferred isAssignable applicable (applicable.get index) ↔
        (List.finRange applicable.length).filter
          (fun index => isMostSpecific isAssignable applicable applicable[index]) = [index] := by
      rw [hfilter]
      constructor
      · rintro ⟨-, hbest, hunique⟩
        refine ⟨⟨List.mem_finRange index, hbest⟩, fun other _ hother => ?_⟩
        have heq := hunique _ (List.getElem_mem other.isLt) hother
        exact Fin.ext ((List.Nodup.getElem_inj_iff hitems).1 heq)
      · rintro ⟨⟨-, hbest⟩, hunique⟩
        refine ⟨List.getElem_mem index.isLt, hbest, fun other hother hmost => ?_⟩
        rcases List.getElem_of_mem hother with ⟨position, hposition, rfl⟩
        rw [← hunique ⟨position, hposition⟩ (List.mem_finRange _) hmost]
        rfl
    rw [hpreferred]
    cases hcase : (List.finRange applicable.length).filter
      fun index => isMostSpecific isAssignable applicable applicable[index] with
    | nil => simp
    | cons first rest =>
      cases rest with
      | nil => simp
      | cons second rest => simp

end Preferred

/-! ## What the selection depends on -/

section Outcome

variable {isAssignable typeMatches : SemanticType → SemanticType → Bool} {Arg : Type}
  {types : ArgumentTypes Arg} {call : CallArguments Arg} {Decl Failure : Type}

theorem declaration_of_applicable {attempt : OverloadAttempt Decl Failure}
    {candidate : ResolvedDirectCallCandidate Decl}
    (h : applicableCandidate isAssignable typeMatches types call attempt = some candidate) :
    candidate.declaration = attempt.declaration := by
  unfold applicableCandidate at h
  split at h
  · rename_i result hresult
    split_ifs at h
    exact attempt.own candidate (by rw [hresult, Option.some.inj h])
  · cases h

/-- The candidates are those of distinct declarations, as the attempts are. -/
theorem applicable_distinct {attempts : List (OverloadAttempt Decl Failure)}
    (hdistinct : (attempts.map OverloadAttempt.declaration).Nodup) :
    ((applicableCandidates isAssignable typeMatches types call attempts).map
      ResolvedDirectCallCandidate.declaration).Nodup := by
  have hsublist : ((applicableCandidates isAssignable typeMatches types call attempts).map
      ResolvedDirectCallCandidate.declaration).Sublist
        (attempts.map OverloadAttempt.declaration) := by
    unfold applicableCandidates
    induction attempts with
    | nil => exact List.Sublist.slnil
    | cons attempt rest ih =>
      rw [List.map_cons] at hdistinct ⊢
      have hrest := ih (List.nodup_cons.1 hdistinct).2
      cases happlicable : applicableCandidate isAssignable typeMatches types call attempt with
      | none =>
        rw [List.filterMap_cons_none happlicable]
        exact hrest.cons _
      | some candidate =>
        rw [List.filterMap_cons_some happlicable, List.map_cons,
          declaration_of_applicable happlicable]
        exact hrest.cons_cons _
  exact hsublist.nodup hdistinct

/-- Of attempts among others, those that apply are the same if all of them are kept. -/
theorem mem_applicable_of_kept {attempts attempts' : List (OverloadAttempt Decl Failure)}
    (hsublist : attempts'.Sublist attempts)
    (hkept : ∀ attempt ∈ attempts, (applicableCandidate isAssignable typeMatches types call
      attempt).isSome = true → attempt ∈ attempts')
    (candidate : ResolvedDirectCallCandidate Decl) :
    candidate ∈ applicableCandidates isAssignable typeMatches types call attempts'
      ↔ candidate ∈ applicableCandidates isAssignable typeMatches types call attempts := by
  unfold applicableCandidates
  rw [List.mem_filterMap, List.mem_filterMap]
  constructor
  · rintro ⟨attempt, hmem, happlicable⟩
    exact ⟨attempt, hsublist.subset hmem, happlicable⟩
  · rintro ⟨attempt, hmem, happlicable⟩
    exact ⟨attempt, hkept attempt hmem (by rw [happlicable, Option.isSome_some]), happlicable⟩

variable [DecidableEq Decl] {hasRuntimeGenericParamlist : Decl → Bool}
  {attempts attempts' : List (OverloadAttempt Decl Failure)}

/-- A candidate is selected exactly if it is the preferred one. -/
theorem selected_iff (hdistinct : (attempts.map OverloadAttempt.declaration).Nodup)
    {candidate : ResolvedDirectCallCandidate Decl} :
    resolveOverloadSelectionFromAttempts isAssignable typeMatches types call
        hasRuntimeGenericParamlist attempts = .selected candidate
      ↔ Preferred isAssignable
          (applicableCandidates isAssignable typeMatches types call attempts) candidate := by
  have hnodup : ((applicableCandidates isAssignable typeMatches types call attempts).map
      ResolvedDirectCallCandidate.declaration).Nodup := applicable_distinct hdistinct
  unfold resolveOverloadSelectionFromAttempts
  generalize applicableCandidates isAssignable typeMatches types call attempts = applicable
    at hnodup ⊢
  rcases applicable with _ | ⟨first, _ | ⟨second, rest⟩⟩
  · exact iff_of_false (by simp) fun h => List.not_mem_nil h.1
  · constructor
    · intro h
      cases h
      exact preferred_singleton _
    · intro h
      rw [List.mem_singleton.1 h.1]
  · have hselect := @selectMostSpecificOverloadIndex_iff isAssignable _ _ _ hnodup
    cases hindex : selectMostSpecificOverloadIndex isAssignable (first :: second :: rest) with
    | some index =>
      have hpreferred := hselect.1 hindex
      simp only [hindex]
      constructor
      · intro h
        cases h
        exact hpreferred
      · intro h
        exact congrArg _ (hpreferred.2.2 candidate h.1 h.2.1).symm
    | none =>
      simp only [hindex]
      refine iff_of_false nofun fun h => ?_
      rcases List.getElem_of_mem h.1 with ⟨position, hposition, rfl⟩
      have hsome := (@hselect ⟨position, hposition⟩).2 h
      rw [hindex] at hsome
      cases hsome

theorem notApplicable_iff :
    (resolveOverloadSelectionFromAttempts isAssignable typeMatches types call
        hasRuntimeGenericParamlist attempts).outcome = .notApplicable
      ↔ applicableCandidates isAssignable typeMatches types call attempts = [] := by
  unfold resolveOverloadSelectionFromAttempts
  split
  · rename_i hnil
    exact iff_of_true rfl hnil
  · rename_i hone
    rw [hone]
    exact iff_of_false nofun nofun
  · rename_i hmore
    rw [hmore]
    refine iff_of_false ?_ nofun
    split <;> nofun

/-- The selection is ambiguous exactly if there are candidates and none is preferred. -/
theorem ambiguous_iff (hdistinct : (attempts.map OverloadAttempt.declaration).Nodup) :
    (resolveOverloadSelectionFromAttempts isAssignable typeMatches types call
        hasRuntimeGenericParamlist attempts).outcome = .ambiguous
      ↔ applicableCandidates isAssignable typeMatches types call attempts ≠ []
        ∧ ∀ candidate, ¬ Preferred isAssignable
            (applicableCandidates isAssignable typeMatches types call attempts) candidate := by
  have hselected := fun candidate => @selected_iff isAssignable typeMatches _ types call _ _ _
    hasRuntimeGenericParamlist attempts hdistinct candidate
  have hnone := @notApplicable_iff isAssignable typeMatches _ types call _ _ _
    hasRuntimeGenericParamlist attempts
  cases hselection : resolveOverloadSelectionFromAttempts isAssignable typeMatches types call
      hasRuntimeGenericParamlist attempts with
  | selected candidate =>
    exact iff_of_false nofun fun h => h.2 candidate ((hselected candidate).1 hselection)
  | ambiguous count =>
    rw [hselection] at hnone
    refine iff_of_true rfl ⟨fun hnil => absurd (hnone.2 hnil) nofun, fun candidate h => ?_⟩
    have hother := (hselected candidate).2 h
    rw [hselection] at hother
    cases hother
  | notApplicable failures =>
    rw [hselection] at hnone
    exact iff_of_false nofun fun h => h.1 (hnone.1 rfl)

/-- The outcome is the same for attempts with the same applicable candidates. -/
theorem outcome_congr (hdistinct : (attempts.map OverloadAttempt.declaration).Nodup)
    (hdistinct' : (attempts'.map OverloadAttempt.declaration).Nodup)
    (hsame : ∀ candidate,
      candidate ∈ applicableCandidates isAssignable typeMatches types call attempts'
        ↔ candidate ∈ applicableCandidates isAssignable typeMatches types call attempts) :
    (resolveOverloadSelectionFromAttempts isAssignable typeMatches types call
        hasRuntimeGenericParamlist attempts').outcome
      = (resolveOverloadSelectionFromAttempts isAssignable typeMatches types call
        hasRuntimeGenericParamlist attempts).outcome := by
  have hpreferred := fun candidate =>
    (⟨Preferred.congr fun other => (hsame other).symm, Preferred.congr hsame⟩ :
      Preferred isAssignable
          (applicableCandidates isAssignable typeMatches types call attempts') candidate
        ↔ Preferred isAssignable
          (applicableCandidates isAssignable typeMatches types call attempts) candidate)
  have hnil : applicableCandidates isAssignable typeMatches types call attempts' = []
      ↔ applicableCandidates isAssignable typeMatches types call attempts = [] := by
    simp only [List.eq_nil_iff_forall_not_mem, hsame]
  cases hselection : resolveOverloadSelectionFromAttempts isAssignable typeMatches types call
      hasRuntimeGenericParamlist attempts with
  | selected candidate =>
    rw [(selected_iff hdistinct').2
      ((hpreferred candidate).2 ((selected_iff hdistinct).1 hselection))]
  | ambiguous count =>
    have hambiguous := (ambiguous_iff hdistinct).1 (congrArg _ hselection)
    refine (ambiguous_iff hdistinct').2 ⟨fun h => hambiguous.1 (hnil.1 h), ?_⟩
    exact fun candidate h => hambiguous.2 candidate ((hpreferred candidate).1 h)
  | notApplicable failures =>
    exact notApplicable_iff.2 (hnil.2 (notApplicable_iff.1 (congrArg _ hselection)))

end Outcome

/-! ## What is expected of a selection -/

section Expected

variable (isAssignable typeMatches : SemanticType → SemanticType → Bool) {Arg : Type}
  (types : ArgumentTypes Arg) (call : CallArguments Arg) {Decl Failure : Type} [DecidableEq Decl]
  (hasRuntimeGenericParamlist : Decl → Bool) (attempts : List (OverloadAttempt Decl Failure))

/-- The selection depends only on the candidates that apply: neither their order nor the other
attempts matter, the selected candidate fits wherever another one does, and a candidate that is more
specific than all the others settles the selection. -/
structure DependsOnlyOnApplicable : Prop where
  permuted : ∀ attempts' : List (OverloadAttempt Decl Failure), attempts'.Perm attempts →
    (resolveOverloadSelectionFromAttempts isAssignable typeMatches types call
        hasRuntimeGenericParamlist attempts').outcome
      = (resolveOverloadSelectionFromAttempts isAssignable typeMatches types call
        hasRuntimeGenericParamlist attempts).outcome
  removed : ∀ attempts' : List (OverloadAttempt Decl Failure), attempts'.Sublist attempts →
    (∀ attempt ∈ attempts, (applicableCandidate isAssignable typeMatches types call
      attempt).isSome = true → attempt ∈ attempts') →
    (resolveOverloadSelectionFromAttempts isAssignable typeMatches types call
        hasRuntimeGenericParamlist attempts').outcome
      = (resolveOverloadSelectionFromAttempts isAssignable typeMatches types call
        hasRuntimeGenericParamlist attempts).outcome
  applicable : ∀ candidate, resolveOverloadSelectionFromAttempts isAssignable typeMatches types call
      hasRuntimeGenericParamlist attempts = .selected candidate →
    candidate ∈ applicableCandidates isAssignable typeMatches types call attempts
  assignable : ∀ candidate, resolveOverloadSelectionFromAttempts isAssignable typeMatches types call
      hasRuntimeGenericParamlist attempts = .selected candidate →
    ∀ other ∈ applicableCandidates isAssignable typeMatches types call attempts,
      other.declaration ≠ candidate.declaration → ∀ (index : Nat) (ty : SemanticType),
        candidate.signatureParams[index]?.bind SemanticCallableParam.annotation = some ty →
        ∃ expected, other.semanticParamTypes[index]? = some expected
          ∧ isAssignable expected ty = true
  settled : (∃ candidate ∈ applicableCandidates isAssignable typeMatches types call attempts,
      ∀ other ∈ applicableCandidates isAssignable typeMatches types call attempts,
        other.declaration ≠ candidate.declaration →
          overloadIsMoreSpecific isAssignable candidate other = true) →
    (resolveOverloadSelectionFromAttempts isAssignable typeMatches types call
      hasRuntimeGenericParamlist attempts).outcome ≠ .ambiguous

/-- No two candidates that apply are each more specific than all the others. -/
def Unrivalled : Prop :=
  ∀ first ∈ applicableCandidates isAssignable typeMatches types call attempts,
    ∀ second ∈ applicableCandidates isAssignable typeMatches types call attempts,
      isMostSpecific isAssignable
          (applicableCandidates isAssignable typeMatches types call attempts) first = true →
        isMostSpecific isAssignable
            (applicableCandidates isAssignable typeMatches types call attempts) second = true →
          first.declaration = second.declaration

variable {isAssignable typeMatches types call attempts}

/-- Without rivals, a candidate that is more specific than all the others is the preferred one. -/
theorem preferred_of_unrivalled (hdistinct : (attempts.map OverloadAttempt.declaration).Nodup)
    (hunrivalled : Unrivalled isAssignable typeMatches types call attempts)
    {candidate : ResolvedDirectCallCandidate Decl}
    (hmem : candidate ∈ applicableCandidates isAssignable typeMatches types call attempts)
    (hmost : isMostSpecific isAssignable
      (applicableCandidates isAssignable typeMatches types call attempts) candidate = true) :
    Preferred isAssignable (applicableCandidates isAssignable typeMatches types call attempts)
      candidate := by
  refine ⟨hmem, hmost, fun other hother hbest => ?_⟩
  exact eq_of_declaration (applicable_distinct hdistinct) hother hmem
    (hunrivalled other hother candidate hmem hbest hmost)

/-- The selection is what is expected of it exactly if no two candidates rival each other. -/
theorem dependsOnlyOnApplicable_iff
    (hdistinct : (attempts.map OverloadAttempt.declaration).Nodup) :
    DependsOnlyOnApplicable isAssignable typeMatches types call hasRuntimeGenericParamlist attempts
      ↔ Unrivalled isAssignable typeMatches types call attempts := by
  constructor
  · intro hexpected first hfirst second hsecond hmostFirst hmostSecond
    have hsettled := hexpected.settled ⟨first, hfirst, fun other hother hne =>
      (isMostSpecific_iff.1 hmostFirst other hother).resolve_left (Ne.symm hne)⟩
    have hpreferred : ∃ candidate, Preferred isAssignable
        (applicableCandidates isAssignable typeMatches types call attempts) candidate := by
      by_contra hnone
      exact hsettled ((ambiguous_iff hdistinct).2
        ⟨List.ne_nil_of_mem hfirst, not_exists.1 hnone⟩)
    rcases hpreferred with ⟨candidate, -, -, honly⟩
    rw [honly first hfirst hmostFirst, honly second hsecond hmostSecond]
  · intro hunrivalled
    refine ⟨?_, ?_, ?_, ?_, ?_⟩
    · intro attempts' hperm
      refine outcome_congr hdistinct ((hperm.map _).nodup_iff.2 hdistinct) fun candidate => ?_
      exact (hperm.filterMap _).mem_iff
    · intro attempts' hsublist hkept
      exact outcome_congr hdistinct ((hsublist.map _).nodup hdistinct)
        (mem_applicable_of_kept hsublist hkept)
    · intro candidate hselected
      exact ((selected_iff hdistinct).1 hselected).1
    · intro candidate hselected other hother hne index ty hannotated
      have hmost := ((selected_iff hdistinct).1 hselected).2.1
      have hmore := (isMostSpecific_iff.1 hmost other hother).resolve_left (Ne.symm hne)
      exact assignable_of_moreSpecific hmore hannotated
    · rintro ⟨candidate, hmem, hmore⟩ hambiguous
      refine ((ambiguous_iff hdistinct).1 hambiguous).2 candidate
        (preferred_of_unrivalled hdistinct hunrivalled hmem (isMostSpecific_iff.2 ?_))
      intro other hother
      by_cases hsame : candidate.declaration = other.declaration
      · exact .inl hsame
      · exact .inr (hmore other hother (Ne.symm hsame))

end Expected

/-! ## Examples -/

/-- `def f(x: T)`, the overload with a number. -/
def oneParam (declaration : Nat) (ty : SemanticType) : ResolvedDirectCallCandidate Nat where
  declaration := declaration
  signatureParams :=
    [{ name := "x", annotationText := some (renderSemanticType ty), annotation := some ty,
       hasDefault := false, positionalOnly := false, keywordOnly := false, variadic := false,
       keywordVariadic := false }]
  semanticParamTypes := [ty]
  returnType := none
  plain := by
    intro param hparam hnone
    rw [List.mem_singleton.1 hparam] at hnone
    cases hnone
  typed := rfl

def attemptOf (candidate : ResolvedDirectCallCandidate Nat) : OverloadAttempt Nat Unit where
  declaration := candidate.declaration
  result := .ok candidate
  own := by
    intro other hother
    cases hother
    rfl

theorem applicableCandidate_attemptOf (call : CallArguments SemanticType)
    (candidate : ResolvedDirectCallCandidate Nat) :
    applicableCandidate assignableAtOnce assignableAtOnce typedValues call (attemptOf candidate)
      = if callSignatureParamsAreApplicable assignableAtOnce assignableAtOnce typedValues call
          candidate.signatureParams then some candidate else none :=
  rfl

/-- `f(1)` -/
def callWithInt : CallArguments SemanticType := { argCount := 1, argValues := [.name "int"] }

/-- Of overloads for `int` and `object`, the first is selected whatever else is tried. -/
theorem objectOverload_dependsOnlyOnApplicable :
    DependsOnlyOnApplicable assignableAtOnce assignableAtOnce typedValues callWithInt
      (fun _ => false)
      [attemptOf (oneParam 0 (.name "int")), attemptOf (oneParam 1 (.name "object"))] := by
  refine (dependsOnlyOnApplicable_iff (fun _ => false) (by decide)).2 ?_
  unfold Unrivalled
  decide +kernel

/-- A type that takes anything. -/
def isPermissiveType (ty : SemanticType) : Bool :=
  isAnySemanticType ty || isDynamicSemanticType ty || isUnknownSemanticType ty

/-- What the specification of the comparison rules out: a parameter that takes anything, where the
other candidate has a concrete one. -/
def reliesOnPermissive {Decl : Type} (candidate baseline : ResolvedDirectCallCandidate Decl) :
    Bool :=
  (candidate.semanticParamTypes.zip baseline.semanticParamTypes).any fun (ty, other) =>
    isPermissiveType ty && !isPermissiveType other

/-- Overloads for `int` and `dynamic` are each more specific than the other, the second of them
only for its `dynamic`, and `f(1)` is ambiguous. -/
theorem dynamicOverload_rivals :
    overloadIsMoreSpecific assignableAtOnce (oneParam 0 (.name "int"))
        (oneParam 1 (.name "dynamic")) = true
      ∧ reliesOnPermissive (oneParam 0 (.name "int")) (oneParam 1 (.name "dynamic")) = false
      ∧ reliesOnPermissive (oneParam 1 (.name "dynamic")) (oneParam 0 (.name "int")) = true
      ∧ ¬ DependsOnlyOnApplicable assignableAtOnce assignableAtOnce typedValues callWithInt
          (fun _ => false)
          [attemptOf (oneParam 0 (.name "int")), attemptOf (oneParam 1 (.name "dynamic"))] := by
  refine ⟨by decide +kernel, by decide, by decide, fun hexpected => ?_⟩
  refine hexpected.settled ⟨oneParam 0 (.name "int"), ?_, ?_⟩ (by decide +kernel)
  · have happlies : (applicableCandidate assignableAtOnce assignableAtOnce typedValues callWithInt
        (attemptOf (oneParam 0 (.name "int")))) = some (oneParam 0 (.name "int")) := by
      rw [applicableCandidate_attemptOf]
      exact if_pos (by decide +kernel)
    exact List.mem_filterMap.2 ⟨_, List.mem_cons_self, happlies⟩
  · intro other hother hne
    rcases List.mem_filterMap.1 hother with ⟨attempt, hattempt, happlies⟩
    have hdeclaration := declaration_of_applicable happlies
    rw [List.mem_cons, List.mem_singleton] at hattempt
    rcases hattempt with rfl | rfl
    · exact absurd hdeclaration hne
    · rw [applicableCandidate_attemptOf] at happlies
      split_ifs at happlies
      rw [← Option.some.inj happlies]
      decide +kernel

end TypePython.Checking
