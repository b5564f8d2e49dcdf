import TypePython.Checking.TypeSubstitution
import TypePython.Lib.PartialMaps

/-!
# Inference of type arguments

What the type parameters of an annotation stand for when it meets the type of an argument.
`inferStep` is one call of `infer_generic_type_param_bindings_full` with the calls it makes
passed in; `inferGenericTypeParamBindingsFull` ties the knot, and satisfies the equation of the
recursion (`inferGenericTypeParamBindingsFull_eq`).

Assignability is a parameter.
-/

namespace TypePython.Checking

open Std
open TypePython.Lib
open TypePython.Lib.Text

/-- The names that stand for types, and those that stand for packs of types. -/
structure GenericNames where
  genericNames : List String
  typePackNames : List String

def GenericNames.isTypePack (names : GenericNames) (ty : SemanticType) : Option String :=
  match ty with
  | .name name =>
    let name := String.ofList (trim name.toList)
    if name ∈ names.typePackNames then some name else none
  | _ => none

/-! ## Argument lists -/

/-- Splice the elements of unpacked fixed tuples into the arguments, once. -/
def expandInferredGenericArgs (names : GenericNames) (args : List SemanticType) :
    List SemanticType :=
  args.flatMap fun arg =>
    match arg.unpackedInner with
    | none => [arg]
    | some inner =>
      if (names.isTypePack inner).isSome then [arg]
      else (unpackedFixedTupleSemanticElements inner).getD [arg]

/-- The position and the name of the type pack, when there is exactly one. -/
def expectedTypePackIndex (names : GenericNames) (args : List SemanticType) :
    Option (Nat × String) :=
  let found := args.zipIdx.filterMap fun (arg, index) =>
    (arg.unpackedInner.bind names.isTypePack).map fun name => (index, name)
  match found with
  | [pack] => some pack
  | _ => none

/-! ## Merging -/

section

variable (isAssignable : SemanticType → SemanticType → Bool)

def mergeNestedType (types : ExtTreeMap String SemanticType) (entry : String × SemanticType) :
    ExtTreeMap String SemanticType :=
  match types[entry.1]? with
  | some existing =>
    if existing ≠ entry.2 then
      types.insert entry.1
        (mergeGenericTypeCandidatesWithContext isAssignable existing entry.2)
    else types
  | none => types.insert entry.1 entry.2

def insertTypePackBindings (inferred : GenericSolution)
    (packs : List (String × TypePackBinding)) : Option GenericSolution :=
  packs.foldlM (fun inferred (name, binding) => insertTypePackBinding inferred name binding)
    inferred

/-- Parameter lists are not passed on. -/
def mergeNestedGenericBindings (inferred nested : GenericSolution) : Option GenericSolution :=
  insertTypePackBindings
    { inferred with
      types := nested.types.toList.foldl (mergeNestedType isAssignable) inferred.types }
    nested.typePacks.toList

def mergeBranchType (types : ExtTreeMap String SemanticType) (entry : String × SemanticType) :
    ExtTreeMap String SemanticType :=
  match types[entry.1]? with
  | some existing =>
    if existing = entry.2 then types
    else types.insert entry.1 (joinSemanticTypeCandidates [existing, entry.2])
  | none => types.insert entry.1 entry.2

def mergeUnionBranchBinding (merged candidate : GenericSolution) : Option GenericSolution :=
  insertTypePackBindings
    { merged with types := candidate.types.toList.foldl mergeBranchType merged.types }
    candidate.typePacks.toList

def mergeUnionBranchBindings (candidates : List GenericSolution) : Option GenericSolution :=
  candidates.foldlM mergeUnionBranchBinding {}

def combineGenericSubstitutions (existing inferred : GenericSolution) : GenericSolution where
  types := existing.types.insertMany inferred.types.toList
  paramLists := existing.paramLists.insertMany inferred.paramLists.toList
  typePacks := existing.typePacks.insertMany inferred.typePacks.toList

def genericBindingCount (solution : GenericSolution) : Nat :=
  solution.types.size + solution.paramLists.size + solution.typePacks.size

/-- Two solutions with the same entries. -/
def GenericSolution.same (solution other : GenericSolution) : Bool :=
  solution.types.toList = other.types.toList
    && solution.paramLists.toList == other.paramLists.toList
    && solution.typePacks.toList = other.typePacks.toList

/-- The candidate with the fewest bindings, unless there are different ones. -/
def selectBestUnionBranchBinding (candidates : List GenericSolution) : Option GenericSolution := do
  let minLength ← (candidates.map genericBindingCount).min?
  match candidates.filter fun candidate => genericBindingCount candidate = minLength with
  | [] => none
  | first :: rest => if rest.all fun candidate => candidate.same first then some first else none

/-! ## Inference -/

variable (names : GenericNames) (substitutions : GenericSolution)
  (infer : SemanticType → SemanticType → Option GenericSolution)

/-- Infer from pairs of arguments, from the left. -/
def inferPairs (inferred : GenericSolution) (pairs : List (SemanticType × SemanticType)) :
    Option GenericSolution :=
  pairs.foldlM (fun inferred (expected, actual) => do
    mergeNestedGenericBindings isAssignable inferred (← infer expected actual)) inferred

def inferGenericTypeArgBindings (expectedArgs actualArgs : List SemanticType) :
    Option GenericSolution :=
  let expectedArgs := expandInferredGenericArgs names expectedArgs
  let actualArgs := expandInferredGenericArgs names actualArgs
  match expectedTypePackIndex names expectedArgs with
  | some (packIndex, packName) =>
    let suffixLength := expectedArgs.length - (packIndex + 1)
    if actualArgs.length < packIndex + suffixLength then none
    else do
      let inferred ← inferPairs isAssignable infer {}
        ((expectedArgs.take packIndex).zip (actualArgs.take packIndex))
      let packEnd := actualArgs.length - suffixLength
      let inferred ← insertTypePackBinding inferred packName
        { types := (actualArgs.take packEnd).drop packIndex }
      inferPairs isAssignable infer inferred
        ((expectedArgs.drop (packIndex + 1)).zip (actualArgs.drop packEnd))
  | none =>
    if expectedArgs.length ≠ actualArgs.length then none
    else inferPairs isAssignable infer {} (expectedArgs.zip actualArgs)

/-- An annotation that meets one branch of a union. -/
def inferBranch (declared branch : SemanticType) : Option GenericSolution := do
  let candidate ← infer declared branch
  let substituted := substituteSemanticTypeParams
    (combineGenericSubstitutions substitutions candidate) declared
  if isAssignable substituted branch then some candidate else none

/-- A branch of the annotation that meets a type. -/
def inferAnnotationBranch (actual branch : SemanticType) : Option GenericSolution := do
  let candidate ← infer branch actual
  let substituted := substituteSemanticTypeParams
    (combineGenericSubstitutions substitutions candidate) branch
  if isAssignable substituted actual then some candidate else none

def inferGenericTypeParamBindingsSemantic (declared actual : SemanticType) :
    Option GenericSolution :=
  let unlike : Option GenericSolution := if isAssignable declared actual then some {} else none
  match declared.genericParts, actual.genericParts with
  | some (expectedHead, expectedArgs), some (actualHead, actualArgs) =>
    if expectedHead = actualHead then
      inferGenericTypeArgBindings isAssignable names infer expectedArgs actualArgs
    else unlike
  | _, _ => unlike

/-- The branches of a union of two or more. -/
def severalBranches (ty : SemanticType) : Option (List SemanticType) :=
  (semanticUnionBranches ty).filter fun branches => 1 < branches.length

/-- The name of a type parameter. -/
def GenericNames.typeParam (ty : SemanticType) : Option String :=
  match ty with
  | .name name => if name ∈ names.genericNames then some name else none
  | _ => none

def boundType (name : String) (ty : SemanticType) : GenericSolution where
  types := (∅ : ExtTreeMap String SemanticType).insert name ty

/-- What a type parameter stands for when it meets a type. -/
def typeParamCandidate (name : String) (actual : SemanticType) : SemanticType :=
  match substitutions.types[name]? with
  | some existing => mergeGenericTypeCandidatesWithContext isAssignable existing actual
  | none => actual

def inferStep (declared actual : SemanticType) : Option GenericSolution :=
  if actual = .name "" then some {}
  else
    match names.typeParam declared with
    | some name =>
      some (boundType name (typeParamCandidate isAssignable substitutions name actual))
    | none =>
      match severalBranches actual, severalBranches declared with
      | some branches, _ => do
        mergeUnionBranchBindings
          (← branches.mapM (inferBranch isAssignable substitutions infer declared))
      | none, some branches =>
        selectBestUnionBranchBinding (branches.filterMap
          (inferAnnotationBranch isAssignable substitutions infer actual))
      | none, none =>
        inferGenericTypeParamBindingsSemantic isAssignable names infer declared actual

/-- Calls nested at most `fuel` deep. -/
def inferBindings : Nat → SemanticType → SemanticType → Option GenericSolution
  | 0 => fun _ _ => none
  | fuel + 1 => inferStep isAssignable names substitutions (inferBindings fuel)

end

/-! ## The recursion ends -/

mutual

def SemanticType.size : SemanticType → Nat
  | .name _ => 1
  | .generic _ args => 1 + sizeOfAll args
  | .callable _ _ => 1
  | .union branches => 1 + sizeOfAll branches
  | .annotated value _ => 1 + value.size
  | .unpack inner => 1 + inner.size

def sizeOfAll : List SemanticType → Nat
  | [] => 0
  | ty :: rest => ty.size + sizeOfAll rest

end

theorem SemanticType.size_pos (ty : SemanticType) : 0 < ty.size := by
  cases ty <;> simp only [SemanticType.size] <;> omega

theorem size_le_sizeOfAll {ty : SemanticType} {types : List SemanticType} (hty : ty ∈ types) :
    ty.size ≤ sizeOfAll types := by
  induction types with
  | nil => cases hty
  | cons first rest ih =>
    simp only [sizeOfAll]
    rcases List.mem_cons.1 hty with rfl | hrest
    · omega
    · have := ih hrest
      omega

theorem SemanticType.size_stripAnnotated : ∀ ty : SemanticType, ty.stripAnnotated.size ≤ ty.size
  | .annotated value _ => by
    have := SemanticType.size_stripAnnotated value
    simp only [SemanticType.stripAnnotated, SemanticType.size]
    omega
  | .name _ => Nat.le_refl _
  | .generic _ _ => Nat.le_refl _
  | .callable _ _ => Nat.le_refl _
  | .union _ => Nat.le_refl _
  | .unpack _ => Nat.le_refl _

theorem sizeOfAll_lt_of_genericParts {ty : SemanticType} {head : String} {args : List SemanticType}
    (h : ty.genericParts = some (head, args)) : sizeOfAll args < ty.size := by
  have hstrip := ty.size_stripAnnotated
  unfold SemanticType.genericParts at h
  split at h
  · rename_i heq
    cases h
    rw [heq] at hstrip
    simp only [SemanticType.size] at hstrip
    omega
  · cases h

theorem size_lt_of_unpackedInner {ty inner : SemanticType} (h : ty.unpackedInner = some inner) :
    inner.size < ty.size := by
  have hstrip := ty.size_stripAnnotated
  unfold SemanticType.unpackedInner at h
  split at h
  · rename_i heq
    cases h
    rw [heq] at hstrip
    simp only [SemanticType.size] at hstrip
    omega
  · cases h

theorem genericParts_of_unpackedFixedTuple {ty : SemanticType} {elements : List SemanticType}
    (h : unpackedFixedTupleSemanticElements ty = some elements) :
    ty.genericParts = some ("tuple", elements) := by
  unfold unpackedFixedTupleSemanticElements at h
  split at h
  · cases h
  · rename_i heq
    cases h
    exact heq
  · cases h

/-- Splicing does not make arguments larger. -/
theorem size_of_mem_expandInferred {names : GenericNames} {args : List SemanticType}
    {ty : SemanticType} (hty : ty ∈ expandInferredGenericArgs names args) :
    ty.size ≤ sizeOfAll args := by
  obtain ⟨arg, harg, hty⟩ := List.mem_flatMap.1 hty
  refine Nat.le_trans ?_ (size_le_sizeOfAll harg)
  have hself : ty ∈ [arg] → ty.size ≤ arg.size := by
    intro h
    exact Nat.le_of_eq (congrArg SemanticType.size (List.mem_singleton.1 h))
  split at hty
  · exact hself hty
  · rename_i inner hinner
    split at hty
    · exact hself hty
    · rcases helements : unpackedFixedTupleSemanticElements inner with _ | elements
      · rw [helements] at hty
        exact hself hty
      · rw [helements] at hty
        have := @size_le_sizeOfAll _ elements hty
        have := sizeOfAll_lt_of_genericParts (genericParts_of_unpackedFixedTuple helements)
        have := size_lt_of_unpackedInner hinner
        omega

/-- Each branch is smaller than the union. -/
theorem size_lt_of_severalBranches {ty branch : SemanticType} {branches : List SemanticType}
    (h : severalBranches ty = some branches) (hbranch : branch ∈ branches) :
    branch.size < ty.size := by
  have hstrip := ty.size_stripAnnotated
  have hbranches : semanticUnionBranches ty = some branches := by
    unfold severalBranches at h
    exact Option.filter_eq_some_iff.1 h |>.1
  unfold semanticUnionBranches at hbranches
  split at hbranches
  · rename_i heq
    cases hbranches
    rw [heq] at hstrip
    have := size_le_sizeOfAll hbranch
    simp only [SemanticType.size] at hstrip
    omega
  · rename_i inner heq
    cases hbranches
    rw [heq] at hstrip
    simp only [SemanticType.size, sizeOfAll] at hstrip
    have hinner := inner.size_pos
    rcases List.mem_cons.1 hbranch with rfl | hnone
    · omega
    · rw [List.mem_singleton.1 hnone]
      simp only [SemanticType.size]
      omega
  · cases hbranches

section

variable {isAssignable : SemanticType → SemanticType → Bool} {names : GenericNames}
  {substitutions : GenericSolution}
  {infer infer' : SemanticType → SemanticType → Option GenericSolution}

theorem inferPairs_congr {pairs : List (SemanticType × SemanticType)} {start : GenericSolution}
    (h : ∀ pair ∈ pairs, infer pair.1 pair.2 = infer' pair.1 pair.2) :
    inferPairs isAssignable infer start pairs = inferPairs isAssignable infer' start pairs := by
  induction pairs generalizing start with
  | nil => rfl
  | cons pair rest ih =>
    have hrest := fun later => @ih later fun other hother => h other (List.mem_cons_of_mem _ hother)
    simp only [inferPairs] at hrest
    simp only [inferPairs, List.foldlM_cons, h pair (by simp), hrest]

theorem inferGenericTypeArgBindings_congr {expectedArgs actualArgs : List SemanticType}
    (h : ∀ expected ∈ expandInferredGenericArgs names expectedArgs,
      ∀ actual ∈ expandInferredGenericArgs names actualArgs,
        infer expected actual = infer' expected actual) :
    inferGenericTypeArgBindings isAssignable names infer expectedArgs actualArgs
      = inferGenericTypeArgBindings isAssignable names infer' expectedArgs actualArgs := by
  have hpairs : ∀ (start : GenericSolution) (left right : List SemanticType),
      left ⊆ expandInferredGenericArgs names expectedArgs →
      right ⊆ expandInferredGenericArgs names actualArgs →
      inferPairs isAssignable infer start (left.zip right)
        = inferPairs isAssignable infer' start (left.zip right) := by
    intro start left right hleft hright
    apply inferPairs_congr
    intro pair hpair
    exact h _ (hleft (List.of_mem_zip hpair).1) _ (hright (List.of_mem_zip hpair).2)
  simp only [inferGenericTypeArgBindings]
  simp only [hpairs _ _ _ (List.take_subset _ _) (List.take_subset _ _),
    hpairs _ _ _ (List.drop_subset _ _) (List.drop_subset _ _),
    hpairs _ _ _ (List.Subset.refl _) (List.Subset.refl _)]

/-- A call asks only about smaller pairs. -/
theorem inferStep_congr {declared actual : SemanticType}
    (h : ∀ expected found : SemanticType, expected.size + found.size < declared.size + actual.size →
      infer expected found = infer' expected found) :
    inferStep isAssignable names substitutions infer declared actual
      = inferStep isAssignable names substitutions infer' declared actual := by
  unfold inferStep
  split
  · rfl
  · split
    · rfl
    · split
      · rename_i branches hbranches
        have hbranch : ∀ branch ∈ branches,
            inferBranch isAssignable substitutions infer declared branch
              = inferBranch isAssignable substitutions infer' declared branch := by
          intro branch hmem
          have := size_lt_of_severalBranches hbranches hmem
          simp only [inferBranch]
          rw [h declared branch (by omega)]
        rw [mapM_congr hbranch]
      · rename_i branches _ hbranches
        have hbranch : ∀ branch ∈ branches,
            inferAnnotationBranch isAssignable substitutions infer actual branch
              = inferAnnotationBranch isAssignable substitutions infer' actual branch := by
          intro branch hmem
          have := size_lt_of_severalBranches hbranches hmem
          simp only [inferAnnotationBranch]
          rw [h branch actual (by omega)]
        rw [List.filterMap_congr hbranch]
      · unfold inferGenericTypeParamBindingsSemantic
        simp only
        split
        · rename_i expectedArgs _ actualArgs hexpected hactual
          split
          · apply inferGenericTypeArgBindings_congr
            intro expected hmem found hfound
            have := size_of_mem_expandInferred hmem
            have := size_of_mem_expandInferred hfound
            have := sizeOfAll_lt_of_genericParts hexpected
            have := sizeOfAll_lt_of_genericParts hactual
            exact h expected found (by omega)
          · rfl
        · rfl

/-- Fuel for the sizes of both types is enough. -/
theorem inferBindings_fuel {fuel fuel' : Nat} {declared actual : SemanticType}
    (hfuel : declared.size + actual.size < fuel) (hfuel' : declared.size + actual.size < fuel') :
    inferBindings isAssignable names substitutions fuel declared actual
      = inferBindings isAssignable names substitutions fuel' declared actual := by
  induction fuel generalizing fuel' declared actual with
  | zero => omega
  | succ fuel ih =>
    cases fuel' with
    | zero => omega
    | succ fuel' =>
      apply inferStep_congr
      intro expected found hsize
      exact ih (by omega) (by omega)

end

section

variable (isAssignable : SemanticType → SemanticType → Bool) (names : GenericNames)
  (substitutions : GenericSolution)

def inferGenericTypeParamBindingsFull (declared actual : SemanticType) :
    Option GenericSolution :=
  inferBindings isAssignable names substitutions (declared.size + actual.size + 1) declared
    actual

/-- The equation of the recursion. -/
theorem inferGenericTypeParamBindingsFull_eq (declared actual : SemanticType) :
    inferGenericTypeParamBindingsFull isAssignable names substitutions declared actual
      = inferStep isAssignable names substitutions
          (inferGenericTypeParamBindingsFull isAssignable names substitutions) declared
          actual := by
  apply inferStep_congr
  intro expected found hsize
  exact inferBindings_fuel hsize (Nat.lt_succ_self _)

end

end TypePython.Checking
