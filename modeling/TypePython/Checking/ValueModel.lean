import TypePython.Checking.SemanticType

/-!
# Values of a type

What a type says of runtime values, as far as unions go: a `ValueModel` is any reading of
types as sets of values in which a union admits what one of its branches admits. One type
includes another when it does so in every such reading.
-/

namespace TypePython.Checking

/-- A reading of types as sets of values that respects unions. -/
structure ValueModel (Value : Type) where
  admits : SemanticType → Value → Prop
  admits_union : ∀ {ty branches}, semanticUnionBranches ty = some branches →
    ∀ x, admits ty x ↔ ∃ branch ∈ branches, admits branch x

/-- Every value of `part` is a value of `ty`, whatever the reading. -/
def Includes (ty part : SemanticType) : Prop :=
  ∀ (Value : Type) (m : ValueModel Value) (x : Value), m.admits part x → m.admits ty x

namespace ValueModel

variable {Value : Type} (m : ValueModel Value)

theorem admits_iff_candidateBranches (ty : SemanticType) (x : Value) :
    m.admits ty x ↔ ∃ branch ∈ candidateBranches ty, m.admits branch x := by
  cases h : semanticUnionBranches ty with
  | none => simp [candidateBranches, h]
  | some branches => simpa [candidateBranches, h] using m.admits_union h x

theorem admits_unionOf (branches : List SemanticType) (x : Value) :
    m.admits (.union branches) x ↔ ∃ branch ∈ branches, m.admits branch x :=
  m.admits_union rfl x

/-- A join admits what one of its candidates admits. -/
theorem admits_join (candidates : List SemanticType) (x : Value) :
    m.admits (joinSemanticTypeCandidates candidates) x
      ↔ ∃ candidate ∈ candidates, m.admits candidate x := by
  have hjoin : m.admits (joinSemanticTypeCandidates candidates) x
      ↔ ∃ branch ∈ (candidates.flatMap candidateBranches).foldl addBranch [],
          m.admits branch x := by
    rw [joinSemanticTypeCandidates]
    split
    · next branch h => simp [h]
    · exact m.admits_unionOf _ x
  rw [hjoin]
  simp only [mem_foldl_addBranch, List.not_mem_nil, false_or, List.mem_flatMap]
  constructor
  · rintro ⟨branch, ⟨candidate, hcandidate, hbranch⟩, hx⟩
    exact ⟨candidate, hcandidate, (m.admits_iff_candidateBranches candidate x).2 ⟨branch, hbranch, hx⟩⟩
  · rintro ⟨candidate, hcandidate, hx⟩
    obtain ⟨branch, hbranch, hx'⟩ := (m.admits_iff_candidateBranches candidate x).1 hx
    exact ⟨branch, ⟨candidate, hcandidate, hbranch⟩, hx'⟩

end ValueModel

theorem Includes.refl (ty : SemanticType) : Includes ty ty := fun _ _ _ h => h

theorem includes_join {candidates : List SemanticType} {part : SemanticType}
    (h : part ∈ candidates) : Includes (joinSemanticTypeCandidates candidates) part :=
  fun _ m x hx => (m.admits_join candidates x).2 ⟨part, h, hx⟩

/-! ## Branches -/

mutual

/-- The branches of a union, those of its branches included. -/
def leafBranches : SemanticType → List SemanticType
  | .annotated value _ => leafBranches value
  | .union branches => leafBranchesOfAll branches
  | .generic head args =>
    if head = "Optional" ∧ args.length = 1 then leafBranchesOfAll args ++ [.name "None"]
    else [.generic head args]
  | .name name => [.name name]
  | .callable params returnType => [.callable params returnType]
  | .unpack inner => [.unpack inner]

def leafBranchesOfAll : List SemanticType → List SemanticType
  | [] => []
  | branch :: rest => leafBranches branch ++ leafBranchesOfAll rest

end

theorem leafBranchesOfAll_eq_flatMap (branches : List SemanticType) :
    leafBranchesOfAll branches = branches.flatMap leafBranches := by
  induction branches with
  | nil => rfl
  | cons branch rest ih => rw [leafBranchesOfAll, List.flatMap_cons, ih]

theorem leafBranches_stripAnnotated : ∀ ty : SemanticType,
    leafBranches ty.stripAnnotated = leafBranches ty
  | .annotated value _ => by
    rw [SemanticType.stripAnnotated, leafBranches, leafBranches_stripAnnotated value]
  | .name _ | .generic _ _ | .callable _ _ | .union _ | .unpack _ => by
    rw [SemanticType.stripAnnotated]
    simp

mutual

/-- Branches are no unions themselves. -/
theorem no_union_of_mem_leafBranches {leaf : SemanticType} : ∀ ty : SemanticType,
    leaf ∈ leafBranches ty → semanticUnionBranches leaf = none
  | .annotated value _ => by
    rw [leafBranches]
    exact no_union_of_mem_leafBranches value
  | .union branches => by
    rw [leafBranches]
    exact no_union_of_mem_leafBranchesOfAll branches
  | .generic head args => by
    intro hleaf
    rw [leafBranches] at hleaf
    split at hleaf
    · rcases List.mem_append.1 hleaf with hargs | hnone
      · exact no_union_of_mem_leafBranchesOfAll args hargs
      · rw [List.mem_singleton.1 hnone]
        simp [semanticUnionBranches, SemanticType.stripAnnotated]
    · next hhead =>
        rw [List.mem_singleton.1 hleaf]
        unfold semanticUnionBranches
        split
        · next h => simp [SemanticType.stripAnnotated] at h
        · next inner h =>
            simp only [SemanticType.stripAnnotated, SemanticType.generic.injEq] at h
            exact absurd ⟨h.1, by simp [h.2]⟩ hhead
        · rfl
  | .name _ | .callable _ _ | .unpack _ => by
    intro hleaf
    rw [leafBranches, List.mem_singleton] at hleaf
    rw [hleaf]
    simp [semanticUnionBranches, SemanticType.stripAnnotated]

theorem no_union_of_mem_leafBranchesOfAll {leaf : SemanticType} : ∀ branches : List SemanticType,
    leaf ∈ leafBranchesOfAll branches → semanticUnionBranches leaf = none
  | [], hleaf => absurd hleaf List.not_mem_nil
  | branch :: rest, hleaf => by
    rcases List.mem_append.1 hleaf with h | h
    · exact no_union_of_mem_leafBranches branch h
    · exact no_union_of_mem_leafBranchesOfAll rest h

end

/-- The reading in which a type admits its branches. -/
def leafModel : ValueModel SemanticType where
  admits ty leaf := leaf ∈ leafBranches ty
  admits_union := by
    intro ty branches h leaf
    rw [← leafBranches_stripAnnotated]
    unfold semanticUnionBranches at h
    split at h
    · next bs hstrip =>
        obtain rfl : bs = branches := by simpa using h
        rw [hstrip, leafBranches, leafBranchesOfAll_eq_flatMap, List.mem_flatMap]
    · next inner hstrip =>
        obtain rfl : [inner, .name "None"] = branches := by simpa using h
        rw [hstrip]
        simp [leafBranches, leafBranchesOfAll]
    · simp at h

theorem mem_leafBranches_join {candidates : List SemanticType} {leaf : SemanticType} :
    leaf ∈ leafBranches (joinSemanticTypeCandidates candidates)
      ↔ ∃ candidate ∈ candidates, leaf ∈ leafBranches candidate :=
  leafModel.admits_join candidates leaf

theorem mem_leafBranches_union {ty leaf : SemanticType} {branches : List SemanticType}
    (h : semanticUnionBranches ty = some branches) :
    leaf ∈ leafBranches ty ↔ ∃ branch ∈ branches, leaf ∈ leafBranches branch :=
  leafModel.admits_union h leaf

/-! ## The model of names -/

mutual

/-- Whether a type admits a value, when every name is a class and a value is its class. -/
def admitsName (x : String) : SemanticType → Prop
  | .name name => name = x
  | .generic "Optional" [inner] => admitsName x inner ∨ "None" = x
  | .union branches => someAdmitsName x branches
  | .annotated value _ => admitsName x value
  | _ => False

def someAdmitsName (x : String) : List SemanticType → Prop
  | [] => False
  | branch :: rest => admitsName x branch ∨ someAdmitsName x rest

end

theorem admitsName_stripAnnotated (x : String) : ∀ ty : SemanticType,
    admitsName x ty.stripAnnotated ↔ admitsName x ty
  | .annotated value _ => by
    rw [SemanticType.stripAnnotated, admitsName_stripAnnotated x value, admitsName]
  | .name _ | .generic _ _ | .callable _ _ | .union _ | .unpack _ => by
    rw [SemanticType.stripAnnotated]
    simp

theorem someAdmitsName_iff (x : String) (branches : List SemanticType) :
    someAdmitsName x branches ↔ ∃ branch ∈ branches, admitsName x branch := by
  induction branches with
  | nil => simp [someAdmitsName]
  | cons branch rest ih => simp [someAdmitsName, ih]

/-- The reading in which every name is a class of its own. -/
def nameModel : ValueModel String where
  admits ty x := admitsName x ty
  admits_union := by
    intro ty branches h x
    rw [← admitsName_stripAnnotated]
    unfold semanticUnionBranches at h
    split at h
    · next bs hstrip =>
        obtain rfl : bs = branches := by simpa using h
        rw [hstrip, admitsName, someAdmitsName_iff]
    · next inner hstrip =>
        obtain rfl : [inner, .name "None"] = branches := by simpa using h
        rw [hstrip]
        simp [admitsName]
    · simp at h

theorem not_includes_name {a b : String} (h : a ≠ b) : ¬ Includes (.name a) (.name b) := by
  intro hincludes
  exact h (hincludes String nameModel b rfl)

end TypePython.Checking
