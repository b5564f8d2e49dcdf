import Mathlib.Order.Basic
import TypePython.Checking.Flow
import TypePython.Checking.UnionAliases
import TypePython.Checking.ValueModel

/-!
# Narrowing by isinstance

What an `isinstance` guard leaves of a union of classes, against the classes that pass it.
Branches are matched by name: a branch is kept in the true case if it is listed, and in the
false case if it is not, while Python follows the hierarchy. `instanceNarrowing_sound_iff`
says for which guards no class is lost.
-/

namespace TypePython.Checking

open TypePython.Lib
open TypePython.Binding
open TypePython.Syntax

variable {name branch : String}

section Matching

variable (nodes : List ModuleNode) (node : ModuleNode)

/-- Whether a listed class matches a branch, when both are names of classes. -/
def MatchesByName (listed branch : String) : Prop :=
  listed = branch ∨ listed = "Any" ∨ branch = "Any"

instance (listed branch : String) : Decidable (MatchesByName listed branch) :=
  inferInstanceAs (Decidable (_ ∨ _ ∨ _))

/-- Names that are no aliases match if they are equal or one of them is `Any`. -/
theorem typeMatches_names (options : AssignabilityOptions) {expected actual : String}
    (hexpected : resolveDirectTypeAlias nodes node expected = none)
    (hactual : resolveDirectTypeAlias nodes node actual = none) :
    Answers (Question.body nodes options) (.typeMatches node (.name expected) (.name actual) [])
      (decide (MatchesByName expected actual)) := by
  rw [answers_iff]
  show (directSemanticTypeMatches options node (.name expected) (.name actual) []).Yields _ _
  simp only [directSemanticTypeMatches, normalize_name, SemanticType.name.injEq,
    isAnySemanticType, List.not_mem_nil, if_false]
  by_cases h : MatchesByName expected actual
  · rw [if_pos (by simpa [MatchesByName, or_assoc] using h)]
    simp [h]
  · rw [if_neg (by simpa [MatchesByName, or_assoc] using h), decide_eq_false h, Prog.yields_bind]
    refine ⟨none, (Prog.yields_query _ _).2 (expandAliasOnce_of_resolve_none hexpected), ?_⟩
    rw [Prog.yields_bind]
    exact ⟨none, (Prog.yields_query _ _).2 (expandAliasOnce_of_resolve_none hactual), rfl⟩

/-- A guard on a union of classes: the branches of the base type and what the guard lists are
names of classes, and the context answers as the program does. -/
structure ClassGuard (context : GuardContext) (base : SemanticType)
    (branches listed : List String) : Prop where
  branches_eq : semanticUnionBranches base = some (branches.map .name)
  branch_is_class : ∀ branch ∈ branches, resolveDirectTypeAlias nodes node branch = none
  listed_is_class : ∀ name ∈ listed, resolveDirectTypeAlias nodes node name = none
  answers : ∀ name ∈ listed, ∀ branch ∈ branches,
    Answers (Question.body nodes {}) (.typeMatches node (.name name) (.name branch) [])
      (context.semanticTypeMatches (.name name) (.name branch))

variable {nodes node} {context : GuardContext} {base : SemanticType}
  {branches listed : List String}

theorem ClassGuard.matches_iff (h : ClassGuard nodes node context base branches listed)
    (hname : name ∈ listed) (hbranch : branch ∈ branches) :
    context.semanticTypeMatches (.name name) (.name branch) = true
      ↔ MatchesByName name branch := by
  have hanswer := typeMatches_names nodes node {} (h.listed_is_class name hname)
    (h.branch_is_class branch hbranch)
  rw [Answers.unique (h.answers name hname branch hbranch) hanswer, decide_eq_true_eq]

/-! ## What is kept -/

/-- Whether some listed class matches a branch. -/
def SomeListedMatches (listed : List String) (branch : String) : Prop :=
  ∃ name ∈ listed, MatchesByName name branch

instance (listed : List String) (branch : String) : Decidable (SomeListedMatches listed branch) :=
  inferInstanceAs (Decidable (∃ name ∈ listed, _))

theorem ClassGuard.any_matches (h : ClassGuard nodes node context base branches listed)
    (hbranch : branch ∈ branches) : ((listed.map SemanticType.name).any fun ty =>
        context.semanticTypeMatches ty (.name branch)) = true
      ↔ SomeListedMatches listed branch := by
  rw [List.any_map, List.any_eq_true]
  constructor
  · rintro ⟨name, hname, hmatch⟩
    exact ⟨name, hname, (h.matches_iff hname hbranch).1 hmatch⟩
  · rintro ⟨name, hname, hmatch⟩
    exact ⟨name, hname, (h.matches_iff hname hbranch).2 hmatch⟩

/-- The branches kept by the true case, and by the false case. -/
theorem ClassGuard.filter_eq (h : ClassGuard nodes node context base branches listed) :
    (branches.map SemanticType.name).filter (fun branch =>
        (listed.map SemanticType.name).any fun ty => context.semanticTypeMatches ty branch)
      = (branches.filter fun branch => SomeListedMatches listed branch).map .name := by
  rw [List.filter_map]
  congr 1
  refine List.filter_congr fun branch hbranch => ?_
  rw [Function.comp_apply, Bool.eq_iff_iff, h.any_matches hbranch, decide_eq_true_eq]

theorem ClassGuard.filter_not_eq (h : ClassGuard nodes node context base branches listed) :
    (branches.map SemanticType.name).filter (fun branch =>
        !(listed.map SemanticType.name).any fun ty => context.semanticTypeMatches ty branch)
      = (branches.filter fun branch => ¬SomeListedMatches listed branch).map .name := by
  rw [List.filter_map]
  congr 1
  refine List.filter_congr fun branch hbranch => ?_
  rw [Function.comp_apply, Bool.eq_iff_iff, Bool.not_eq_true', decide_eq_true_eq,
    ← h.any_matches hbranch, Bool.not_eq_true]

theorem mem_leafBranches_join_names {names : List String} :
    .name name ∈ leafBranches (joinSemanticTypeCandidates (names.map .name)) ↔ name ∈ names := by
  rw [mem_leafBranches_join]
  simp [leafBranches]

theorem ClassGuard.mem_branches (h : ClassGuard nodes node context base branches listed) :
    .name name ∈ leafBranches base ↔ name ∈ branches := by
  rw [mem_leafBranches_union h.branches_eq]
  simp [leafBranches]

/-- The branches in the true case. -/
theorem ClassGuard.mem_narrowed (h : ClassGuard nodes node context base branches listed) :
    .name name ∈ leafBranches (narrowToInstanceSemanticTypes context base (listed.map .name))
      ↔ if ∃ branch ∈ branches, SomeListedMatches listed branch then
          name ∈ branches ∧ SomeListedMatches listed name
        else name ∈ listed := by
  unfold narrowToInstanceSemanticTypes
  simp only [h.branches_eq, Option.getD_some, h.filter_eq, List.map_eq_nil_iff,
    List.filter_eq_nil_iff, decide_eq_true_eq]
  by_cases hkept : ∃ branch ∈ branches, SomeListedMatches listed branch
  · rw [if_pos hkept, if_neg (by simpa using hkept), mem_leafBranches_join_names,
      List.mem_filter, decide_eq_true_eq]
  · rw [if_neg hkept, if_pos (by simpa using hkept), mem_leafBranches_join_names]

/-- The branches in the false case. -/
theorem ClassGuard.mem_removed (h : ClassGuard nodes node context base branches listed) :
    .name name ∈ leafBranches (removeInstanceSemanticTypes context base (listed.map .name))
      ↔ name ∈ branches
        ∧ ((∃ branch ∈ branches, ¬SomeListedMatches listed branch) →
            ¬SomeListedMatches listed name) := by
  unfold removeInstanceSemanticTypes
  simp only [h.branches_eq, h.filter_not_eq, List.map_eq_nil_iff, List.filter_eq_nil_iff,
    decide_eq_true_eq]
  by_cases hkept : ∃ branch ∈ branches, ¬SomeListedMatches listed branch
  · rw [if_neg (by simpa using hkept), mem_leafBranches_join_names, List.mem_filter,
      decide_eq_true_eq]
    exact and_congr_right fun _ => ⟨fun h _ => h, fun h => h hkept⟩
  · rw [if_pos (by simpa using hkept), h.mem_branches]
    exact (and_iff_left (fun h => absurd h hkept)).symm

end Matching

section Hierarchy

/-! ## Classes

A hierarchy is a preorder of classes, the subclass below, and the class each name stands for. -/

variable {Class : Type} [Preorder Class] (classOf : String → Class)

/-- The instances of a class are values of a type: the class is below a branch, or a branch
is `Any`. -/
def AdmitsClass (ty : SemanticType) (cls : Class) : Prop :=
  ∃ name, .name name ∈ leafBranches ty ∧ (name = "Any" ∨ cls ≤ classOf name)

/-- Whether instances of a class pass the guard. -/
def PassesGuard (listed : List String) (cls : Class) : Prop :=
  ∃ name ∈ listed, name = "Any" ∨ cls ≤ classOf name

/-- No class of the base type is lost in the case of the guard its instances are in. -/
def InstanceNarrowingSound (context : GuardContext) (base : SemanticType)
    (listed : List String) : Prop :=
  ∀ cls, AdmitsClass classOf base cls →
    (PassesGuard classOf listed cls →
      AdmitsClass classOf (narrowToInstanceSemanticTypes context base (listed.map .name)) cls)
    ∧ (¬PassesGuard classOf listed cls →
      AdmitsClass classOf (removeInstanceSemanticTypes context base (listed.map .name)) cls)

/-- What a branch and a listed class have in common is below a branch that is listed, if any
branch is. -/
def CommonSubclassesListed (branches listed : List String) : Prop :=
  (∀ branch ∈ branches, branch ∉ listed)
    ∨ ∀ cls, ∀ branch ∈ branches, cls ≤ classOf branch → ∀ name ∈ listed, cls ≤ classOf name →
        ∃ kept ∈ branches, kept ∈ listed ∧ cls ≤ classOf kept

/-- The branches with a name cover what is not listed, if one of them is not listed. -/
def NamedBranchesCover (branches listed : List String) : Prop :=
  (∀ branch ∈ branches, branch = "Any" ∨ branch ∈ listed)
    ∨ ∀ cls, (∃ name ∈ listed, cls ≤ classOf name)
        ∨ ∃ branch ∈ branches, branch ≠ "Any" ∧ cls ≤ classOf branch

/-- The guards that are safe: a branch `Any` is safe in the true case and must be covered in
the false case. -/
def SafeGuard (branches listed : List String) : Prop :=
  listed = [] ∨ "Any" ∈ listed
    ∨ ("Any" ∉ branches ∧ CommonSubclassesListed classOf branches listed)
    ∨ ("Any" ∈ branches ∧ NamedBranchesCover classOf branches listed)

variable {classOf} {nodes : List ModuleNode} {node : ModuleNode} {context : GuardContext}
  {base : SemanticType} {branches listed : List String}

theorem ClassGuard.admitsClass_iff (h : ClassGuard nodes node context base branches listed)
    {cls : Class} : AdmitsClass classOf base cls
      ↔ ∃ name ∈ branches, name = "Any" ∨ cls ≤ classOf name := by
  simp only [AdmitsClass, h.mem_branches]

theorem passesGuard_iff (hany : "Any" ∉ listed) {cls : Class} :
    PassesGuard classOf listed cls ↔ ∃ name ∈ listed, cls ≤ classOf name := by
  constructor
  · rintro ⟨name, hname, rfl | hle⟩
    · exact absurd hname hany
    · exact ⟨name, hname, hle⟩
  · rintro ⟨name, hname, hle⟩
    exact ⟨name, hname, .inr hle⟩

theorem someListedMatches_iff (hany : "Any" ∉ listed) (hbranch : branch ≠ "Any") :
    SomeListedMatches listed branch ↔ branch ∈ listed := by
  constructor
  · rintro ⟨name, hname, rfl | rfl | rfl⟩
    · exact hname
    · exact absurd hname hany
    · exact absurd rfl hbranch
  · exact fun h => ⟨branch, h, .inl rfl⟩

theorem someListedMatches_any (hlisted : listed ≠ []) : SomeListedMatches listed "Any" := by
  obtain ⟨name, hname⟩ := List.exists_mem_of_ne_nil listed hlisted
  exact ⟨name, hname, .inr (.inr rfl)⟩

/-- A guard that lists nothing removes nothing. -/
theorem ClassGuard.sound_of_nil (h : ClassGuard nodes node context base branches []) :
    InstanceNarrowingSound classOf context base [] := by
  refine fun cls hbase => ⟨fun hpasses => ?_, fun _ => ?_⟩
  · obtain ⟨name, hname, -⟩ := hpasses
    exact absurd hname List.not_mem_nil
  · obtain ⟨name, hname, hcls⟩ := h.admitsClass_iff.1 hbase
    refine ⟨name, h.mem_removed.2 ⟨hname, fun _ hmatch => ?_⟩, hcls⟩
    obtain ⟨other, hother, -⟩ := hmatch
    exact absurd hother List.not_mem_nil

/-- A guard that lists `Any` keeps everything in the true case and has no other case. -/
theorem ClassGuard.sound_of_any_listed (h : ClassGuard nodes node context base branches listed)
    (hany : "Any" ∈ listed) : InstanceNarrowingSound classOf context base listed := by
  refine fun cls hbase => ⟨fun _ => ?_, fun hfails => absurd ⟨"Any", hany, .inl rfl⟩ hfails⟩
  obtain ⟨name, hname, hcls⟩ := h.admitsClass_iff.1 hbase
  have hmatch : ∀ branch, SomeListedMatches listed branch :=
    fun _ => ⟨"Any", hany, .inr (.inl rfl)⟩
  exact ⟨name, h.mem_narrowed.2 (by rw [if_pos ⟨name, hname, hmatch name⟩]
                                    exact ⟨hname, hmatch name⟩), hcls⟩

/-- Without `Any`, what is removed is the listed branches, whose classes pass the guard; in the
true case the classes of the listed branches must do for all. -/
theorem ClassGuard.sound_iff_of_classes (h : ClassGuard nodes node context base branches listed)
    (hlisted : "Any" ∉ listed) (hbranches : "Any" ∉ branches) :
    InstanceNarrowingSound classOf context base listed
      ↔ CommonSubclassesListed classOf branches listed := by
  have hne : ∀ branch ∈ branches, branch ≠ "Any" := fun branch hbranch hany =>
    hbranches (hany ▸ hbranch)
  have hmatches : ∀ branch ∈ branches, (SomeListedMatches listed branch ↔ branch ∈ listed) :=
    fun branch hbranch => someListedMatches_iff hlisted (hne branch hbranch)
  constructor
  · intro hsound
    by_cases hkept : ∀ branch ∈ branches, branch ∉ listed
    · exact .inl hkept
    · refine .inr fun cls branch hbranch hle name hname hle' => ?_
      have hbase := h.admitsClass_iff.2 ⟨branch, hbranch, .inr hle⟩
      obtain ⟨kept, hmem, hcls⟩ := (hsound cls hbase).1 ⟨name, hname, .inr hle'⟩
      push Not at hkept
      obtain ⟨first, hfirst, hfirstListed⟩ := hkept
      rw [h.mem_narrowed, if_pos ⟨first, hfirst, (hmatches first hfirst).2 hfirstListed⟩] at hmem
      exact ⟨kept, hmem.1, (hmatches kept hmem.1).1 hmem.2,
        hcls.resolve_left (hne kept hmem.1)⟩
  · intro hsafe cls hbase
    obtain ⟨branch, hbranch, hcls⟩ := h.admitsClass_iff.1 hbase
    have hle := hcls.resolve_left (hne branch hbranch)
    constructor
    · intro hpasses
      obtain ⟨name, hname, hle'⟩ := (passesGuard_iff hlisted).1 hpasses
      by_cases hkept : ∃ branch ∈ branches, SomeListedMatches listed branch
      · obtain ⟨first, hfirst, hfirstMatches⟩ := hkept
        have hcommon := hsafe.resolve_left fun hnone =>
          hnone first hfirst ((hmatches first hfirst).1 hfirstMatches)
        obtain ⟨kept, hkept', hkeptListed, hle''⟩ := hcommon cls branch hbranch hle name hname hle'
        refine ⟨kept, h.mem_narrowed.2 ?_, .inr hle''⟩
        rw [if_pos ⟨first, hfirst, hfirstMatches⟩]
        exact ⟨hkept', (hmatches kept hkept').2 hkeptListed⟩
      · refine ⟨name, h.mem_narrowed.2 ?_, .inr hle'⟩
        rw [if_neg hkept]
        exact hname
    · intro hfails
      refine ⟨branch, h.mem_removed.2 ⟨hbranch, fun _ hmatch => hfails ?_⟩, .inr hle⟩
      exact ⟨branch, (hmatches branch hbranch).1 hmatch, .inr hle⟩

/-- With a branch `Any` the true case keeps it. The false case drops it, unless every other
branch is listed as well; the branches left have to cover what it stood for. -/
theorem ClassGuard.sound_iff_of_any_branch
    (h : ClassGuard nodes node context base branches listed) (hne : listed ≠ [])
    (hlisted : "Any" ∉ listed) (hbranches : "Any" ∈ branches) :
    InstanceNarrowingSound classOf context base listed
      ↔ NamedBranchesCover classOf branches listed := by
  have hany := someListedMatches_any hne
  have hbase : ∀ cls : Class, AdmitsClass classOf base cls := fun cls =>
    h.admitsClass_iff.2 ⟨"Any", hbranches, .inl rfl⟩
  constructor
  · intro hsound
    by_cases hall : ∀ branch ∈ branches, branch = "Any" ∨ branch ∈ listed
    · exact .inl hall
    · refine .inr fun cls => ?_
      by_cases hpasses : PassesGuard classOf listed cls
      · exact .inl ((passesGuard_iff hlisted).1 hpasses)
      · obtain ⟨kept, hmem, hcls⟩ := (hsound cls (hbase cls)).2 hpasses
        obtain ⟨hkept, hunmatched⟩ := h.mem_removed.1 hmem
        push Not at hall
        obtain ⟨other, hother, hotherAny, hotherListed⟩ := hall
        have hkeptAny : kept ≠ "Any" := by
          rintro rfl
          refine hunmatched ⟨other, hother, fun hmatch => hotherListed ?_⟩ hany
          exact (someListedMatches_iff hlisted hotherAny).1 hmatch
        exact .inr ⟨kept, hkept, hkeptAny, hcls.resolve_left hkeptAny⟩
  · intro hsafe cls _
    constructor
    · intro _
      refine ⟨"Any", h.mem_narrowed.2 ?_, .inl rfl⟩
      rw [if_pos ⟨"Any", hbranches, hany⟩]
      exact ⟨hbranches, hany⟩
    · intro hfails
      by_cases hall : ∃ branch ∈ branches, ¬SomeListedMatches listed branch
      · -- some branch with a name is left, so `Any` is dropped
        obtain ⟨other, hother, hunmatched⟩ := hall
        have hotherAny : other ≠ "Any" := fun heq => hunmatched (heq ▸ hany)
        have hcover := hsafe.resolve_left fun hcovered => by
          rcases hcovered other hother with heq | hmem
          · exact hotherAny heq
          · exact hunmatched ((someListedMatches_iff hlisted hotherAny).2 hmem)
        rcases hcover cls with hpasses | ⟨branch, hbranch, hbranchAny, hle⟩
        · exact absurd ((passesGuard_iff hlisted).2 hpasses) hfails
        · refine ⟨branch, h.mem_removed.2 ⟨hbranch, fun _ hmatch => hfails ?_⟩, .inr hle⟩
          exact ⟨branch, (someListedMatches_iff hlisted hbranchAny).1 hmatch, .inr hle⟩
      · exact ⟨"Any", h.mem_removed.2 ⟨hbranches, fun hsome => absurd hsome hall⟩, .inl rfl⟩

/-- Narrowing by `isinstance` loses no class of exactly the safe guards. -/
theorem instanceNarrowing_sound_iff (h : ClassGuard nodes node context base branches listed) :
    InstanceNarrowingSound classOf context base listed ↔ SafeGuard classOf branches listed := by
  by_cases hnil : listed = []
  · subst hnil
    exact iff_of_true h.sound_of_nil (.inl rfl)
  by_cases hlisted : "Any" ∈ listed
  · exact iff_of_true (h.sound_of_any_listed hlisted) (.inr (.inl hlisted))
  by_cases hbranches : "Any" ∈ branches
  · rw [h.sound_iff_of_any_branch hnil hlisted hbranches]
    simp [SafeGuard, hnil, hlisted, hbranches]
  · rw [h.sound_iff_of_classes hlisted hbranches]
    simp [SafeGuard, hnil, hlisted, hbranches]

end Hierarchy

/-! ## Animals and numbers -/

inductive Zoo where
  | int
  | animal
  | dog
deriving DecidableEq

/-- Dogs are animals. -/
instance : Preorder Zoo where
  le a b := a = b ∨ (a = .dog ∧ b = .animal)
  le_refl a := .inl rfl
  le_trans := by
    rintro a b c (rfl | ⟨rfl, rfl⟩) (rfl | ⟨h, rfl⟩)
    · exact .inl rfl
    · exact .inr ⟨h, rfl⟩
    · exact .inr ⟨rfl, rfl⟩
    · exact .inr ⟨rfl, rfl⟩

def zooClass : String → Zoo
  | "Animal" => .animal
  | "Dog" => .dog
  | _ => .int

def zooDecl (name : String) (bases : List TypeExpr) : Declaration :=
  { name, kind := .classDecl, metadata := .classDecl (bases.map fun base => ⟨base⟩),
    classKind := some .classDecl, bases := bases.map TypeExpr.render }

def zooModule : ModuleNode where
  moduleKey := "zoo"
  declarations := [zooDecl "Animal" [], zooDecl "Dog" [.name "Animal"]]

/-- A context that matches names as the program does. -/
def zooContext : GuardContext where
  semanticTypeMatches listed branch :=
    listed = branch ∨ listed = .name "Any" ∨ branch = .name "Any"

def intOrAnimal : SemanticType := .union [.name "int", .name "Animal"]

theorem zooGuard {listed : List String}
    (hlisted : ∀ name ∈ listed, resolveDirectTypeAlias [zooModule] zooModule name = none) :
    ClassGuard [zooModule] zooModule zooContext intOrAnimal ["int", "Animal"] listed := by
  have hbranches : ∀ branch ∈ ["int", "Animal"],
      resolveDirectTypeAlias [zooModule] zooModule branch = none := by decide +kernel
  refine ⟨rfl, hbranches, hlisted, fun name hname branch hbranch => ?_⟩
  have hanswer := typeMatches_names [zooModule] zooModule {} (hlisted name hname)
    (hbranches branch hbranch)
  have hmatches : zooContext.semanticTypeMatches (.name name) (.name branch)
      = decide (MatchesByName name branch) := by
    rw [Bool.eq_iff_iff, decide_eq_true_eq]
    simp [zooContext, MatchesByName]
  rw [hmatches]
  exact hanswer

/-- After `isinstance(x, (Dog, int))` an `int | Animal` is an `int`: dogs are lost. -/
theorem dogOrInt_not_sound :
    ¬InstanceNarrowingSound zooClass zooContext intOrAnimal ["Dog", "int"] := by
  intro hsound
  have hguard : ClassGuard [zooModule] zooModule zooContext intOrAnimal ["int", "Animal"]
      ["Dog", "int"] := zooGuard (by decide +kernel)
  have hdog : AdmitsClass zooClass intOrAnimal .dog :=
    hguard.admitsClass_iff.2 ⟨"Animal", by decide, .inr (.inr ⟨rfl, rfl⟩)⟩
  obtain ⟨name, hname, hle⟩ := (hsound .dog hdog).1 ⟨"Dog", by decide, .inr (.inl rfl)⟩
  obtain rfl : name = "int" := by
    rw [show leafBranches (narrowToInstanceSemanticTypes zooContext intOrAnimal
      (["Dog", "int"].map .name)) = [.name "int"] by decide] at hname
    simpa using hname
  rcases hle with hany | heq | ⟨-, hzoo⟩
  · exact absurd hany (by decide)
  · exact absurd heq (by decide)
  · exact absurd hzoo (by decide)

/-- After `isinstance(x, Animal)` nothing is lost. -/
theorem animal_sound : InstanceNarrowingSound zooClass zooContext intOrAnimal ["Animal"] := by
  refine (instanceNarrowing_sound_iff (zooGuard (by decide +kernel))).2
    (.inr (.inr (.inl ⟨by decide, .inr fun cls branch _ _ name hname hle => ?_⟩)))
  rw [List.mem_singleton] at hname
  subst hname
  exact ⟨"Animal", by decide, by decide, hle⟩

end TypePython.Checking
