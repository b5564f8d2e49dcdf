import Mathlib.Data.Finset.Card
import Mathlib.Logic.Relation
import TypePython.Checking.Assignability

/-!
# Recursive aliases of unions

Aliases that stand for unions of names, those of classes and those of aliases again, such as
`A = int | B` and `B = str | A`. An alias takes a class if the class or a top type is among the
names it leads to; it also takes every class if it leads to an alias that leads back to itself
(`unionAlias_accepts_iff`), since a pair that is met again counts as assignable. Names are read
in the module of the check, as the search does.
-/

namespace TypePython.Checking

open TypePython.Lib
open TypePython.Binding
open Relation

section UnionAliases

variable (nodes : List ModuleNode) (options : AssignabilityOptions) (node : ModuleNode)

/-! ## Reachable names -/

def SemanticType.asName : SemanticType → Option String
  | .name text => some text
  | _ => none

/-- The names of the union that an alias without parameters stands for. -/
def unionAliasBranches (name : String) : Option (List String) := do
  let (aliasNode, aliasDecl) ← resolveDirectTypeAlias nodes node name
  let typeAlias ← (declarationSemanticFacts aliasDecl).typeAlias
  match aliasDecl.typeParams, rewriteImportedTypingSemanticType aliasNode typeAlias.body with
  | [], .union branches => branches.mapM SemanticType.asName
  | _, _ => none

/-- One alias expansion and the choice of a branch. -/
def LeadsTo (name branch : String) : Prop :=
  ∃ branches, unionAliasBranches nodes node name = some branches ∧ branch ∈ branches

/-- The class itself, or a type that takes every class. -/
def TakesClass (className name : String) : Prop :=
  name = className ∨ name ∈ ["Any", "object", "unknown", "dynamic"]

/-- The class or a top type can be reached from a name. -/
def ReachesClass (className name : String) : Prop :=
  ∃ target, ReflTransGen (LeadsTo nodes node) name target ∧ TakesClass className target

/-- An alias can be reached that leads back to itself. -/
def ReachesCycle (name : String) : Prop :=
  ∃ repeated, ReflTransGen (LeadsTo nodes node) name repeated
    ∧ TransGen (LeadsTo nodes node) repeated repeated

def HasTwo (names : List String) : Prop :=
  ∃ first ∈ names, ∃ second ∈ names, first ≠ second

/-- Names of aliases of unions of two or more of them, and of types that are no interfaces. -/
structure UnionAliases (names : List String) : Prop where
  union_of_alias : ∀ name ∈ names, resolveDirectTypeAlias nodes node name ≠ none →
    ∃ branches, unionAliasBranches nodes node name = some branches
      ∧ HasTwo branches ∧ ∀ branch ∈ branches, branch ∈ names
  no_interface : ∀ name ∈ names, ∀ interfaceNode interfaceDecl,
    resolveDirectBase nodes node name = some (interfaceNode, interfaceDecl) →
      isInterfaceLikeDeclaration nodes interfaceNode interfaceDecl = false

/-- A name that stands for a class, if for anything: for no special type, alias or new type. -/
structure ClassName (className : String) : Prop where
  not_special : className ∉ ["Any", "dynamic", "unknown", "None"]
  not_alias : resolveDirectTypeAlias nodes node className = none
  not_newtype : resolveNewtypeBaseSemanticType nodes node className = none

/-- The name of a class that has no bases, if it is declared in the graph at all. -/
structure PlainClass (className : String) : Prop where
  not_special : className ∉ ["Any", "dynamic", "unknown", "None"]
  not_alias : resolveDirectTypeAlias nodes node className = none
  not_newtype : resolveNewtypeBaseSemanticType nodes node className = none
  no_bases : ∀ classNode classDecl,
    resolveDirectBase nodes node className = some (classNode, classDecl) →
      classDecl.renderedClassBases = []

end UnionAliases

/-! ## Types that are names or unions of names -/

/-- The type an alias of a union of names is expanded to. -/
def unionOfNames (names : List String) : SemanticType :=
  joinSemanticTypeCandidates (names.map .name)

variable {names : List String}

theorem mem_of_mapM_asName {branches : List SemanticType}
    (h : branches.mapM SemanticType.asName = some names) : branches = names.map .name := by
  induction branches generalizing names with
  | nil =>
    simp only [List.mapM_nil, Option.pure_def, Option.some.injEq] at h
    rw [← h, List.map_nil]
  | cons branch rest ih =>
    rw [List.mapM_cons] at h
    simp only [Option.bind_eq_bind, Option.bind_eq_some_iff, Option.pure_def,
      Option.some.injEq] at h
    rcases h with ⟨name, hname, others, hothers, rfl⟩
    rw [List.map_cons, ← ih hothers]
    cases branch with
    | name text =>
      cases hname
      rfl
    | _ => cases hname

theorem flatMap_candidateBranches_names (names : List String) :
    (names.map SemanticType.name).flatMap candidateBranches = names.map .name := by
  induction names with
  | nil => rfl
  | cons name rest ih =>
    rw [List.map_cons, List.flatMap_cons, ih]
    rfl

/-- Two different names make a union of all of them. -/
theorem unionOfNames_eq (hdistinct : HasTwo names) :
    ∃ branches, unionOfNames names = .union branches
      ∧ ∀ ty, ty ∈ branches ↔ ∃ name ∈ names, ty = .name name := by
  have hmem : ∀ ty, ty ∈ (names.map SemanticType.name).foldl addBranch []
      ↔ ∃ name ∈ names, ty = .name name := by
    intro ty
    rw [mem_foldl_addBranch]
    simp only [List.not_mem_nil, false_or, List.mem_map, eq_comm]
  unfold unionOfNames joinSemanticTypeCandidates
  rw [flatMap_candidateBranches_names]
  split
  · rename_i branch hone
    -- a single branch would be both of the names
    rcases hdistinct with ⟨first, hfirst, second, hsecond, hne⟩
    have hfirst' := (hmem (.name first)).2 ⟨first, hfirst, rfl⟩
    have hsecond' := (hmem (.name second)).2 ⟨second, hsecond, rfl⟩
    rw [hone, List.mem_singleton] at hfirst' hsecond'
    exact absurd (SemanticType.name.inj (hfirst'.trans hsecond'.symm)) hne
  · exact ⟨_, rfl, hmem⟩

theorem eraseTaintFromAll_of_names {branches : List SemanticType}
    (h : ∀ ty ∈ branches, ∃ name, ty = SemanticType.name name) :
    eraseTaintFromAll branches = branches := by
  induction branches with
  | nil => rfl
  | cons ty rest ih =>
    rw [List.forall_mem_cons] at h
    rcases h.1 with ⟨name, rfl⟩
    rw [eraseTaintFromAll, ih h.2, eraseTaintQualifiers]

@[simp] theorem normalize_name (options : AssignabilityOptions) (name : String) :
    normalizeTypeForAssignabilityOptions options (.name name) = .name name := by
  unfold normalizeTypeForAssignabilityOptions
  split <;> rfl

theorem normalize_union {branches : List SemanticType} (options : AssignabilityOptions)
    (h : ∀ ty ∈ branches, ∃ name, ty = SemanticType.name name) :
    normalizeTypeForAssignabilityOptions options (.union branches) = .union branches := by
  unfold normalizeTypeForAssignabilityOptions
  split
  · rfl
  · rw [SemanticType.stripAnnotated, eraseTaintQualifiers, eraseTaintFromAll_of_names h]
    · intro value metadata hne
      cases hne

variable {result : Bool}

section Rules

variable {nodes : List ModuleNode} {options : AssignabilityOptions} {node : ModuleNode}
  {className name : String} {branches : List SemanticType}
  {visiting : List (SemanticType × SemanticType)}

theorem PlainClass.isName (h : PlainClass nodes node className) :
    ClassName nodes node className :=
  ⟨h.not_special, h.not_alias, h.not_newtype⟩

/-! ## Expansion -/

theorem expandAliasOnce_of_resolve_none (h : resolveDirectTypeAlias nodes node name = none) :
    Answers (Question.body nodes options) (.expandAliasOnce node (.name name)) none := by
  rw [answers_iff]
  show (expandSemanticTypeAliasOnce nodes node (.name name)).Yields _ none
  simp [expandSemanticTypeAliasOnce, aliasHead, SemanticType.stripAnnotated, h]

theorem resolve_of_unionAliasBranches (h : unionAliasBranches nodes node name = some names) :
    resolveDirectTypeAlias nodes node name ≠ none := by
  intro hnone
  simp [unionAliasBranches, hnone] at h

theorem expandAliasOnce_union :
    Answers (Question.body nodes options) (.expandAliasOnce node (.union branches)) none := by
  rw [answers_iff]
  show (expandSemanticTypeAliasOnce nodes node (.union branches)).Yields _ none
  simp [expandSemanticTypeAliasOnce, aliasHead, SemanticType.stripAnnotated]

theorem substituteAll_names (names : List String) :
    substituteAll { types := insertTypes ∅ [] } (names.map .name) = names.map .name := by
  induction names with
  | nil => rfl
  | cons name rest ih =>
    rw [List.map_cons, substituteAll, ih, substituteSemanticTypeParams]
    simp [insertTypes]

theorem aliasTypeParamSubstitutions_of_no_params {aliasDecl : Declaration}
    (h : aliasDecl.typeParams = []) :
    aliasTypeParamSubstitutionsSemantic aliasDecl [] = some { types := insertTypes ∅ [] } := by
  simp [aliasTypeParamSubstitutionsSemantic, h, List.span, List.span.loop, bindLeading]

/-- The body of an alias of a union of names, after the substitution of no parameters. -/
theorem aliasBodyFor_of_unionAliasBranches (h : unionAliasBranches nodes node name = some names) :
    ∃ aliasNode aliasDecl, resolveDirectTypeAlias nodes node name = some (aliasNode, aliasDecl)
      ∧ aliasBodyFor aliasNode aliasDecl [] = some (unionOfNames names) := by
  simp only [unionAliasBranches, Option.bind_eq_bind, Option.bind_eq_some_iff] at h
  rcases h with ⟨⟨aliasNode, aliasDecl⟩, hresolve, typeAlias, htypeAlias, hbranches⟩
  refine ⟨aliasNode, aliasDecl, hresolve, ?_⟩
  split at hbranches
  · rename_i branches hparams hbody
    have hnames := mem_of_mapM_asName hbranches
    simp only [aliasBodyFor, aliasTypeParamSubstitutions_of_no_params hparams, htypeAlias, Option.bind_eq_bind, Option.bind_some,
      Option.pure_def, hbody, hnames, substituteSemanticTypeParams, substituteAll_names]
    rfl
  · cases hbranches

theorem expandAliasOnce_of_unionAliasBranches
    (h : unionAliasBranches nodes node name = some names) (hdistinct : HasTwo names) :
    Answers (Question.body nodes options) (.expandAliasOnce node (.name name))
      (some (unionOfNames names)) := by
  rcases aliasBodyFor_of_unionAliasBranches h with ⟨aliasNode, aliasDecl, hresolve, hbody⟩
  rcases unionOfNames_eq hdistinct with ⟨branches, hunion, -⟩
  rw [hunion] at hbody ⊢
  -- the union is not expanded further in the module of the alias
  have hprovider : Answers (Question.body nodes options)
      (.expandAliasesInProviderContext aliasNode (.union branches) []) (.union branches) := by
    rw [answers_iff]
    show (expandSemanticTypeAliasesInProviderContext aliasNode (.union branches) []).Yields _ _
    simp only [expandSemanticTypeAliasesInProviderContext, List.not_mem_nil, if_false,
      Search.expandAliasOnce, Prog.yields_bind, Prog.yields_query]
    exact ⟨none, expandAliasOnce_union, rfl⟩
  rw [answers_iff]
  show (expandSemanticTypeAliasOnce nodes node (.name name)).Yields _ _
  simp only [expandSemanticTypeAliasOnce, aliasHead, SemanticType.stripAnnotated, hresolve, hbody,
    Option.bind_eq_bind, Option.bind_some, Option.pure_def, reduceCtorEq, if_false,
    Prog.yields_bind, Prog.yields_query]
  exact ⟨.union branches, hprovider, rfl⟩

/-! ## The rules of the search -/

theorem decidedAtOnce_name (hclass : ClassName nodes node className) :
    decidedAtOnce options (.name name) (.name className)
      = if name = className ∨ name ∈ ["Any", "object", "unknown", "dynamic"] then some true
        else none := by
  have hspecial := hclass.not_special
  simp only [List.mem_cons, List.not_mem_nil, or_false, not_or] at hspecial
  simp only [decidedAtOnce, isUnknownSemanticType, isDynamicSemanticType, isObjectSemanticType,
    isAnySemanticType, isTopReceivingSemanticType, isTopEscapingSemanticType, semanticTypeIsNone,
    SemanticType.stripAnnotated, SemanticType.name.injEq, hspecial, decide_false, Bool.false_and,
    Bool.and_false, Bool.not_false, Bool.true_and, Bool.or_false, Bool.false_eq_true, if_false,
    Bool.or_eq_true, decide_eq_true_eq, List.mem_cons, List.not_mem_nil, or_false]
  by_cases hname : name = className
  · simp only [hname, true_or, if_true]
  · simp only [hname, false_or, if_false]
    congr 1
    apply propext
    tauto

theorem decidedAtOnce_union (hclass : PlainClass nodes node className) :
    decidedAtOnce options (.union branches) (.name className) = none := by
  have hspecial := hclass.not_special
  simp only [List.mem_cons, List.not_mem_nil, or_false, not_or] at hspecial
  simp [decidedAtOnce, isUnknownSemanticType, isDynamicSemanticType, isObjectSemanticType,
    isAnySemanticType, isTopReceivingSemanticType, isTopEscapingSemanticType, semanticTypeIsNone,
    SemanticType.stripAnnotated, hspecial]

/-- A type that is not tainted is searched for a class whatever the option for taint. -/
theorem isAssignable_of_search {expected : SemanticType}
    (hnormal : normalizeTypeForAssignabilityOptions options expected = expected)
    (hdecided : decidedAtOnce options expected (.name className) = none)
    (htaint : semanticTaintedParts expected = none)
    (h : (searchAssignable nodes node expected (.name className) visiting).Yields
      (Answers (Question.body nodes options)) result) : Answers (Question.body nodes options)
      (.isAssignable node expected (.name className) visiting) result := by
  rw [answers_iff]
  show (directSemanticTypeIsAssignable nodes options node expected (.name className)
    visiting).Yields _ result
  simp only [directSemanticTypeIsAssignable, hnormal, normalize_name, hdecided]
  have htainted : taintQualifiedAssignability nodes node expected (.name className)
      = pure none := by
    unfold taintQualifiedAssignability
    rw [htaint]
    rfl
  rw [htainted, ite_self, Prog.yields_bind]
  exact ⟨none, rfl, h⟩

theorem isAssignable_of_takesClass (hclass : ClassName nodes node className)
    (h : TakesClass className name) :
    Answers (Question.body nodes options)
      (.isAssignable node (.name name) (.name className) visiting) true := by
  rw [answers_iff]
  show (directSemanticTypeIsAssignable nodes options node (.name name) (.name className)
    visiting).Yields _ true
  have hdecided : decidedAtOnce options (.name name) (.name className) = some true := by
    rw [decidedAtOnce_name hclass]
    exact if_pos h
  simp only [directSemanticTypeIsAssignable, normalize_name, hdecided]
  rfl

theorem decidedAtOnce_of_not_takesClass (hclass : ClassName nodes node className)
    (h : ¬TakesClass className name) :
    decidedAtOnce options (.name name) (.name className) = none := by
  rw [decidedAtOnce_name hclass]
  exact if_neg h

/-- A pair on the way is assignable. -/
theorem isAssignable_of_visiting (hclass : PlainClass nodes node className)
    (h : ¬TakesClass className name)
    (hvisiting : (.name name, .name className) ∈ visiting) :
    Answers (Question.body nodes options)
      (.isAssignable node (.name name) (.name className) visiting) true := by
  apply isAssignable_of_search (normalize_name options name)
    (decidedAtOnce_of_not_takesClass hclass.isName h) rfl
  rw [searchAssignable, if_pos hvisiting]
  rfl

/-- An alias takes what the union it stands for takes. -/
theorem isAssignable_of_alias (hclass : PlainClass nodes node className)
    (h : ¬TakesClass className name) (hvisiting : (.name name, .name className) ∉ visiting)
    (hbranches : unionAliasBranches nodes node name = some names) (hdistinct : HasTwo names)
    (hunion : Answers (Question.body nodes options)
      (.isAssignable node (unionOfNames names) (.name className)
        ((.name name, .name className) :: visiting)) result) : Answers (Question.body nodes options)
      (.isAssignable node (.name name) (.name className) visiting) result := by
  apply isAssignable_of_search (normalize_name options name)
    (decidedAtOnce_of_not_takesClass hclass.isName h) rfl
  rw [searchAssignable, if_neg hvisiting, Prog.yields_bind]
  refine ⟨some (unionOfNames names), ?_, ?_⟩
  · exact (Prog.yields_query _ _).2 (expandAliasOnce_of_unionAliasBranches hbranches hdistinct)
  · exact (Prog.yields_query _ _).2 hunion

/-- A union of names on the way is assignable. -/
theorem isAssignable_union_of_visiting (hclass : PlainClass nodes node className)
    (hnames : ∀ ty ∈ branches, ∃ name, ty = SemanticType.name name)
    (hvisiting : (.union branches, .name className) ∈ visiting) :
    Answers (Question.body nodes options)
      (.isAssignable node (.union branches) (.name className) visiting) true := by
  apply isAssignable_of_search (normalize_union options hnames)
    (decidedAtOnce_union hclass) rfl
  rw [searchAssignable, if_pos hvisiting]
  rfl

/-- A union of names takes what one of the names takes. -/
theorem isAssignable_union_of_any (hclass : PlainClass nodes node className)
    (hnames : ∀ ty ∈ branches, ∃ name, ty = SemanticType.name name)
    (hvisiting : (.union branches, .name className) ∉ visiting)
    (h : (Prog.any (fun branch => Search.isAssignable node branch (.name className)
      ((.union branches, .name className) :: visiting)) branches).Yields
        (Answers (Question.body nodes options)) result) : Answers (Question.body nodes options)
      (.isAssignable node (.union branches) (.name className) visiting) result := by
  apply isAssignable_of_search (normalize_union options hnames)
    (decidedAtOnce_union hclass) rfl
  rw [searchAssignable, if_neg hvisiting, Prog.yields_bind]
  refine ⟨none, (Prog.yields_query _ _).2 expandAliasOnce_union, ?_⟩
  rw [Prog.yields_bind]
  refine ⟨none, ?_, h⟩
  exact (Prog.yields_query _ _).2 (expandAliasOnce_of_resolve_none hclass.not_alias)

/-! ## Two classes -/

theorem protocolAssignable_eq_false
    (hno_interface : ∀ interfaceNode interfaceDecl,
      resolveDirectBase nodes node name = some (interfaceNode, interfaceDecl) →
        isInterfaceLikeDeclaration nodes interfaceNode interfaceDecl = false) :
    protocolAssignable nodes node name className = pure false := by
  unfold protocolAssignable
  cases hbase : resolveDirectBase nodes node name with
  | none => rfl
  | some base => simp only [hno_interface base.1 base.2 hbase, Bool.false_eq_true, if_false]

theorem nominalSubclassAssignable_eq_false (hclass : PlainClass nodes node className)
    (hne : name ≠ className) :
    nominalSubclassAssignable nodes node name className = pure false := by
  unfold nominalSubclassAssignable
  rw [if_neg hne]
  cases hbase : resolveDirectBase nodes node className with
  | none => rfl
  | some base =>
    simp only [hclass.no_bases base.1 base.2 hbase]
    rfl

theorem typeMatches_classes (hclass : ClassName nodes node className)
    (hname : resolveDirectTypeAlias nodes node name = none) (h : ¬TakesClass className name) :
    Answers (Question.body nodes options)
      (.typeMatches node (.name name) (.name className) []) false := by
  have hspecial := hclass.not_special
  simp only [List.mem_cons, List.not_mem_nil, or_false, not_or] at hspecial
  simp only [TakesClass, List.mem_cons, List.not_mem_nil, or_false, not_or] at h
  rw [answers_iff]
  show (directSemanticTypeMatches options node (.name name) (.name className) []).Yields _ false
  simp only [directSemanticTypeMatches, normalize_name, SemanticType.name.injEq, h,
    isAnySemanticType, hspecial, decide_false, Bool.or_self, Bool.false_eq_true, if_false,
    List.not_mem_nil, Prog.yields_bind]
  refine ⟨none, (Prog.yields_query _ _).2 (expandAliasOnce_of_resolve_none hname), ?_⟩
  rw [Prog.yields_bind]
  refine ⟨none, ?_, rfl⟩
  exact (Prog.yields_query _ _).2 (expandAliasOnce_of_resolve_none hclass.not_alias)

/-- A class that is no interface takes another exactly when the search of its bases says so. -/
theorem isAssignable_of_nominal (hclass : ClassName nodes node className)
    (hname : resolveDirectTypeAlias nodes node name = none)
    (hno_interface : ∀ interfaceNode interfaceDecl,
      resolveDirectBase nodes node name = some (interfaceNode, interfaceDecl) →
        isInterfaceLikeDeclaration nodes interfaceNode interfaceDecl = false)
    (h : ¬TakesClass className name) (hvisiting : (.name name, .name className) ∉ visiting)
    (hnominal : (nominalSubclassAssignable nodes node name className).Yields
      (Answers (Question.body nodes options)) result) : Answers (Question.body nodes options)
      (.isAssignable node (.name name) (.name className) visiting) result := by
  have hknown : isUnknownSemanticType (.name className) = false := by
    have hspecial := hclass.not_special
    simp only [List.mem_cons, List.not_mem_nil, or_false, not_or] at hspecial
    simp [isUnknownSemanticType, hspecial]
  have hnewtype : newtypeBase nodes node (.name className) = none := hclass.not_newtype
  apply isAssignable_of_search (normalize_name options name)
    (decidedAtOnce_of_not_takesClass hclass h) rfl
  rw [searchAssignable, if_neg hvisiting, Prog.yields_bind]
  refine ⟨none, (Prog.yields_query _ _).2 (expandAliasOnce_of_resolve_none hname), ?_⟩
  rw [Prog.yields_bind]
  refine ⟨none, ?_, ?_⟩
  · exact (Prog.yields_query _ _).2 (expandAliasOnce_of_resolve_none hclass.not_alias)
  · show (namedAssignable nodes node (.name name) (.name className) _).Yields _ result
    simp only [namedAssignable, renderSemanticType, protocolAssignable_eq_false hno_interface,
      Prog.yields_bind]
    refine ⟨false, rfl, result, hnominal, ?_⟩
    have henum : semanticEnumMemberOwnerName (.name className) = none := rfl
    cases result with
    | true =>
      simp only [Bool.or_true, if_true]
      rfl
    | false =>
      simp only [henum, reduceCtorEq, decide_false, Bool.or_self, Bool.false_eq_true, if_false,
        Prog.yields_bind]
      refine ⟨none, rfl, ?_⟩
      simp only [hnewtype, hknown, Bool.false_eq_true, if_false]
      exact (Prog.yields_query _ _).2 (typeMatches_classes hclass hname h)

/-- A class that is no interface takes no other class without bases. -/
theorem isAssignable_of_classes (hclass : PlainClass nodes node className)
    (hname : resolveDirectTypeAlias nodes node name = none)
    (hno_interface : ∀ interfaceNode interfaceDecl,
      resolveDirectBase nodes node name = some (interfaceNode, interfaceDecl) →
        isInterfaceLikeDeclaration nodes interfaceNode interfaceDecl = false)
    (h : ¬TakesClass className name)
    (hvisiting : (.name name, .name className) ∉ visiting) :
    Answers (Question.body nodes options)
      (.isAssignable node (.name name) (.name className) visiting) false := by
  apply isAssignable_of_nominal hclass.isName hname hno_interface h hvisiting
  rw [nominalSubclassAssignable_eq_false hclass fun heq => h (.inl heq)]
  rfl

/-! ## Runs -/

/-- What is on the way to a name: aliases that lead to it, and the unions they stand for. -/
def OnTheWay (nodes : List ModuleNode) (node : ModuleNode)
    (visiting : List (SemanticType × SemanticType)) (name : String) : Prop :=
  ∀ pair ∈ visiting, ∃ start, TransGen (LeadsTo nodes node) start name
    ∧ (pair.1 = .name start ∨ ∃ names, unionAliasBranches nodes node start = some names
      ∧ HasTwo names ∧ pair.1 = unionOfNames names)

theorem OnTheWay.branch {names : List String} {branch : String}
    (h : OnTheWay nodes node visiting name)
    (hbranches : unionAliasBranches nodes node name = some names) (hdistinct : HasTwo names)
    (hbranch : branch ∈ names) :
    OnTheWay nodes node ((unionOfNames names, .name className)
      :: (.name name, .name className) :: visiting) branch := by
  have hleads : LeadsTo nodes node name branch := ⟨names, hbranches, hbranch⟩
  intro pair hpair
  rw [List.mem_cons, List.mem_cons] at hpair
  rcases hpair with rfl | rfl | hpair
  · exact ⟨name, .single hleads, .inr ⟨names, hbranches, hdistinct, rfl⟩⟩
  · exact ⟨name, .single hleads, .inl rfl⟩
  · rcases h pair hpair with ⟨start, hstart, hfrom⟩
    exact ⟨start, hstart.tail hleads, hfrom⟩

theorem mem_of_unionOfNames_eq {names' : List String} {branch : String} (hdistinct : HasTwo names)
    (hdistinct' : HasTwo names') (h : unionOfNames names = unionOfNames names')
    (hbranch : branch ∈ names) : branch ∈ names' := by
  rcases unionOfNames_eq hdistinct with ⟨branches, hunion, hmem⟩
  rcases unionOfNames_eq hdistinct' with ⟨branches', hunion', hmem'⟩
  rw [hunion, hunion', SemanticType.union.injEq] at h
  have hin := (hmem (.name branch)).2 ⟨branch, hbranch, rfl⟩
  rw [h, hmem'] at hin
  rcases hin with ⟨other, hother, heq⟩
  rw [SemanticType.name.inj heq]
  exact hother

/-- What an answer says about the names that can be reached. A search that fails has followed
every path to its end, so there is no cycle on them. -/
def Explains (nodes : List ModuleNode) (node : ModuleNode) (className name : String) :
    Bool → Prop
  | true => ReachesClass nodes node className name ∨ ReachesCycle nodes node name
  | false => ¬ReachesClass nodes node className name
      ∧ Acc (fun branch name => LeadsTo nodes node name branch) name

theorem acc_of_reaches {other : String}
    (h : Acc (fun branch name => LeadsTo nodes node name branch) name)
    (hreach : ReflTransGen (LeadsTo nodes node) name other) :
    Acc (fun branch name => LeadsTo nodes node name branch) other := by
  induction hreach with
  | refl => exact h
  | tail _ hleads ih => exact ih.inv hleads

theorem not_transGen_self_of_acc
    (h : Acc (TransGen fun branch name => LeadsTo nodes node name branch) name) :
    ¬TransGen (LeadsTo nodes node) name name := by
  induction h with
  | intro name _ ih =>
    intro hcycle
    exact ih name (transGen_swap.2 hcycle) hcycle

theorem not_reachesCycle_of_acc
    (h : Acc (fun branch name => LeadsTo nodes node name branch) name) :
    ¬ReachesCycle nodes node name := by
  rintro ⟨repeated, hreach, hcycle⟩
  exact not_transGen_self_of_acc (acc_of_reaches h hreach).transGen hcycle

theorem Explains.of_branch {branch : String} (hleads : LeadsTo nodes node name branch)
    (h : Explains nodes node className branch true) :
    Explains nodes node className name true := by
  rcases h with ⟨target, hreach, htakes⟩ | ⟨repeated, hreach, hcycle⟩
  · exact .inl ⟨target, hreach.head hleads, htakes⟩
  · exact .inr ⟨repeated, hreach.head hleads, hcycle⟩

theorem Explains.of_branches (htakes : ¬TakesClass className name)
    (h : ∀ branch, LeadsTo nodes node name branch → Explains nodes node className branch false) :
    Explains nodes node className name false := by
  constructor
  · rintro ⟨target, hreach, htarget⟩
    rcases hreach.cases_head with rfl | ⟨branch, hleads, hreach⟩
    · exact htakes htarget
    · exact (h branch hleads).1 ⟨target, hreach, htarget⟩
  · exact Acc.intro name fun branch hleads => (h branch hleads).2

/-- What the branches of an alias explain explains the alias. -/
theorem explains_of_any (htakes : ¬TakesClass className name)
    (hbranches : unionAliasBranches nodes node name = some names)
    (hmem : ∀ ty, ty ∈ branches ↔ ∃ branch ∈ names, ty = .name branch)
    (h : ∀ branch ∈ names, ∃ result, Answers (Question.body nodes options)
        (.isAssignable node (.name branch) (.name className) visiting) result
      ∧ Explains nodes node className branch result)
    (hany : (Prog.any (fun ty => Search.isAssignable node ty (.name className) visiting)
      branches).Yields (Answers (Question.body nodes options)) result) :
    Explains nodes node className name result := by
  -- a branch has the one answer that explains it
  have hexplained : ∀ branch ∈ names, ∀ result,
      (Search.isAssignable node (.name branch) (.name className) visiting).Yields
        (Answers (Question.body nodes options)) result →
      Explains nodes node className branch result := by
    intro branch hbranch result hresult
    rcases h branch hbranch with ⟨result', hanswer, hexplains⟩
    have hsame := hanswer.unique ((Prog.yields_query _ _).1 hresult)
    subst hsame
    exact hexplains
  cases result with
  | true =>
    rcases Prog.exists_of_yields_any_true hany with ⟨ty, hty, hyields⟩
    rcases (hmem ty).1 hty with ⟨branch, hbranch, rfl⟩
    exact (hexplained branch hbranch true hyields).of_branch ⟨names, hbranches, hbranch⟩
  | false =>
    apply Explains.of_branches htakes
    rintro branch ⟨names', hnames', hbranch⟩
    rw [hbranches, Option.some.injEq] at hnames'
    subst hnames'
    have hty := (hmem (.name branch)).2 ⟨branch, hbranch, rfl⟩
    exact hexplained branch hbranch false (Prog.yields_any_false.1 hany _ hty)

/-- One alias: what is found for the branches is found for the alias. -/
theorem exists_isAssignable_of_branches (hclass : PlainClass nodes node className)
    (htakes : ¬TakesClass className name) (hvisiting : (.name name, .name className) ∉ visiting)
    (hway : OnTheWay nodes node visiting name)
    (hbranches : unionAliasBranches nodes node name = some names) (hdistinct : HasTwo names)
    (h : ∀ branch ∈ names, ∃ result, Answers (Question.body nodes options)
        (.isAssignable node (.name branch) (.name className)
          ((unionOfNames names, .name className) :: (.name name, .name className) :: visiting))
          result
      ∧ Explains nodes node className branch result) :
    ∃ result, Answers (Question.body nodes options)
        (.isAssignable node (.name name) (.name className) visiting) result
      ∧ Explains nodes node className name result := by
  rcases unionOfNames_eq hdistinct with ⟨branches, hunion, hmem⟩
  have hnames : ∀ ty ∈ branches, ∃ name, ty = SemanticType.name name := by
    intro ty hty
    rcases (hmem ty).1 hty with ⟨branch, -, hbranch⟩
    exact ⟨branch, hbranch⟩
  by_cases hrevisited : (unionOfNames names, SemanticType.name className)
      ∈ (.name name, .name className) :: visiting
  · refine ⟨true, ?_, .inr ?_⟩
    · apply isAssignable_of_alias hclass htakes hvisiting hbranches hdistinct
      rw [hunion] at hrevisited ⊢
      exact isAssignable_union_of_visiting hclass hnames hrevisited
    · -- an alias that leads here stands for the same union, so this one leads back to itself
      rw [List.mem_cons, hunion] at hrevisited
      rcases hrevisited with hsame | hrevisited
      · cases hsame
      · rcases hway _ hrevisited with ⟨start, hstart, hname | ⟨others, hothers, hdistinct', hsame⟩⟩
        · cases hname
        · rcases TransGen.head'_iff.1 hstart with ⟨branch, ⟨names', hnames', hin⟩, hback⟩
          rw [hothers, Option.some.injEq] at hnames'
          subst hnames'
          have hbranch := mem_of_unionOfNames_eq hdistinct' hdistinct
            (hsame.symm.trans hunion.symm) hin
          have hleads : LeadsTo nodes node name branch := ⟨names, hbranches, hbranch⟩
          exact ⟨branch, .single hleads, TransGen.tail' hback hleads⟩
  · have hends : ∀ ty ∈ branches, ∃ result,
        (Search.isAssignable node ty (.name className)
          ((.union branches, .name className) :: (.name name, .name className)
            :: visiting)).Yields (Answers (Question.body nodes options)) result := by
      intro ty hty
      rcases (hmem ty).1 hty with ⟨branch, hbranch, rfl⟩
      rcases h branch hbranch with ⟨result, hresult, -⟩
      rw [hunion] at hresult
      exact ⟨result, (Prog.yields_query _ _).2 hresult⟩
    rcases Prog.exists_yields_any hends with ⟨result, hany⟩
    refine ⟨result, ?_, ?_⟩
    · apply isAssignable_of_alias hclass htakes hvisiting hbranches hdistinct
      rw [hunion] at hrevisited ⊢
      exact isAssignable_union_of_any hclass hnames hrevisited hany
    · rw [hunion] at h
      exact explains_of_any htakes hbranches hmem h hany

/-- The search from a name ends, and its answer is explained; by induction on the names that are
not on the way. -/
theorem exists_isAssignable (haliases : UnionAliases nodes node names)
    (hclass : PlainClass nodes node className) (unvisited : Finset String) (hname : name ∈ names)
    (hunvisited : ∀ other ∈ names, other ∉ unvisited → (.name other, .name className) ∈ visiting)
    (hway : OnTheWay nodes node visiting name) : ∃ result, Answers (Question.body nodes options)
        (.isAssignable node (.name name) (.name className) visiting) result
      ∧ Explains nodes node className name result := by
  induction unvisited using Finset.strongInduction generalizing name visiting with
  | H unvisited ih =>
    by_cases htakes : TakesClass className name
    · exact ⟨true, isAssignable_of_takesClass hclass.isName htakes, .inl ⟨name, .refl, htakes⟩⟩
    by_cases hvisiting : (.name name, .name className) ∈ visiting
    · refine ⟨true, isAssignable_of_visiting hclass htakes hvisiting, .inr ?_⟩
      rcases hway _ hvisiting with ⟨start, hstart, hsame | ⟨others, -, hdistinct, hsame⟩⟩
      · cases hsame
        exact ⟨name, .refl, hstart⟩
      · rcases unionOfNames_eq hdistinct with ⟨branches, hunion, -⟩
        rw [hunion] at hsame
        cases hsame
    by_cases halias : resolveDirectTypeAlias nodes node name = none
    · refine ⟨false, ?_, ?_⟩
      · exact isAssignable_of_classes hclass halias (haliases.no_interface name hname) htakes
          hvisiting
      · apply Explains.of_branches htakes
        rintro branch ⟨branches, hbranches, -⟩
        exact absurd halias (resolve_of_unionAliasBranches hbranches)
    · rcases haliases.union_of_alias name hname halias with
        ⟨branches, hbranches, hdistinct, hclosed⟩
      have hunvisited_name : name ∈ unvisited := by
        by_contra hvisited
        exact hvisiting (hunvisited name hname hvisited)
      apply exists_isAssignable_of_branches hclass htakes hvisiting hway hbranches hdistinct
      intro branch hbranch
      apply ih (unvisited.erase name) (Finset.erase_ssubset hunvisited_name)
      · exact hclosed branch hbranch
      · intro other hother hnot
        rw [List.mem_cons, List.mem_cons]
        by_cases hsame : other = name
        · exact .inr (.inl (by rw [hsame]))
        · refine .inr (.inr (hunvisited other hother ?_))
          intro hin
          exact hnot (Finset.mem_erase.2 ⟨hsame, hin⟩)
      · exact hway.branch hbranches hdistinct hbranch

/-- An alias of a union takes a class exactly if the class or a top type can be reached, or a
cycle can. -/
theorem isAssignable_iff (haliases : UnionAliases nodes node names)
    (hclass : PlainClass nodes node className) (hname : name ∈ names) :
    IsAssignable nodes options node (.name name) (.name className) true
      ↔ ReachesClass nodes node className name ∨ ReachesCycle nodes node name := by
  have hunvisited : ∀ other ∈ names, other ∉ names.toFinset →
      ((.name other, .name className) : SemanticType × SemanticType) ∈ [] := by
    intro other hother hnot
    exact absurd (List.mem_toFinset.2 hother) hnot
  have hway : OnTheWay nodes node [] name := by
    intro pair hpair
    cases hpair
  have hexists : ∃ result, IsAssignable nodes options node (.name name) (.name className) result
      ∧ Explains nodes node className name result :=
    exists_isAssignable haliases hclass names.toFinset hname hunvisited hway
  rcases hexists with ⟨result, hanswer, hexplains⟩
  constructor
  · intro htrue
    have hresult := hanswer.unique htrue
    subst hresult
    exact hexplains
  · intro hreach
    cases result with
    | true => exact hanswer
    | false =>
      rcases hreach with hreach | hreach
      · exact absurd hreach hexplains.1
      · exact absurd hreach (not_reachesCycle_of_acc hexplains.2)

/-- Aliases of unions take the classes they can reach, and no other, unless a cycle can be
reached: those take every class. -/
theorem unionAlias_accepts_iff {names : List String} (haliases : UnionAliases nodes node names)
    (hname : name ∈ names) (hclass : PlainClass nodes node className) :
    (IsAssignable nodes options node (.name name) (.name className) true
        ↔ ReachesClass nodes node className name)
      ↔ ReachesClass nodes node className name ∨ ¬ReachesCycle nodes node name := by
  rw [isAssignable_iff haliases hclass hname]
  tauto

/-- Aliases of unions lead to no other names. -/
theorem UnionAliases.mem_of_reaches {other : String} (haliases : UnionAliases nodes node names)
    (hname : name ∈ names) (hreach : ReflTransGen (LeadsTo nodes node) name other) :
    other ∈ names := by
  induction hreach with
  | refl => exact hname
  | tail _ hleads ih =>
    rcases hleads with ⟨branches, hbranches, hin⟩
    rcases haliases.union_of_alias _ ih (resolve_of_unionAliasBranches hbranches) with ⟨branches', hbranches', -, hclosed⟩
    rw [hbranches, Option.some.injEq] at hbranches'
    subst hbranches'
    exact hclosed _ hin

end Rules

/-! ## A cycle -/

def typeAliasDeclaration (name body : String) : Declaration where
  name := name
  kind := .typeAlias
  metadata := .typeAlias (.new body) none

/-- A module with `A = int | B` and `B = str | A`. -/
def cyclicModule : ModuleNode where
  moduleKey := "app"
  declarations := [typeAliasDeclaration "A" "int | B", typeAliasDeclaration "B" "str | A"]

theorem cyclicModule_unionAliases :
    UnionAliases [cyclicModule] cyclicModule ["A", "B", "int", "str"] where
  union_of_alias := by
    intro name hname halias
    simp only [List.mem_cons, List.not_mem_nil, or_false] at hname
    rcases hname with rfl | rfl | rfl | rfl
    · refine ⟨["int", "B"], by decide +kernel, ⟨"int", ?_⟩, ?_⟩
      · decide
      · decide
    · refine ⟨["str", "A"], by decide +kernel, ⟨"str", ?_⟩, ?_⟩
      · decide
      · decide
    · exact absurd (by decide +kernel) halias
    · exact absurd (by decide +kernel) halias
  no_interface := by
    intro name hname interfaceNode interfaceDecl hbase
    have hnone : ∀ name ∈ ["A", "B", "int", "str"],
        (resolveDirectBase [cyclicModule] cyclicModule name).isNone = true := by
      decide +kernel
    have hname := hnone name hname
    rw [hbase] at hname
    cases hname

theorem cyclicModule_plainClass : PlainClass [cyclicModule] cyclicModule "bytes" where
  not_special := by decide
  not_alias := by decide +kernel
  not_newtype := by decide +kernel
  no_bases := by
    intro classNode classDecl hbase
    have hnone : (resolveDirectBase [cyclicModule] cyclicModule "bytes").isNone = true := by
      decide +kernel
    rw [hbase] at hnone
    cases hnone

/-- `A` takes `bytes`, which is none of the names it stands for. -/
theorem cyclicModule_takes_bytes :
    UnionAliases [cyclicModule] cyclicModule ["A", "B", "int", "str"]
      ∧ PlainClass [cyclicModule] cyclicModule "bytes"
      ∧ IsAssignable [cyclicModule] {} cyclicModule (.name "A") (.name "bytes") true
      ∧ ¬ReachesClass [cyclicModule] cyclicModule "bytes" "A" := by
  refine ⟨cyclicModule_unionAliases, cyclicModule_plainClass, ?_, ?_⟩
  · exact ⟨12, by decide +kernel⟩
  · rintro ⟨target, hreach, htakes⟩
    have htarget := cyclicModule_unionAliases.mem_of_reaches List.mem_cons_self hreach
    have hnone : ∀ name ∈ ["A", "B", "int", "str"],
        ¬(name = "bytes" ∨ name ∈ ["Any", "object", "unknown", "dynamic"]) := by
      decide
    exact hnone target htarget htakes

theorem cyclicModule_accepts :
    (IsAssignable [cyclicModule] {} cyclicModule (.name "A") (.name "bytes") true
        ↔ ReachesClass [cyclicModule] cyclicModule "bytes" "A")
      ↔ ReachesClass [cyclicModule] cyclicModule "bytes" "A"
        ∨ ¬ReachesCycle [cyclicModule] cyclicModule "A" :=
  unionAlias_accepts_iff cyclicModule_unionAliases List.mem_cons_self cyclicModule_plainClass

end TypePython.Checking
