import Mathlib.Data.Set.Finite.Lattice
import TypePython.Checking.MemberLookup

/-!
# Walks of base classes come back

Every lookup that remembers the classes it has visited comes back, whatever the bases are
(`walk_returns`). The searches for enumeration bases do not remember them: they come back exactly
when no class on their way comes back to itself (`hierarchyQueries_return_iff`). A class with the
name of the class it imports and extends resolves its base to itself, and the search for it never
comes back (`importedNamesake_not_returned`).
-/

namespace TypePython.Checking

open Std
open Relation
open TypePython.Lib
open TypePython.Binding

variable {cls start : ClassRef}

section

variable {nodes : List ModuleNode}

/-! ## The classes a walk comes to -/

/-- The class a walk starts at, and the declarations of its module and of the graph. -/
def InReach (nodes : List ModuleNode) (start cls : ClassRef) : Prop :=
  cls = start ∨ cls.1 ∈ start.1 :: nodes ∧ cls.2 ∈ cls.1.declarations

theorem InReach.base {base : ClassRef} (h : InReach nodes start cls) {text : String}
    (hbase : resolveDirectBase nodes cls.1 text = some base) : InReach nodes start base := by
  have ⟨hnode, hclass⟩ := resolveDirectBase_spec hbase
  refine .inr ⟨?_, hclass.declared⟩
  rcases List.mem_cons.1 hnode with hsame | hmem
  · rw [hsame]
    rcases h with rfl | ⟨hmem, -⟩
    · exact List.mem_cons_self
    · exact hmem
  · exact List.mem_cons_of_mem _ hmem

def classesInReach (nodes : List ModuleNode) (start : ClassRef) : List ClassRef :=
  start :: (start.1 :: nodes).flatMap fun node => node.declarations.map fun decl => (node, decl)

theorem mem_classesInReach (h : InReach nodes start cls) : cls ∈ classesInReach nodes start := by
  rcases h with rfl | ⟨hnode, hdecl⟩
  · exact List.mem_cons_self
  · apply List.mem_cons_of_mem
    exact List.mem_flatMap.2 ⟨cls.1, hnode, List.mem_map.2 ⟨cls.2, hdecl, rfl⟩⟩

/-- The declarations of a module and of the graph, with their modules. -/
def declarationsInReach (nodes : List ModuleNode) (node : ModuleNode) : List ClassRef :=
  (node :: nodes).flatMap fun node => node.declarations.map fun decl => (node, decl)

theorem mem_declarationsInReach (h : InReach nodes start cls)
    (hdeclared : start.2 ∈ start.1.declarations) : cls ∈ declarationsInReach nodes start.1 := by
  rcases h with rfl | ⟨hnode, hdecl⟩
  · exact List.mem_flatMap.2 ⟨_, List.mem_cons_self, List.mem_map_of_mem hdeclared⟩
  · exact List.mem_flatMap.2 ⟨_, hnode, List.mem_map_of_mem hdecl⟩

/-- The fuel of the walks is more than there are declarations. -/
theorem length_declarationsInReach (nodes : List ModuleNode) (node : ModuleNode) :
    (declarationsInReach nodes node).length < classFuel nodes node := by
  have hlength : ∀ nodes : List ModuleNode,
      (nodes.flatMap fun node => node.declarations.map fun decl => (node, decl)).length
        = (nodes.flatMap ModuleNode.declarations).length := by
    intro nodes
    induction nodes with
    | nil => rfl
    | cons first rest ih =>
      rw [List.flatMap_cons, List.flatMap_cons, List.length_append, List.length_append,
        List.length_map, ih]
  rw [declarationsInReach, hlength, classFuel]
  exact Nat.lt_succ_self _

/-! ## Walks that remember -/

def WalkReturns {N R S : Type} (search : RememberingSearch N ClassKey R S) (place : N)
    (gathered : S) : Prop :=
  ∃ fuel, (search.run fuel place ([], gathered)).isSome = true

/-- A walk that goes from classes to their resolved bases enters every class at most once. -/
theorem walk_returns (nodes : List ModuleNode) {N R S : Type}
    {search : RememberingSearch N ClassKey R S} (classOf : N → ClassRef) (hkey : ∀ place, search.key place = (classOf place).key)
    (hnext : ∀ place place', .inr place' ∈ search.next place →
      ∃ text, resolveDirectBase nodes (classOf place).1 text = some (classOf place'))
    (place : N) (gathered : S) : WalkReturns search place gathered := by
  let keys := (classesInReach nodes (classOf place)).map ClassRef.key
  have hkeys : ∀ place', InReach nodes (classOf place) (classOf place') →
      search.key place' ∈ keys := by
    intro place' hreached
    rw [hkey]
    exact List.mem_map_of_mem (mem_classesInReach hreached)
  have hstep : ∀ place' place'', InReach nodes (classOf place) (classOf place') →
      .inr place'' ∈ search.next place' → InReach nodes (classOf place) (classOf place'') := by
    intro place' place'' hreached hmem
    have ⟨text, hbase⟩ := hnext place' place'' hmem
    exact hreached.base hbase
  let start : RememberingSearch.Memory ClassKey S := ([], gathered)
  have hbound : RememberingSearch.unvisited keys start.1 < keys.length + 1 :=
    Nat.lt_succ_of_le RememberingSearch.unvisited_le
  obtain ⟨result, memory, hrun, -⟩ := search.run_returns hkeys hstep
    (.inl rfl) hbound
  refine ⟨keys.length + 1, ?_⟩
  rw [hrun]
  rfl

theorem mem_baseClasses {base : ClassRef} (h : base ∈ baseClasses nodes cls.1 cls.2) :
    ∃ text, resolveDirectBase nodes cls.1 text = some base := by
  obtain ⟨text, -, hbase⟩ := List.mem_filterMap.1 h
  exact ⟨text, hbase⟩

theorem mem_basesOf {R : Type} {base : ClassRef}
    (h : (.inr base : R ⊕ ClassRef) ∈ basesOf nodes cls) :
    ∃ text, resolveDirectBase nodes cls.1 text = some base := by
  have ⟨base', hmem, heq⟩ := List.mem_map.1 h
  rw [← Sum.inr.inj heq]
  exact mem_baseClasses hmem

theorem OwnedClass.mem_bases {R : Type} {place place' : OwnedClass}
    (h : (.inr place' : Except LookupPanic R ⊕ OwnedClass) ∈ place.bases nodes) :
    ∃ text, resolveDirectBase nodes place.cls.1 text = some place'.cls := by
  obtain ⟨renderedBase, -, hitem⟩ := List.mem_filterMap.1 h
  unfold OwnedClass.baseItem at hitem
  cases hbase : place.base nodes renderedBase with
  | error panicked =>
    rw [hbase] at hitem
    cases hitem
  | ok owned =>
    rw [hbase] at hitem
    obtain ⟨owned', howned, heq⟩ := Option.map_eq_some_iff.1 hitem
    rw [Sum.inr.inj heq] at howned
    -- the type of the base names the class it resolves to
    unfold OwnedClass.base at hbase
    cases htype : specializedClassBaseType place.cls.2 place.declaringType renderedBase with
    | error panicked =>
      rw [htype] at hbase
      cases hbase
    | ok baseType =>
      rw [htype] at hbase
      have hresolved := Except.ok.inj hbase
      rw [howned] at hresolved
      obtain ⟨cls, hcls, heq'⟩ := Option.map_eq_some_iff.1 hresolved
      obtain ⟨text, -, hdirect⟩ := Option.bind_eq_some_iff.1 hcls
      refine ⟨text, ?_⟩
      rw [hdirect, ← heq']

theorem AssignedClass.mem_bases {R : Type} {place place' : AssignedClass}
    (h : (.inr place' : R ⊕ AssignedClass) ∈ place.bases nodes) :
    ∃ text, resolveDirectBase nodes place.cls.1 text = some place'.cls := by
  have ⟨cls, hmem, heq⟩ := List.mem_map.1 h
  rw [← Sum.inr.inj heq]
  exact mem_baseClasses hmem

theorem ownedSearch_returns {R : Type} (own : OwnedClass → Option R) (place : OwnedClass) :
    WalkReturns (ownedSearch nodes own) place () :=
  walk_returns nodes OwnedClass.cls (fun _ => rfl)
    (fun _ _ h => OwnedClass.mem_bases h) place ()

/-- The classes a walk keeps of the bases of a class are among them. -/
theorem mem_filtered_bases {R : Type} {base : ClassRef} {keep : ClassRef → Bool}
    (h : (.inr base : R ⊕ ClassRef) ∈ ((baseClasses nodes cls.1 cls.2).filter keep).map .inr) :
    ∃ text, resolveDirectBase nodes cls.1 text = some base := by
  have ⟨base', hmem, heq⟩ := List.mem_map.1 h
  rw [← Sum.inr.inj heq]
  exact mem_baseClasses (List.mem_filter.1 hmem).1

/-! ## Searches that do not remember -/

variable (nodes) in
/-- No class that the search for base names comes to on its way comes back to itself. The way goes
to a base when no base listed before it has one of the names or leads to a class that lists one. -/
def NeverComesBack (names : List String) (cls : ClassRef) : Prop :=
  ∀ cls', ReflTransGen (baseNameSearch nodes names).GoesInto cls cls' →
    ¬ TransGen (baseNameSearch nodes names).GoesInto cls' cls'

theorem mem_baseNameSearch {names : List String} {base : ClassRef}
    (h : .inr base ∈ (baseNameSearch nodes names).next cls) :
    ∃ text, resolveDirectBase nodes cls.1 text = some base := by
  obtain ⟨text, -, hitem⟩ := List.mem_filterMap.1 h
  split at hitem
  · cases hitem
  · have ⟨base', hbase, heq⟩ := Option.map_eq_some_iff.1 hitem
    refine ⟨text, ?_⟩
    rw [hbase, Sum.inr.inj heq]

theorem classesInReach_of_goesInto {names : List String}
    (h : ReflTransGen (baseNameSearch nodes names).GoesInto start cls) :
    InReach nodes start cls := by
  induction h with
  | refl => exact .inl rfl
  | tail _ hlast ih =>
    have ⟨text, hbase⟩ := mem_baseNameSearch (SearchSpace.lists_of_goesInto hlast)
    exact ih.base hbase

theorem baseNameSearch_returns_iff (names : List String) (cls : ClassRef) :
    (∃ fuel, ((baseNameSearch nodes names).run fuel cls).isSome = true)
      ↔ NeverComesBack nodes names cls := by
  rw [SearchSpace.returns_iff]
  apply acc_iff_no_cycle_reached
  apply (classesInReach nodes cls).finite_toSet.subset
  intro cls' hreached
  exact mem_classesInReach (classesInReach_of_goesInto hreached)

/-! ## All queries -/

variable (nodes) in
/-- The queries about a class that walk its bases come back. -/
structure HierarchyQueriesReturn (cls : ClassRef) : Prop where
  isEnumLike : ∃ fuel, (isEnumLikeClass nodes fuel cls.1 cls.2).isSome = true
  isFlagEnumLike : ∃ fuel, (isFlagEnumLikeClass nodes fuel cls.1 cls.2).isSome = true
  resolvedMember : ∀ ownerType memberName predicate,
    WalkReturns (findResolvedMemberDeclaration nodes memberName predicate) ⟨cls, ownerType⟩ ()
  resolvedCallables : ∀ ownerType memberName,
    WalkReturns (findResolvedCallableDeclarations nodes memberName) ⟨cls, ownerType⟩ ()
  writableMember : ∀ ownerType memberName,
    WalkReturns (findOwnedWritableMemberTarget nodes memberName) ⟨cls, ownerType⟩ ()
  apparentMember : ∀ memberName predicate,
    WalkReturns (findApparentMemberDeclarationWithVisited nodes memberName predicate) cls ()
  assignedMember : ∀ sites memberName beforeLine,
    WalkReturns (hasOwnedInstanceAssignmentMember nodes sites memberName) ⟨cls, beforeLine⟩ ()
  assignedMemberType : ∀ sites memberName resolveValue beforeLine,
    WalkReturns (ownedInstanceAssignmentMemberSemanticType nodes sites memberName resolveValue)
      ⟨cls, beforeLine⟩ ()
  surfaceIsOpen : WalkReturns (classSurfaceIsOpen nodes) cls ()
  interfaceLike : WalkReturns (isInterfaceLikeWithVisited nodes) cls ()
  interfaceMembers : ∀ requirements,
    WalkReturns (collectInterfaceMembersWithVisited nodes) cls requirements
  sealedRoot : WalkReturns (resolveSealedRootWithVisited nodes) cls ()
  sealedDescends : ∀ rootName, WalkReturns (sealedDescendsFromWithVisited nodes rootName) cls ()

theorem sealedDescends_returns (rootName : String) (cls : ClassRef) :
    WalkReturns (sealedDescendsFromWithVisited nodes rootName) cls () := by
  refine walk_returns nodes id (fun _ => rfl) ?_ cls ()
  intro cls base h
  obtain ⟨text, -, hitem⟩ := List.mem_filterMap.1 h
  split at hitem
  · cases hitem
  · have ⟨base', hbase, heq⟩ := Option.map_eq_some_iff.1 hitem
    refine ⟨text, ?_⟩
    rw [id, id, hbase, Sum.inr.inj heq]

theorem surfaceIsOpen_returns (cls : ClassRef) :
    WalkReturns (classSurfaceIsOpen nodes) cls () := by
  refine walk_returns nodes id (fun _ => rfl) ?_ cls ()
  intro cls base h
  obtain ⟨text, -, hitem⟩ := List.mem_filterMap.1 h
  refine ⟨baseHead text, ?_⟩
  split at hitem
  · cases hitem
  · have heq := Option.some.inj hitem
    cases hbase : resolveDirectBase nodes cls.1 (baseHead text) with
    | none =>
      rw [hbase] at heq
      cases heq
    | some base' =>
      rw [hbase] at heq
      rw [id, id, hbase, Sum.inr.inj heq]

theorem assignedMemberType_returns (sites : ModuleNode → List FrozenFieldMutationSite)
    (memberName : String)
    (resolveValue : ClassRef → Nat → DirectExprMetadata → Option SemanticType)
    (place : AssignedClass) :
    WalkReturns (ownedInstanceAssignmentMemberSemanticType nodes sites memberName resolveValue)
      place () := by
  refine walk_returns nodes AssignedClass.cls (fun _ => rfl) ?_ place ()
  intro place place' h
  -- where the class itself assigns the member, no base is asked
  have h : .inr place' ∈ if (sites place.cls.1).any (place.initializes memberName) then []
      else place.bases nodes := h
  split at h
  · cases h
  · exact AssignedClass.mem_bases h

theorem isSome_map_iff {α β : Type} {run : Nat → Option α} {f : α → β} :
    (∃ fuel, ((run fuel).map f).isSome = true) ↔ ∃ fuel, (run fuel).isSome = true := by
  simp only [Option.isSome_map]

/-- All queries come back exactly when the two searches for enumeration bases never come back to
a class they have come through. -/
theorem hierarchyQueries_return_iff (cls : ClassRef) :
    HierarchyQueriesReturn nodes cls
      ↔ NeverComesBack nodes enumBaseNames cls ∧ NeverComesBack nodes flagEnumBaseNames cls := by
  constructor
  · intro h
    exact ⟨(baseNameSearch_returns_iff enumBaseNames cls).1 (isSome_map_iff.1 h.isEnumLike),
      (baseNameSearch_returns_iff flagEnumBaseNames cls).1 (isSome_map_iff.1 h.isFlagEnumLike)⟩
  · rintro ⟨henum, hflag⟩
    exact {
      isEnumLike := isSome_map_iff.2 ((baseNameSearch_returns_iff enumBaseNames cls).2 henum)
      isFlagEnumLike :=
        isSome_map_iff.2 ((baseNameSearch_returns_iff flagEnumBaseNames cls).2 hflag)
      resolvedMember := fun ownerType _ _ => ownedSearch_returns _ ⟨cls, ownerType⟩
      resolvedCallables := fun ownerType _ => ownedSearch_returns _ ⟨cls, ownerType⟩
      writableMember := fun ownerType _ => ownedSearch_returns _ ⟨cls, ownerType⟩
      apparentMember := fun _ _ =>
        walk_returns nodes id (fun _ => rfl) (fun _ _ => mem_filtered_bases) cls ()
      assignedMember := fun _ _ beforeLine =>
        walk_returns nodes AssignedClass.cls (fun _ => rfl)
          (fun _ _ => AssignedClass.mem_bases) ⟨cls, beforeLine⟩ ()
      assignedMemberType := fun sites memberName resolveValue beforeLine =>
        assignedMemberType_returns sites memberName resolveValue ⟨cls, beforeLine⟩
      surfaceIsOpen := surfaceIsOpen_returns cls
      interfaceLike :=
        walk_returns nodes id (fun _ => rfl) (fun _ _ => mem_basesOf) cls ()
      interfaceMembers := fun requirements =>
        walk_returns nodes id (fun _ => rfl) (fun _ _ => mem_filtered_bases) cls
          requirements
      sealedRoot :=
        walk_returns nodes id (fun _ => rfl) (fun _ _ => mem_basesOf) cls ()
      sealedDescends := fun rootName => sealedDescends_returns rootName cls }

end

/-! ## A class with the name of its base -/

/-- `class Color(Enum)` -/
def colorsModule : ModuleNode where
  moduleKey := "colors"
  declarations := [
    { name := "Color", kind := .classDecl, metadata := .classDecl [{ expr := .name "Enum" }]
      classKind := some .classDecl }]

/-- `class Color(Color)` -/
def namesakeClass : Declaration where
  name := "Color"
  kind := .classDecl
  metadata := .classDecl [{ expr := .name "Color" }]
  classKind := some .classDecl

/-- `from colors import Color`, then `class Color(Color)` -/
def namesakeModule : ModuleNode where
  moduleKey := "app"
  declarations := [
    { name := "Color", kind := .importDecl, metadata := .importDecl (.new "colors.Color") },
    namesakeClass]

theorem namesake_next : (baseNameSearch [colorsModule, namesakeModule] enumBaseNames).next
    (namesakeModule, namesakeClass) = [.inr (namesakeModule, namesakeClass)] := by
  rfl

theorem importedNamesake_not_returned :
    ¬ HierarchyQueriesReturn [colorsModule, namesakeModule] (namesakeModule, namesakeClass) := by
  intro h
  have ⟨fuel, hfuel⟩ := h.isEnumLike
  -- however far the search goes, it asks about the class itself next
  have hnone : ∀ fuel, (baseNameSearch [colorsModule, namesakeModule] enumBaseNames).run fuel
      (namesakeModule, namesakeClass) = none := by
    intro fuel
    induction fuel with
    | zero => rfl
    | succ fuel ih =>
      have hlook : (baseNameSearch [colorsModule, namesakeModule] enumBaseNames).look
          (namesakeModule, namesakeClass) = none := rfl
      rw [SearchSpace.run, hlook, namesake_next]
      show SearchSpace.firstOf _ _ = none
      rw [SearchSpace.firstOf, ih]
  rw [isEnumLikeClass, hnone fuel] at hfuel
  cases hfuel

end TypePython.Checking
