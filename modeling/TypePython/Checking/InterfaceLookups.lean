import TypePython.Checking.AbstractClasses
import TypePython.Checking.MemberOrder
import TypePython.Lib.FirstWins

/-!
# The lookups behind interfaces

What an interface asks for and what a class has are looked up by walks that enter no class twice.
In hierarchies without a cycle they find what searches find that remember nothing: under each name
the first member on the way up (`mem_collectInterfaceMembers`, `findApparentMember_iff`).
-/

namespace TypePython.Checking

open Std
open Relation
open TypePython.Lib
open TypePython.Binding

section

variable (nodes : List ModuleNode)

/-- The bases that an interface takes requirements from. -/
def interfaceBases (cls : ClassRef) : List ClassRef :=
  (baseClasses nodes cls.1 cls.2).filter fun base => isInterfaceLikeDeclaration nodes base.1 base.2

/-- The bases that members of a class are looked up in. -/
def memberBases (cls : ClassRef) : List ClassRef :=
  (baseClasses nodes cls.1 cls.2).filter fun base =>
    !isInterfaceLikeDeclaration nodes base.1 base.2

end

/-- The first member of a name in the body of a class that passes a test. -/
def ownMember (keep : Declaration → Bool) (name : String) (cls : ClassRef) : Option Declaration :=
  cls.1.declarations.find? fun candidate =>
    isOwnedBy cls.2.name candidate && candidate.name = name && keep candidate

/-- A search of a class and, behind it, of its bases. -/
def upwards (bases : ClassRef → List ClassRef) (own : ClassRef → Option Declaration) :
    SearchSpace ClassRef Declaration where
  look := own
  next := fun cls => (bases cls).map .inr

def isRequirement (member : Declaration) : Bool := member.kind = .value || member.kind = .function

section

variable (nodes : List ModuleNode)

def requirementSpace (name : String) : SearchSpace ClassRef Declaration :=
  upwards (interfaceBases nodes) (ownMember isRequirement name)

def memberSpace (kind : DeclarationKind) (name : String) : SearchSpace ClassRef Declaration :=
  upwards (memberBases nodes) (ownMember (fun member => member.kind = kind) name)

/-- No way up the bases of a class goes on for ever. -/
def Acyclic (cls : ClassRef) : Prop := Acc (flip (WrittenBase nodes)) cls

end

/-! ## Searches up the bases -/

variable {member : Declaration} {base : ClassRef}

section

variable {nodes : List ModuleNode} {bases : ClassRef → List ClassRef}
  {own : ClassRef → Option Declaration}

theorem writtenBase_of_mem {cls : ClassRef} (h : base ∈ baseClasses nodes cls.1 cls.2) :
    WrittenBase nodes cls base := by
  obtain ⟨text, htext, hbase⟩ := List.mem_filterMap.1 h
  exact ⟨text, htext, hbase⟩

/-- The bases that are searched are found under their whole texts. -/
def AreWritten (nodes : List ModuleNode) (bases : ClassRef → List ClassRef) : Prop :=
  ∀ cls, ∀ base ∈ bases cls, WrittenBase nodes cls base

theorem areWritten_interfaceBases : AreWritten nodes (interfaceBases nodes) :=
  fun _ _ hbase => writtenBase_of_mem (List.mem_filter.1 hbase).1

theorem areWritten_memberBases : AreWritten nodes (memberBases nodes) :=
  fun _ _ hbase => writtenBase_of_mem (List.mem_filter.1 hbase).1

theorem AreWritten.lists (hbases : AreWritten nodes bases) {cls : ClassRef}
    (h : (upwards bases own).Lists cls base) : WrittenBase nodes cls base := by
  obtain ⟨base', hmem, heq⟩ := List.mem_map.1 h
  rw [← Sum.inr.inj heq]
  exact hbases cls base' hmem

theorem AreWritten.reached (hbases : AreWritten nodes bases) {cls : ClassRef}
    (h : ReflTransGen (upwards bases own).Lists cls base) :
    ReflTransGen (WrittenBase nodes) cls base :=
  h.lift id fun _ _ => hbases.lists

theorem Known.written {cls : ClassRef} (h : Known nodes cls)
    (hbase : ReflTransGen (WrittenBase nodes) cls base) : Known nodes base := by
  induction hbase with
  | refl => exact h
  | tail _ hlast ih =>
    obtain ⟨text, -, hresolved⟩ := hlast
    exact ih.base hresolved

/-- Where no way goes on for ever, the search may forget where it has been. -/
theorem keyedBelow_upwards (hbases : AreWritten nodes bases) {cls : ClassRef}
    (hknown : Known nodes cls) (hacyclic : Acyclic nodes cls) :
    (upwards bases own).KeyedBelow ClassRef.key cls where
  alike := by
    intro place place' hplace hplace' hkey
    have hsame : place = place' :=
      (hknown.written (hbases.reached hplace)).eq_of_key (hknown.written (hbases.reached hplace'))
        hkey
    rw [hsame]
  noWayBack := by
    intro place place' hplace hlater hkey
    have hreached := hbases.reached hplace
    have hway : TransGen (WrittenBase nodes) place place' :=
      hlater.lift id fun _ _ => hbases.lists
    have hsame : place' = place :=
      (hknown.written (hreached.trans hway.to_reflTransGen)).eq_of_key
        (hknown.written hreached) hkey
    rw [hsame] at hway
    exact not_transGen_of_acc (acc_of_reaches hacyclic hreached) hway

/-- The declarations of the module of a class and of the graph bound the classes entered. -/
theorem upwards_returns (hbases : AreWritten nodes bases) {cls : ClassRef}
    (hdeclared : cls.2 ∈ cls.1.declarations) :
    ∃ result visited, ((upwards bases own).remembering ClassRef.key).run (classFuel nodes cls.1) cls
      ([], ()) = some (result, visited, ()) := by
  let keys := (declarationsInReach nodes cls.1).map ClassRef.key
  have hkeys : ∀ other, InReach nodes cls other → other.key ∈ keys :=
    fun other hother => List.mem_map_of_mem (mem_declarationsInReach hother hdeclared)
  have hnext : ∀ other other', InReach nodes cls other →
      .inr other' ∈ ((upwards bases own).remembering ClassRef.key).next other →
        InReach nodes cls other' := by
    intro other other' hother hmem
    have hlists : (upwards bases own).Lists other other' := hmem
    obtain ⟨text, -, hresolved⟩ := hbases.lists hlists
    exact hother.base hresolved
  have hlength : keys.length < classFuel nodes cls.1 := by
    rw [List.length_map]
    exact length_declarationsInReach nodes cls.1
  have hbound : RememberingSearch.unvisited keys ([], ()).1 < classFuel nodes cls.1 :=
    Nat.lt_of_le_of_lt RememberingSearch.unvisited_le hlength
  have ⟨result, memory, hrun, _⟩ :=
    RememberingSearch.run_returns _ hkeys hnext (.inl rfl) hbound
  exact ⟨result, memory.1, hrun⟩

/-! ## What is found -/

/-- A member of a name in the body of a class. -/
structure OwnMember (keep : Declaration → Bool) (name : String) (cls : ClassRef)
    (member : Declaration) : Prop where
  declared : member ∈ cls.1.declarations
  owned : isOwnedBy cls.2.name member = true
  name : member.name = name
  kept : keep member = true

theorem ownMember_spec {keep : Declaration → Bool} {name : String} {cls : ClassRef}
    (h : ownMember keep name cls = some member) : OwnMember keep name cls member := by
  have htest := List.find?_some h
  simp only [Bool.and_eq_true, decide_eq_true_eq] at htest
  exact ⟨List.mem_of_find?_eq_some h, htest.1.1, htest.1.2, htest.2⟩

/-- What is found is a member of a class that a way leads to. -/
theorem finds_way {keep : Declaration → Bool} {name : String} {cls : ClassRef}
    (h : (upwards bases (ownMember keep name)).Finds cls member) :
    ∃ owner, ReflTransGen (upwards bases (ownMember keep name)).GoesInto cls owner
      ∧ ownMember keep name owner = some member := by
  apply h.way
  intro place answer hmem
  obtain ⟨base, -, heq⟩ := List.mem_map.1 hmem
  cases heq

/-! ## Members of classes -/

section

variable (nodes : List ModuleNode) (kind : DeclarationKind) (name : String) (fuel : Nat)

/-- One base of the lookup; nothing is looked up any more once something is found. -/
def lookInBase (state : Option Declaration × List ClassKey) (base : ClassRef) :
    Option Declaration × List ClassKey :=
  if state.1.isSome then state else findApparentMemberFrom nodes kind name fuel state.2 base

theorem foldl_lookInBase_found (member : Declaration) (visited : List ClassKey)
    (bases : List ClassRef) :
    bases.foldl (lookInBase nodes kind name fuel) (some member, visited)
      = (some member, visited) := by
  induction bases with
  | nil => rfl
  | cons base rest ih => exact ih

variable {nodes kind name fuel} {cls : ClassRef} {visited : List ClassKey}

theorem findApparentMemberFrom_visited (h : cls.key ∈ visited) :
    findApparentMemberFrom nodes kind name (fuel + 1) visited cls = (none, visited) :=
  if_pos h

theorem findApparentMemberFrom_own (h : cls.key ∉ visited)
    (hown : ownMember (fun candidate => candidate.kind = kind) name cls = some member) :
    findApparentMemberFrom nodes kind name (fuel + 1) visited cls
      = (some member, cls.key :: visited) := by
  refine (if_neg h).trans ?_
  dsimp only
  split
  · next found hfound =>
      rw [← Option.some.inj (hown.symm.trans hfound)]
      rfl
  · next hnone => cases hown.symm.trans hnone

theorem findApparentMemberFrom_bases (h : cls.key ∉ visited)
    (hown : ownMember (fun candidate => candidate.kind = kind) name cls = none) :
    findApparentMemberFrom nodes kind name (fuel + 1) visited cls
      = (memberBases nodes cls).foldl (lookInBase nodes kind name fuel)
          (none, cls.key :: visited) := by
  refine (if_neg h).trans ?_
  dsimp only
  split
  · next found hfound => cases hown.symm.trans hfound
  · rfl

end

/-- The bases one after the other, when the lookup of each is right. -/
theorem foldl_lookInBase_eq {kind : DeclarationKind} {name : String} {fuel : Nat}
    (hbase : ∀ {base : ClassRef} {visited : List ClassKey} {result : Option Declaration}
      {visited' : List ClassKey},
      ((memberSpace nodes kind name).remembering ClassRef.key).run fuel base (visited, ())
        = some (result, visited', ()) →
      findApparentMemberFrom nodes kind name fuel visited base = (result, visited'))
    {bases : List ClassRef} {result : Option Declaration} {visited' : List ClassKey} :
    ∀ {visited : List ClassKey},
      RememberingSearch.firstOf (((memberSpace nodes kind name).remembering ClassRef.key).run fuel)
        (bases.map .inr) (visited, ()) = some (result, visited', ()) →
      bases.foldl (lookInBase nodes kind name fuel) (none, visited) = (result, visited') := by
  induction bases with
  | nil =>
    intro visited h
    cases h
    rfl
  | cons base rest ih =>
    intro visited h
    rw [List.map_cons, RememberingSearch.firstOf] at h
    cases hrun : ((memberSpace nodes kind name).remembering ClassRef.key).run fuel base
        (visited, ()) with
    | none =>
      rw [hrun] at h
      cases h
    | some out =>
      obtain ⟨found, visited₁, ⟨⟩⟩ := out
      rw [hrun] at h
      have hstep : lookInBase nodes kind name fuel (none, visited) base = (found, visited₁) :=
        hbase hrun
      rw [List.foldl_cons, hstep]
      cases found with
      | some member =>
        cases h
        exact foldl_lookInBase_found nodes kind name fuel member visited' rest
      | none => exact ih h

/-- The lookup comes back with what the search finds. -/
theorem findApparentMemberFrom_eq {kind : DeclarationKind} {name : String} {fuel : Nat} :
    ∀ {cls : ClassRef} {visited : List ClassKey} {result : Option Declaration}
      {visited' : List ClassKey},
      ((memberSpace nodes kind name).remembering ClassRef.key).run fuel cls (visited, ())
        = some (result, visited', ()) →
      findApparentMemberFrom nodes kind name fuel visited cls = (result, visited') := by
  induction fuel with
  | zero =>
    intro cls visited result visited' h
    cases h
  | succ fuel ih =>
    intro cls visited result visited' h
    rw [SearchSpace.remembering_run_succ] at h
    by_cases hmem : cls.key ∈ visited
    · rw [if_pos hmem] at h
      cases h
      exact findApparentMemberFrom_visited hmem
    · rw [if_neg hmem] at h
      cases hown : ownMember (fun candidate => candidate.kind = kind) name cls with
      | some member =>
        have hlook : (memberSpace nodes kind name).look cls = some member := hown
        rw [hlook] at h
        cases h
        exact findApparentMemberFrom_own hmem hown
      | none =>
        have hlook : (memberSpace nodes kind name).look cls = none := hown
        rw [hlook] at h
        rw [findApparentMemberFrom_bases hmem hown]
        exact foldl_lookInBase_eq ih h

theorem findApparentMember_iff {kind : DeclarationKind} {name : String} {cls : ClassRef}
    (hknown : Known nodes cls) (hacyclic : Acyclic nodes cls) :
    findApparentMemberDeclaration nodes kind cls.1 cls.2 name = some member
      ↔ (memberSpace nodes kind name).Finds cls member := by
  have hdeclared := (topLevelNamed_spec hknown.declaration).1
  obtain ⟨result, visited, hrun⟩ : ∃ result visited,
      ((memberSpace nodes kind name).remembering ClassRef.key).run (classFuel nodes cls.1) cls
        ([], ()) = some (result, visited, ()) :=
    upwards_returns areWritten_memberBases hdeclared
  have hkeyed : (memberSpace nodes kind name).KeyedBelow ClassRef.key cls :=
    keyedBelow_upwards areWritten_memberBases hknown hacyclic
  have hfound : findApparentMemberDeclaration nodes kind cls.1 cls.2 name = result :=
    congrArg Prod.fst (findApparentMemberFrom_eq hrun)
  rw [hfound, SearchSpace.remembering_result_iff hkeyed hrun]

/-! ## Requirements of interfaces -/

/-- The requirements, with those of the body of an interface. -/
def addOwnRequirements (cls : ClassRef) (requirements : ExtTreeMap String Declaration) :
    ExtTreeMap String Declaration :=
  (cls.1.declarations.filter fun candidate =>
      isOwnedBy cls.2.name candidate && isRequirement candidate).foldl
    (fun requirements member => requirements.insertIfNew member.name member) requirements

theorem getElem?_addOwnRequirements (cls : ClassRef)
    (requirements : ExtTreeMap String Declaration) (name : String) :
    (addOwnRequirements cls requirements)[name]?
      = requirements[name]?.or (ownMember isRequirement name cls) := by
  have hadded := getElem?_foldl_insertIfNew Declaration.name id (cls.1.declarations.filter
    fun candidate => isOwnedBy cls.2.name candidate && isRequirement candidate) requirements name
  have hfirst : (cls.1.declarations.filter fun candidate =>
        isOwnedBy cls.2.name candidate && isRequirement candidate).find?
          (fun member => member.name = name)
      = ownMember isRequirement name cls := by
    rw [List.find?_filter, ownMember]
    congr 1
    funext candidate
    rw [Bool.and_right_comm]
    simp
  rw [hfirst, Option.map_id] at hadded
  exact hadded

theorem collectInterfaceMembersFrom_visited {fuel : Nat} {cls : ClassRef}
    {visited : List ClassKey} {requirements : ExtTreeMap String Declaration}
    (h : cls.key ∈ visited) :
    collectInterfaceMembersFrom nodes (fuel + 1) (visited, requirements) cls
      = (visited, requirements) :=
  if_pos h

theorem collectInterfaceMembersFrom_enter {fuel : Nat} {cls : ClassRef}
    {visited : List ClassKey} {requirements : ExtTreeMap String Declaration}
    (h : cls.key ∉ visited) :
    collectInterfaceMembersFrom nodes (fuel + 1) (visited, requirements) cls
      = (interfaceBases nodes cls).foldl (collectInterfaceMembersFrom nodes fuel)
          (cls.key :: visited, addOwnRequirements cls requirements) :=
  if_neg h

/-- A requirement stays once it is there. -/
theorem collectInterfaceMembersFrom_keeps {name : String} {fuel : Nat} :
    ∀ {cls : ClassRef} {state : List ClassKey × ExtTreeMap String Declaration},
      state.2[name]? = some member →
      (collectInterfaceMembersFrom nodes fuel state cls).2[name]? = some member := by
  induction fuel with
  | zero => exact fun h => h
  | succ fuel ih =>
    rintro cls ⟨visited, requirements⟩ h
    by_cases hmem : cls.key ∈ visited
    · rw [collectInterfaceMembersFrom_visited hmem]
      exact h
    · rw [collectInterfaceMembersFrom_enter hmem]
      have hbases : ∀ (bases : List ClassRef)
          (state : List ClassKey × ExtTreeMap String Declaration),
          state.2[name]? = some member →
          (bases.foldl (collectInterfaceMembersFrom nodes fuel) state).2[name]? = some member := by
        intro bases
        induction bases with
        | nil => exact fun _ h => h
        | cons base rest ihbases => exact fun state h => ihbases _ (ih h)
      apply hbases
      have hrequirement : requirements[name]? = some member := h
      rw [getElem?_addOwnRequirements, hrequirement]
      rfl

theorem foldl_collectInterfaceMembersFrom_keeps {name : String} {fuel : Nat}
    {bases : List ClassRef} {state : List ClassKey × ExtTreeMap String Declaration}
    (h : state.2[name]? = some member) :
    (bases.foldl (collectInterfaceMembersFrom nodes fuel) state).2[name]? = some member := by
  induction bases generalizing state with
  | nil => exact h
  | cons base rest ih => exact ih (collectInterfaceMembersFrom_keeps h)

/-- What has been gathered under a name when the search for it has come to `result`: if it has
found nothing, the two have been to the same classes. -/
def Gathered (name : String) (requirements : ExtTreeMap String Declaration)
    (result : Option Declaration) (visited : List ClassKey)
    (state : List ClassKey × ExtTreeMap String Declaration) : Prop :=
  state.2[name]? = requirements[name]?.or result ∧ (result = none → state.1 = visited)

/-- The bases one after the other, when each of them gathers what the search finds. -/
theorem foldl_collectInterfaceMembersFrom_gathered {name : String} {fuel : Nat}
    (hbase : ∀ {base : ClassRef} {visited : List ClassKey}
      {requirements : ExtTreeMap String Declaration} {result : Option Declaration}
      {visited' : List ClassKey},
      ((requirementSpace nodes name).remembering ClassRef.key).run fuel base (visited, ())
        = some (result, visited', ()) →
      Gathered name requirements result visited'
        (collectInterfaceMembersFrom nodes fuel (visited, requirements) base))
    {bases : List ClassRef} {result : Option Declaration} {visited' : List ClassKey} :
    ∀ {visited : List ClassKey} {requirements : ExtTreeMap String Declaration},
      RememberingSearch.firstOf
        (((requirementSpace nodes name).remembering ClassRef.key).run fuel) (bases.map .inr)
        (visited, ()) = some (result, visited', ()) →
      Gathered name requirements result visited'
        (bases.foldl (collectInterfaceMembersFrom nodes fuel) (visited, requirements)) := by
  induction bases with
  | nil =>
    intro visited requirements h
    cases h
    exact ⟨(Option.or_none).symm, fun _ => rfl⟩
  | cons base rest ih =>
    intro visited requirements h
    rw [List.map_cons, RememberingSearch.firstOf] at h
    cases hrun : ((requirementSpace nodes name).remembering ClassRef.key).run fuel base
        (visited, ()) with
    | none =>
      rw [hrun] at h
      cases h
    | some out =>
      obtain ⟨found, visited₁, ⟨⟩⟩ := out
      rw [hrun] at h
      have hgathered : Gathered name requirements found visited₁ _ := hbase hrun
      rw [List.foldl_cons]
      cases found with
      | some member =>
        cases h
        -- what the first bases gather stays
        have hsome : ∃ kept, requirements[name]?.or (some member) = some kept := by
          cases requirements[name]? <;> exact ⟨_, rfl⟩
        obtain ⟨kept, hkept⟩ := hsome
        refine ⟨?_, fun hnone => by cases hnone⟩
        rw [hkept]
        exact foldl_collectInterfaceMembersFrom_keeps (hgathered.1.trans hkept)
      | none =>
        have hrest : Gathered name
            (collectInterfaceMembersFrom nodes fuel (visited, requirements) base).2 result
            visited' _ := ih h
        have hsame : (visited₁,
            (collectInterfaceMembersFrom nodes fuel (visited, requirements) base).2)
            = collectInterfaceMembersFrom nodes fuel (visited, requirements) base :=
          Prod.ext (hgathered.2 rfl).symm rfl
        rw [hsame, Gathered, hgathered.1, Option.or_none] at hrest
        exact hrest

theorem collectInterfaceMembersFrom_gathered {name : String} {fuel : Nat} :
    ∀ {cls : ClassRef} {visited : List ClassKey} {requirements : ExtTreeMap String Declaration}
      {result : Option Declaration} {visited' : List ClassKey},
      ((requirementSpace nodes name).remembering ClassRef.key).run fuel cls (visited, ())
        = some (result, visited', ()) →
      Gathered name requirements result visited'
        (collectInterfaceMembersFrom nodes fuel (visited, requirements) cls) := by
  induction fuel with
  | zero =>
    intro cls visited requirements result visited' h
    cases h
  | succ fuel ih =>
    intro cls visited requirements result visited' h
    rw [SearchSpace.remembering_run_succ] at h
    by_cases hmem : cls.key ∈ visited
    · rw [if_pos hmem] at h
      cases h
      rw [collectInterfaceMembersFrom_visited hmem]
      exact ⟨(Option.or_none).symm, fun _ => rfl⟩
    · rw [if_neg hmem] at h
      rw [collectInterfaceMembersFrom_enter hmem]
      have hadded := getElem?_addOwnRequirements cls requirements name
      cases hown : ownMember isRequirement name cls with
      | some member =>
        have hlook : (requirementSpace nodes name).look cls = some member := hown
        rw [hlook] at h
        cases h
        rw [hown] at hadded
        obtain ⟨kept, hkept⟩ : ∃ kept, requirements[name]?.or (some member) = some kept := by
          cases requirements[name]? <;> exact ⟨_, rfl⟩
        refine ⟨?_, fun hnone => by cases hnone⟩
        rw [hkept]
        exact foldl_collectInterfaceMembersFrom_keeps (hadded.trans hkept)
      | none =>
        have hlook : (requirementSpace nodes name).look cls = none := hown
        rw [hlook] at h
        rw [hown, Option.or_none] at hadded
        have hbases : Gathered name (addOwnRequirements cls requirements) result visited' _ :=
          foldl_collectInterfaceMembersFrom_gathered ih h
        rw [Gathered, hadded] at hbases
        exact hbases

/-- What an interface asks for under a name is what the search finds. -/
theorem mem_collectInterfaceMembers {cls : ClassRef} (hknown : Known nodes cls)
    (hacyclic : Acyclic nodes cls) : member ∈ collectInterfaceMembers nodes cls.1 cls.2
      ↔ (requirementSpace nodes member.name).Finds cls member := by
  have hdeclared := (topLevelNamed_spec hknown.declaration).1
  have hentry : ∀ name found,
      (collectInterfaceMembersFrom nodes (classFuel nodes cls.1) ([], ∅) cls).2[name]? = some found
        ↔ (requirementSpace nodes name).Finds cls found := by
    intro name found
    obtain ⟨result, visited, hrun⟩ : ∃ result visited,
        ((requirementSpace nodes name).remembering ClassRef.key).run (classFuel nodes cls.1) cls
          ([], ()) = some (result, visited, ()) :=
      upwards_returns areWritten_interfaceBases hdeclared
    have hkeyed : (requirementSpace nodes name).KeyedBelow ClassRef.key cls :=
      keyedBelow_upwards areWritten_interfaceBases hknown hacyclic
    have hgathered : Gathered name ∅ result visited _ := collectInterfaceMembersFrom_gathered hrun
    rw [hgathered.1, ExtTreeMap.getElem?_empty, Option.none_or,
      SearchSpace.remembering_result_iff hkeyed hrun]
  have hkeyed : ∀ (name : String) (found : Declaration),
      (collectInterfaceMembersFrom nodes (classFuel nodes cls.1) ([], ∅) cls).2[name]? = some found →
        found.name = name := by
    intro name found h
    obtain ⟨owner, -, hown⟩ := finds_way ((hentry name found).1 h)
    exact (ownMember_spec hown).name
  rw [collectInterfaceMembers, values_eq_map_toList, ← hentry]
  exact ⟨getElem?_of_mem_values hkeyed, mem_values⟩

end

end TypePython.Checking
