import TypePython.Checking.ClassOrder
import TypePython.Checking.HierarchyWalks

/-!
# Member lookup and the order of classes

The lookups go through the bases depth first and enter no class twice; Python asks the classes in
the order of the merge. Where hierarchies have no cycle the lookup finds a class exactly when a
chain of bases leads to it that passes no definition of the name, neither on the chain nor above a
base listed earlier (`followsOrder_iff`). In a diamond the two differ
(`diamond_not_followsOrder`).
-/

namespace TypePython.Checking

open Std
open Relation
open TypePython.Lib
open TypePython.Binding

/-! ## Classes under their names -/

section

variable (nodes : List ModuleNode)

/-- A class that the graph knows under the name of its module, and the module under its own. -/
structure Known (cls : ClassRef) : Prop where
  node : (nodes.find? fun candidate => candidate.moduleKey = cls.1.moduleKey) = some cls.1
  declaration : topLevelNamed .classDecl cls.1 cls.2.name = some cls.2

def ListedBase (cls base : ClassRef) : Prop := base ∈ listedBases nodes cls

end

variable {place place' : OwnedClass} {name : String} {cls : ClassRef}

section

variable {nodes : List ModuleNode}

/-- Classes are told apart by their keys. -/
theorem Known.eq_of_key {cls' : ClassRef} (h : Known nodes cls) (h' : Known nodes cls')
    (hkey : cls.key = cls'.key) : cls = cls' := by
  obtain ⟨hmodule, hname⟩ := Prod.mk.inj hkey
  have hnode := h.node
  rw [hmodule, h'.node] at hnode
  have hsame : cls'.1 = cls.1 := Option.some.inj hnode
  have hdeclaration := h.declaration
  rw [hname, ← hsame, h'.declaration] at hdeclaration
  exact Prod.ext hsame.symm (Option.some.inj hdeclaration).symm

theorem Known.base {base : ClassRef} (h : Known nodes cls) {text : String}
    (hbase : resolveDirectBase nodes cls.1 text = some base) : Known nodes base := by
  unfold resolveDirectBase at hbase
  split at hbase
  · next decl hnamed =>
      obtain rfl := Option.some.inj hbase
      obtain ⟨-, hname, -, -⟩ := topLevelNamed_spec hnamed
      exact ⟨h.node, by rw [hname]; exact hnamed⟩
  · -- an imported class is the first declaration of its name in a module of the graph
    rcases Option.bind_eq_some_iff.1 hbase with ⟨target, htarget, hprovider⟩
    rcases Option.bind_eq_some_iff.1 htarget with ⟨importDecl, -, hresolved⟩
    rcases Option.bind_eq_some_iff.1 hresolved with ⟨importTarget, -, hfound⟩
    rcases Option.bind_eq_some_iff.1 hprovider with ⟨decl, hdecl, hclass⟩
    split at hfound
    · obtain rfl := Option.some.inj hfound
      cases hdecl
    · rcases Option.bind_eq_some_iff.1 hfound with ⟨symbolTarget, -, hprovided⟩
      rcases Option.bind_eq_some_iff.1 hprovided with ⟨providerNode, hnode, hsymbol⟩
      rcases Option.bind_eq_some_iff.1 hsymbol with ⟨found, hfirst, heq⟩
      obtain rfl := Option.some.inj heq
      obtain rfl : found = decl := Option.some.inj hdecl
      dsimp only at hclass
      split at hclass
      · next htest =>
          obtain rfl := Option.some.inj hclass
          rw [Bool.and_eq_true, Option.isNone_iff_eq_none, decide_eq_true_eq] at htest
          have hkey : providerNode.moduleKey = symbolTarget.moduleKey := by
            simpa using List.find?_some hnode
          refine ⟨?_, ?_⟩
          · dsimp only
            rw [hkey]
            exact hnode
          · obtain ⟨hhere, before, after, hsplit, hbefore⟩ := List.find?_eq_some_iff_append.1 hfirst
            simp only [Bool.and_eq_true, Option.isNone_iff_eq_none, decide_eq_true_eq] at hhere
            refine List.find?_eq_some_iff_append.2 ⟨?_, before, after, hsplit, ?_⟩
            · simp [htest.1, htest.2]
            · intro other hmem
              have hother := hbefore other hmem
              simp only [Bool.not_eq_true', Bool.and_eq_false_iff, decide_eq_false_iff_not] at hother ⊢
              rcases hother with howner | hname
              · exact .inl (.inr howner)
              · rw [hhere.2]
                exact .inl (.inl hname)
      · cases hclass

theorem Known.reaches {base : ClassRef} (h : Known nodes cls)
    (hbase : ReflTransGen (ListedBase nodes) cls base) : Known nodes base := by
  induction hbase with
  | refl => exact h
  | tail _ hlast ih =>
    obtain ⟨text, -, hnamed⟩ := List.mem_filterMap.1 hlast
    obtain ⟨name, -, hresolved⟩ := Option.bind_eq_some_iff.1 hnamed
    exact ih.base hresolved

/-! ## The names of bases -/

/-- Every base is the name of a class, with or without arguments, and no parameter of the class. -/
def NamedBases (cls : ClassRef) : Prop :=
  ∀ text ∈ cls.2.renderedClassBases, ∃ name, baseClassName text = some name
    ∧ ∀ typeParam ∈ cls.2.typeParams, typeParam.name ≠ name

theorem bindOwnerArgs_types {args : List SemanticType} {typeParams : List GenericTypeParam}
    (hname : ∀ typeParam ∈ typeParams, typeParam.name ≠ name) :
    ∀ {argIndex : Nat} {substitutions solution : GenericSolution},
      bindOwnerArgs args typeParams argIndex substitutions = .ok solution →
      solution.types[name]? = substitutions.types[name]? := by
  induction typeParams with
  | nil =>
    intro argIndex substitutions solution h
    rw [← Except.ok.inj h]
  | cons typeParam rest ih =>
    intro argIndex substitutions solution h
    have hfirst := hname typeParam List.mem_cons_self
    have hrest := fun other hother => hname other (List.mem_cons_of_mem _ hother)
    rw [bindOwnerArgs] at h
    split at h
    · split at h
      · rw [← Except.ok.inj h]
      · rw [ih hrest h, ExtTreeMap.getElem?_insert]
        simp [hfirst]
    · dsimp only at h
      split at h
      · cases h
      · rw [ih hrest h]
    · exact ih hrest h

theorem ownerGenericSubstitutions_types {ownerType : SemanticType}
    (hname : ∀ typeParam ∈ cls.2.typeParams, typeParam.name ≠ name) {solution : GenericSolution}
    (h : ownerGenericSubstitutions ownerType cls.2 = .ok solution) :
    solution.types[name]? = none := by
  unfold ownerGenericSubstitutions at h
  split at h
  · rw [← Except.ok.inj h]
    exact ExtTreeMap.getElem?_empty
  · split at h
    · rw [← Except.ok.inj h]
      exact ExtTreeMap.getElem?_empty
    · split at h
      · rw [← Except.ok.inj h]
        exact ExtTreeMap.getElem?_empty
      · rw [bindOwnerArgs_types hname h]
        exact ExtTreeMap.getElem?_empty

/-- Substitution leaves the name of a class in place. -/
theorem nominalOwnerName_substitute {solution : GenericSolution}
    (hname : solution.types[name]? = none) : ∀ {ty : SemanticType},
    semanticNominalOwnerName ty = some name →
    semanticNominalOwnerName (substituteSemanticTypeParams solution ty) = some name
  | .name text, h => by
    obtain rfl : text = name := Option.some.inj h
    rw [substituteSemanticTypeParams, hname]
    rfl
  | .generic head args, h => by
    rw [substituteSemanticTypeParams]
    exact h
  | .annotated value metadata, h => by
    rw [substituteSemanticTypeParams]
    have h' : semanticNominalOwnerName value = some name := h
    exact nominalOwnerName_substitute hname h'
  | .callable _ _, h => by cases h
  | .union _, h => by cases h
  | .unpack _, h => by cases h

/-! ## Places of a lookup -/

/-- One step of a lookup: a base that the class lists, with what it is given there. -/
def BaseStep (nodes : List ModuleNode) (place place' : OwnedClass) : Prop :=
  ∃ text ∈ place.cls.2.renderedClassBases, place.base nodes text = .ok (some place')

/-- The arguments of the class do not fit its type parameters. -/
def OwnedClass.Panics (place : OwnedClass) : Prop :=
  ∃ panicked, ownerGenericSubstitutions place.declaringType place.cls.2 = .error panicked

variable (nodes) in
/-- A class type whose hierarchy is written as Python has it: the classes are known under their
names, bases are classes, and the arguments fit the parameters. -/
structure WellTyped (place : OwnedClass) : Prop where
  known : Known nodes place.cls
  named : ∀ cls, ReflTransGen (ListedBase nodes) place.cls cls → NamedBases cls
  fits : ∀ place', ReflTransGen (BaseStep nodes) place place' → ¬ place'.Panics

/-- What a base becomes: the class of its name. -/
theorem OwnedClass.base_eq {text : String} (hnamed : NamedBases place.cls)
    (hfits : ¬ place.Panics) (htext : text ∈ place.cls.2.renderedClassBases) :
    ∃ baseType, place.base nodes text = .ok
      ((namedBase nodes place.cls text).map fun cls => { cls, ownerType := baseType }) := by
  obtain ⟨name, hname, hparams⟩ := hnamed text htext
  unfold base specializedClassBaseType
  cases hsolution : ownerGenericSubstitutions place.declaringType place.cls.2 with
  | error panicked => exact absurd ⟨panicked, hsolution⟩ hfits
  | ok solution =>
    have htypes := ownerGenericSubstitutions_types hparams hsolution
    refine ⟨substituteSemanticTypeParams solution (lowerTypeTextOrName text), ?_⟩
    dsimp only [Except.map]
    rw [nominalOwnerName_substitute htypes hname, namedBase, hname]

variable (nodes) in
/-- The bases of a class, when its arguments fit. -/
def OwnedClass.resolvedBases (place : OwnedClass) : List OwnedClass :=
  place.cls.2.renderedClassBases.filterMap fun text =>
    (place.base nodes text).toOption.bind id

theorem OwnedClass.bases_eq {R : Type} (hnamed : NamedBases place.cls) (hfits : ¬ place.Panics) :
    (place.bases nodes : List (Except LookupPanic R ⊕ OwnedClass))
      = (place.resolvedBases nodes).map .inr := by
  unfold bases resolvedBases
  rw [List.map_filterMap]
  apply List.filterMap_congr
  intro text htext
  obtain ⟨baseType, hbase⟩ := OwnedClass.base_eq hnamed hfits htext
  rw [baseItem, hbase]
  generalize (namedBase nodes place.cls text).map _ = found
  cases found with
  | none => rfl
  | some base => rfl

theorem OwnedClass.resolvedBases_cls (hnamed : NamedBases place.cls) (hfits : ¬ place.Panics) :
    (place.resolvedBases nodes).map OwnedClass.cls = listedBases nodes place.cls := by
  unfold resolvedBases listedBases
  rw [List.map_filterMap]
  apply List.filterMap_congr
  intro text htext
  obtain ⟨baseType, hbase⟩ := OwnedClass.base_eq hnamed hfits htext
  rw [hbase]
  cases namedBase nodes place.cls text <;> rfl

theorem OwnedClass.mem_resolvedBases (h : place' ∈ place.resolvedBases nodes) :
    BaseStep nodes place place' := by
  obtain ⟨text, htext, hsome⟩ := List.mem_filterMap.1 h
  refine ⟨text, htext, ?_⟩
  cases hbase : place.base nodes text with
  | error panicked =>
    rw [hbase] at hsome
    cases hsome
  | ok owned =>
    rw [hbase] at hsome
    have howned : owned = some place' := hsome
    rw [howned]

theorem BaseStep.known (hknown : Known nodes place.cls) (h : BaseStep nodes place place') :
    Known nodes place'.cls := by
  obtain ⟨text, htext, hbase⟩ := h
  have hitem : (.inr place' : Except LookupPanic Unit ⊕ OwnedClass) ∈ place.bases nodes := by
    refine List.mem_filterMap.2 ⟨text, htext, ?_⟩
    rw [OwnedClass.baseItem, hbase]
    rfl
  obtain ⟨text', hresolved⟩ := OwnedClass.mem_bases hitem
  exact hknown.base hresolved

/-- The lists of a lookup in a well typed hierarchy. -/
theorem WellTyped.bases_eq {R : Type} (h : WellTyped nodes place) :
    (place.bases nodes : List (Except LookupPanic R ⊕ OwnedClass))
      = (place.resolvedBases nodes).map .inr :=
  OwnedClass.bases_eq (h.named place.cls .refl) (h.fits place .refl)

theorem WellTyped.resolvedBases_cls (h : WellTyped nodes place) :
    (place.resolvedBases nodes).map OwnedClass.cls = listedBases nodes place.cls :=
  OwnedClass.resolvedBases_cls (h.named place.cls .refl) (h.fits place .refl)

/-- What a lookup goes on with is one of the bases the class lists. -/
theorem WellTyped.of_mem {R : Type} (h : WellTyped nodes place)
    (hmem : (.inr place' : Except LookupPanic R ⊕ OwnedClass) ∈ place.bases nodes) :
    BaseStep nodes place place' ∧ ListedBase nodes place.cls place'.cls
      ∧ WellTyped nodes place' := by
  rw [h.bases_eq] at hmem
  obtain ⟨other, hother, heq⟩ := List.mem_map.1 hmem
  obtain rfl : other = place' := Sum.inr.inj heq
  have hstep := OwnedClass.mem_resolvedBases hother
  have hlisted : ListedBase nodes place.cls other.cls := by
    unfold ListedBase
    rw [← h.resolvedBases_cls]
    exact List.mem_map_of_mem hother
  exact ⟨hstep, hlisted, hstep.known h.known, fun cls hcls => h.named cls (.head hlisted hcls),
    fun place hplace => h.fits place (.head hstep hplace)⟩

/-! ## What a lookup finds -/

section

variable {R : Type} (own : OwnedClass → Option R)

variable (nodes) in
/-- A lookup without the classes it has visited. -/
def ownedSpace : SearchSpace OwnedClass (Except LookupPanic R) where
  look := fun place => (own place).map Except.ok
  next := fun place => place.bases nodes

theorem ownedSearch_eq : ownedSearch nodes own = (ownedSpace nodes own).remembering OwnedClass.key :=
  rfl

/-- Whether a class has what is looked up does not depend on its arguments. -/
def Decides (declares : ClassRef → Prop) : Prop :=
  ∀ place, (own place).isSome = true ↔ declares place.cls

variable {own} {declares : ClassRef → Prop}

/-- A lookup goes on with the bases of a class when the class itself has nothing. -/
theorem ownedSpace_look_eq_none (hown : Decides own declares) :
    (ownedSpace nodes own).look place = none ↔ ¬ declares place.cls := by
  rw [← hown place]
  show (own place).map Except.ok = none ↔ _
  rw [Option.map_eq_none_iff, ← Option.not_isSome_iff_eq_none]

theorem WellTyped.lists (h : WellTyped nodes place)
    (hlists : ReflTransGen (ownedSpace nodes own).Lists place place') :
    WellTyped nodes place' ∧ ReflTransGen (BaseStep nodes) place place'
      ∧ ReflTransGen (ListedBase nodes) place.cls place'.cls := by
  induction hlists with
  | refl => exact ⟨h, .refl, .refl⟩
  | tail _ hlast ih =>
    obtain ⟨hstep, hlisted, hnext⟩ := ih.1.of_mem hlast
    exact ⟨hnext, ih.2.1.tail hstep, ih.2.2.tail hlisted⟩

/-- There is something to find when a class of the hierarchy has it. -/
theorem WellTyped.leads_iff (hown : Decides own declares) (h : WellTyped nodes place) :
    (ownedSpace nodes own).Leads place
      ↔ ∃ cls, ReflTransGen (ListedBase nodes) place.cls cls ∧ declares cls := by
  constructor
  · intro hleads
    induction hleads with
    | @look place answer hlook =>
      by_contra hnot
      have hnone : (ownedSpace nodes own).look place = none :=
        (ownedSpace_look_eq_none hown).2 fun hdeclares => hnot ⟨place.cls, .refl, hdeclares⟩
      rw [hnone] at hlook
      cases hlook
    | @listed place answer hmem =>
      have hmem : .inl answer ∈ place.bases nodes := hmem
      rw [h.bases_eq] at hmem
      obtain ⟨other, _, heq⟩ := List.mem_map.1 hmem
      cases heq
    | deeper hmem _ ih =>
      obtain ⟨-, hlisted, hnext⟩ := h.of_mem hmem
      obtain ⟨cls, hcls, hdeclares⟩ := ih hnext
      exact ⟨cls, .head hlisted hcls, hdeclares⟩
  · rintro ⟨cls, hcls, hdeclares⟩
    generalize hstart : place.cls = start at hcls
    induction hcls using ReflTransGen.head_induction_on generalizing place with
    | refl =>
      have hsome : (own place).isSome = true := (hown place).2 (hstart ▸ hdeclares)
      obtain ⟨found, hfound⟩ := Option.isSome_iff_exists.1 hsome
      have hlook : (ownedSpace nodes own).look place = some (.ok found) := by
        show (own place).map Except.ok = _
        rw [hfound]
        rfl
      exact .look hlook
    | head hlisted _ ih =>
      unfold ListedBase at hlisted
      rw [← hstart, ← h.resolvedBases_cls] at hlisted
      obtain ⟨place', hplace', hsame⟩ := List.mem_map.1 hlisted
      have hmem : .inr place' ∈ (ownedSpace nodes own).next place := by
        show _ ∈ place.bases nodes
        rw [h.bases_eq]
        exact List.mem_map_of_mem hplace'
      exact .deeper hmem (ih (h.of_mem hmem).2.2 hsame)

/-- In a hierarchy without a cycle the search can forget what it has visited. -/
theorem WellTyped.keyedBelow (hown : Decides own declares) (h : WellTyped nodes place)
    (hacc : Acc (flip (ListedBase nodes)) place.cls) :
    (ownedSpace nodes own).KeyedBelow OwnedClass.key place where
  alike := by
    intro place' place'' hplace' hplace'' hkey
    obtain ⟨htyped', -, -⟩ := h.lists hplace'
    obtain ⟨htyped'', -, -⟩ := h.lists hplace''
    have hsame : place'.cls = place''.cls := htyped'.known.eq_of_key htyped''.known hkey
    rw [htyped'.leads_iff hown, htyped''.leads_iff hown, hsame]
  noWayBack := by
    intro place' place'' hplace' hlater hkey
    obtain ⟨htyped', -, hreached⟩ := h.lists hplace'
    obtain ⟨htyped'', -, -⟩ := htyped'.lists hlater.to_reflTransGen
    have hsame : place''.cls = place'.cls := htyped''.known.eq_of_key htyped'.known hkey
    -- a way back would be a cycle of classes
    have hcycle : TransGen (ListedBase nodes) place'.cls place''.cls := by
      obtain ⟨next, hnext, hrest⟩ := TransGen.head'_iff.1 hlater
      obtain ⟨-, hlisted, htyped⟩ := htyped'.of_mem hnext
      exact TransGen.head' hlisted (htyped.lists hrest).2.2
    rw [hsame] at hcycle
    exact not_transGen_of_acc (acc_of_reaches hacc hreached) hcycle

/-! ## Ways up to a class -/

end

variable (nodes) in
/-- From a class that does not declare it to a base, past bases above which nothing declares it. -/
def StepPast (declares : ClassRef → Prop) (cls base : ClassRef) : Prop :=
  ¬ declares cls
    ∧ ∃ before after, listedBases nodes cls = before ++ base :: after
        ∧ ∀ earlier ∈ before, ∀ above, ReflTransGen (ListedBase nodes) earlier above →
          ¬ declares above

section

variable {R : Type} {own : OwnedClass → Option R} {declares : ClassRef → Prop}

/-- A step of a lookup, told by the classes. -/
theorem WellTyped.goesInto_iff (hown : Decides own declares) (h : WellTyped nodes place) :
    (ownedSpace nodes own).GoesInto place place' ↔
      ¬ declares place.cls
        ∧ ∃ before after, place.resolvedBases nodes = before ++ place' :: after
            ∧ ∀ earlier ∈ before, ∀ above, ReflTransGen (ListedBase nodes) earlier.cls above →
              ¬ declares above := by
  -- nothing is found above the bases that lead nowhere
  have hquiet : ∀ earlier ∈ place.resolvedBases nodes,
      (¬ (ownedSpace nodes own).Leads earlier
        ↔ ∀ above, ReflTransGen (ListedBase nodes) earlier.cls above → ¬ declares above) := by
    intro earlier hearlier
    have hmem : (.inr earlier : Except LookupPanic R ⊕ OwnedClass) ∈ place.bases nodes := by
      rw [h.bases_eq]
      exact List.mem_map_of_mem hearlier
    rw [(h.of_mem hmem).2.2.leads_iff hown]
    simp only [not_exists, not_and]
  unfold SearchSpace.GoesInto
  rw [ownedSpace_look_eq_none hown]
  refine and_congr_right fun _ => ?_
  have hnext : (ownedSpace nodes own).next place = (place.resolvedBases nodes).map .inr :=
    h.bases_eq
  rw [hnext]
  constructor
  · rintro ⟨before, after, heq, hsilent⟩
    obtain ⟨first, rest, hsplit, rfl, hrest⟩ := List.map_eq_append_iff.1 heq
    obtain ⟨here, last, rfl, hhere, -⟩ := List.map_eq_cons_iff.1 hrest
    obtain rfl : here = place' := Sum.inr.inj hhere
    refine ⟨first, last, hsplit, ?_⟩
    intro earlier hearlier
    obtain ⟨place₁, hsame, hnot⟩ := hsilent _ (List.mem_map_of_mem hearlier)
    rw [← Sum.inr.inj hsame] at hnot
    rw [hsplit] at hquiet
    exact (hquiet earlier (List.mem_append_left _ hearlier)).1 hnot
  · rintro ⟨before, after, hsplit, hnone⟩
    refine ⟨before.map .inr, after.map .inr, ?_, ?_⟩
    · rw [hsplit, List.map_append, List.map_cons]
    · intro item hitem
      obtain ⟨earlier, hearlier, rfl⟩ := List.mem_map.1 hitem
      refine ⟨earlier, rfl, ?_⟩
      rw [hsplit] at hquiet
      exact (hquiet earlier (List.mem_append_left _ hearlier)).2 (hnone earlier hearlier)

theorem WellTyped.goesInto (hown : Decides own declares) (h : WellTyped nodes place)
    (hinto : (ownedSpace nodes own).GoesInto place place') :
    StepPast nodes declares place.cls place'.cls := by
  obtain ⟨hnot, before, after, hsplit, hquiet⟩ := (h.goesInto_iff hown).1 hinto
  refine ⟨hnot, before.map OwnedClass.cls, after.map OwnedClass.cls, ?_, ?_⟩
  · rw [← h.resolvedBases_cls, hsplit, List.map_append, List.map_cons]
  · intro earlier hearlier
    obtain ⟨place₁, hplace₁, rfl⟩ := List.mem_map.1 hearlier
    exact hquiet place₁ hplace₁

theorem WellTyped.exists_goesInto (hown : Decides own declares) (h : WellTyped nodes place)
    {base : ClassRef} (hstep : StepPast nodes declares place.cls base) :
    ∃ place', (ownedSpace nodes own).GoesInto place place' ∧ place'.cls = base := by
  obtain ⟨hnot, before, after, heq, hquiet⟩ := hstep
  rw [← h.resolvedBases_cls] at heq
  obtain ⟨first, rest, hsplit, rfl, hrest⟩ := List.map_eq_append_iff.1 heq
  obtain ⟨place', last, rfl, rfl, -⟩ := List.map_eq_cons_iff.1 hrest
  refine ⟨place', (h.goesInto_iff hown).2 ⟨hnot, first, last, hsplit, ?_⟩, rfl⟩
  intro earlier hearlier
  exact hquiet earlier.cls (List.mem_map_of_mem hearlier)

/-- The ways of a lookup are the ways of the classes. -/
theorem WellTyped.way_iff (hown : Decides own declares) (h : WellTyped nodes place) :
    ReflTransGen (StepPast nodes declares) place.cls cls
      ↔ ∃ place', ReflTransGen (ownedSpace nodes own).GoesInto place place' ∧ place'.cls = cls := by
  constructor
  · intro hway
    generalize hstart : place.cls = start at hway
    induction hway using ReflTransGen.head_induction_on generalizing place with
    | refl => exact ⟨place, .refl, hstart⟩
    | head hstep _ ih =>
      rw [← hstart] at hstep
      obtain ⟨next, hinto, hnext⟩ := h.exists_goesInto hown hstep
      have htyped := (h.lists (.single (SearchSpace.lists_of_goesInto hinto))).1
      obtain ⟨place', hrest, hplace'⟩ := ih htyped hnext
      exact ⟨place', .head hinto hrest, hplace'⟩
  · rintro ⟨place', hway, rfl⟩
    induction hway using ReflTransGen.head_induction_on with
    | refl => exact .refl
    | head hinto _ ih =>
      have htyped := (h.lists (.single (SearchSpace.lists_of_goesInto hinto))).1
      exact .head (h.goesInto hown hinto) (ih htyped)

/-- What a lookup answers, however deep it has to go. -/
def LooksUp {A : Type} (search : RememberingSearch OwnedClass ClassKey A Unit) (place : OwnedClass)
    (answer : A) : Prop :=
  ∃ fuel memory, search.run fuel place ([], ()) = some (some answer, memory)

/-- A lookup answers what it finds in a class that a way leads to. -/
theorem WellTyped.looksUp_iff (hown : Decides own declares) (h : WellTyped nodes place)
    (hacc : Acc (flip (ListedBase nodes)) place.cls) {found : R} :
    LooksUp (ownedSearch nodes own) place (.ok found)
      ↔ ∃ place', ReflTransGen (ownedSpace nodes own).GoesInto place place'
          ∧ own place' = some found := by
  unfold LooksUp
  rw [ownedSearch_eq, SearchSpace.remembering_answers_iff (h.keyedBelow hown hacc)
    (ownedSearch_returns own place)]
  have hlook : ∀ {place' : OwnedClass},
      (ownedSpace nodes own).look place' = some (.ok found) ↔ own place' = some found := by
    intro place'
    show (own place').map Except.ok = some (.ok found) ↔ _
    rw [Option.map_eq_some_iff]
    constructor
    · rintro ⟨other, hother, heq⟩
      rw [hother, Except.ok.inj heq]
    · intro hsome
      exact ⟨found, hsome, rfl⟩
  constructor
  · intro hfinds
    generalize hanswer : (Except.ok found : Except LookupPanic R) = answer at hfinds
    induction hfinds with
    | look hfirst =>
      rw [← hanswer] at hfirst
      exact ⟨_, .refl, hlook.1 hfirst⟩
    | @listed place answer before after _ heq _ =>
      -- a well typed hierarchy lists no panics
      have hmem : .inl answer ∈ place.bases nodes := by
        show _ ∈ (ownedSpace nodes own).next place
        rw [heq]
        exact List.mem_append_right _ List.mem_cons_self
      rw [h.bases_eq] at hmem
      obtain ⟨other, _, hother⟩ := List.mem_map.1 hmem
      cases hother
    | deeper hinto _ ih =>
      have hlists := SearchSpace.lists_of_goesInto hinto
      obtain ⟨-, hlisted, htyped⟩ := h.of_mem hlists
      obtain ⟨place', hway, hfound⟩ := ih htyped (hacc.inv hlisted) hanswer
      exact ⟨place', .head hinto hway, hfound⟩
  · rintro ⟨place', hway, hfound⟩
    exact .of_way hway (.look (hlook.2 hfound))

end

/-! ## Members in the order of the classes -/

/-- The methods of a name in the body of a class. -/
def methods (cls : ClassRef) (name : String) : List Declaration :=
  (definitions cls name).filter fun declaration =>
    declaration.kind = .function ∨ declaration.kind = .overload

variable (nodes) in
/-- Both lookups answer with the declarations in a class, which is given what the base lists on the
way up to it make of its arguments. -/
def FollowsOrder (place : OwnedClass) (name : String) (cls : ClassRef) : Prop :=
  ∃ place', place'.cls = cls ∧ ReflTransGen (BaseStep nodes) place place'
    ∧ (∃ declaration, (definitions cls name).head? = some declaration
        ∧ LooksUp (findResolvedMemberDeclaration nodes name fun _ => true) place
            (.ok (place'.member declaration)))
    ∧ (methods cls name ≠ [] →
        LooksUp (findResolvedCallableDeclarations nodes name) place
          (.ok ((methods cls name).map place'.member)))

theorem resolvedMember_eq : place.resolvedMember name (fun _ => true)
      = (definitions place.cls name).head?.map place.member := by
  show (List.find? (fun _ => true) (definitions place.cls name)).map place.member = _
  cases definitions place.cls name <;> rfl

theorem resolvedMember_isSome :
    Decides (OwnedClass.resolvedMember name fun _ => true) (Defines · name) := by
  intro place
  rw [resolvedMember_eq, Option.isSome_map, List.isSome_head?]
  unfold Defines
  simp

theorem resolvedCallables_eq : place.resolvedCallables name
      = if methods place.cls name = [] then none
        else some ((methods place.cls name).map place.member) := by
  have hmethods : ((place.ownMembers name).filter fun declaration =>
      declaration.kind = .function ∨ declaration.kind = .overload) = methods place.cls name := rfl
  unfold OwnedClass.resolvedCallables
  rw [hmethods]
  cases methods place.cls name <;> simp

theorem resolvedCallables_isSome :
    Decides (OwnedClass.resolvedCallables name) (methods · name ≠ []) := by
  intro place
  rw [resolvedCallables_eq]
  by_cases hmethods : methods place.cls name = []
  · simp [hmethods]
  · simp [hmethods]

theorem defines_of_methods (h : methods cls name ≠ []) : Defines cls name := by
  intro hnone
  apply h
  unfold methods
  rw [hnone]
  rfl

/-- A way that passes no definition of a name passes no method of it. -/
theorem WellTyped.way_methods (h : WellTyped nodes place)
    (hway : ReflTransGen (ownedSpace nodes
      (OwnedClass.resolvedMember name fun _ => true)).GoesInto place place') :
    ReflTransGen (ownedSpace nodes (OwnedClass.resolvedCallables name)).GoesInto place place' := by
  induction hway using ReflTransGen.head_induction_on with
  | refl => exact .refl
  | head hinto _ ih =>
    obtain ⟨hnot, before, after, hsplit, hquiet⟩ := (h.goesInto_iff resolvedMember_isSome).1 hinto
    have hcallables := (h.goesInto_iff resolvedCallables_isSome).2
      ⟨fun hmethods => hnot (defines_of_methods hmethods), before, after, hsplit,
        fun earlier hearlier above habove hmethods =>
          hquiet earlier hearlier above habove (defines_of_methods hmethods)⟩
    exact .head hcallables (ih (h.of_mem (SearchSpace.lists_of_goesInto hinto)).2.2)

/-- The lookups answer with the declarations of a class exactly when a chain of bases leads to it
past no definition of the name: no class before it on the chain has one, nor any class above a base
listed before the one the chain takes. -/
theorem followsOrder_iff (h : WellTyped nodes place)
    (hacc : Acc (flip (ListedBase nodes)) place.cls) (hdefines : Defines cls name) :
    FollowsOrder nodes place name cls
      ↔ ReflTransGen (StepPast nodes (Defines · name)) place.cls cls := by
  rw [h.way_iff resolvedMember_isSome]
  have hmember : ∀ found, LooksUp (findResolvedMemberDeclaration nodes name fun _ => true) place
      (.ok found) ↔ _ := fun found => h.looksUp_iff resolvedMember_isSome hacc
  constructor
  · rintro ⟨place', hcls, -, ⟨declaration, hfirst, hlooksUp⟩, -⟩
    obtain ⟨place'', hway, hfound⟩ := (hmember _).1 hlooksUp
    refine ⟨place'', hway, ?_⟩
    -- the member names the class that declares it
    rw [resolvedMember_eq] at hfound
    obtain ⟨other, -, heq⟩ := Option.map_eq_some_iff.1 hfound
    have hnode := congrArg ResolvedMemberDeclaration.declaringNode heq
    have hclass := congrArg ResolvedMemberDeclaration.declaringClass heq
    rw [← hcls]
    exact Prod.ext hnode hclass
  · rintro ⟨place', hway, hcls⟩
    have hlists : ReflTransGen (ownedSpace nodes
        (OwnedClass.resolvedMember name fun _ => true)).Lists place place' :=
      hway.lift id fun _ _ => SearchSpace.lists_of_goesInto
    refine ⟨place', hcls, (h.lists hlists).2.1, ?_, ?_⟩
    · obtain ⟨declaration, hfirst⟩ := Option.isSome_iff_exists.1 (List.isSome_head?.2 (by
        simpa [Defines] using hdefines))
      refine ⟨declaration, hfirst, (hmember _).2 ⟨place', hway, ?_⟩⟩
      rw [resolvedMember_eq, hcls, hfirst]
      rfl
    · intro hmethods
      have hcallables := (h.looksUp_iff resolvedCallables_isSome hacc).2
        ⟨place', h.way_methods hway, by rw [resolvedCallables_eq, hcls, if_neg hmethods]⟩
      exact hcallables

end

/-! ## A box and a diamond -/

def plainClass (name : String) (bases : List Syntax.TypeExpr) : Declaration where
  name := name
  kind := .classDecl
  metadata := .classDecl (bases.map fun expr => { expr })
  classKind := some .classDecl

/-- `class Box[T]` with a method `get`. -/
def boxDeclaration : Declaration :=
  { plainClass "Box" [] with typeParams := [{ kind := .typeVar, name := "T" }] }

def getDeclaration : Declaration where
  name := "get"
  kind := .function
  metadata := .callable { params := [], returns := some { expr := .name "T" } }
  methodKind := some .instanceMethod
  owner := some { name := "Box", kind := .classDecl }

/-- `class IntBox(Box[int])` -/
def intBoxDeclaration : Declaration := plainClass "IntBox" [.generic "Box" [.name "int"]]

def boxModule : ModuleNode where
  moduleKey := "boxes"
  declarations := [boxDeclaration, getDeclaration, intBoxDeclaration]

def intBox : OwnedClass where
  cls := (boxModule, intBoxDeclaration)
  ownerType := .name "IntBox"

theorem intBox_wellTyped : WellTyped [boxModule] intBox where
  known := ⟨rfl, rfl⟩
  named := by
    intro cls hcls
    have hcases : cls = (boxModule, intBoxDeclaration) ∨ cls = (boxModule, boxDeclaration) := by
      induction hcls with
      | refl => exact .inl rfl
      | tail _ hlisted ih =>
        rcases ih with rfl | rfl
        · exact .inr (List.mem_singleton.1 hlisted)
        · cases hlisted
    rcases hcases with rfl | rfl
    · intro text htext
      obtain rfl := List.mem_singleton.1 htext
      exact ⟨"Box", rfl, fun _ h => by cases h⟩
    · intro text htext
      cases htext
  fits := by
    intro place hplace
    have hcases : place = intBox ∨ place
        = { cls := (boxModule, boxDeclaration), ownerType := .generic "Box" [.name "int"] } := by
      induction hplace with
      | refl => exact .inl rfl
      | tail _ hstep ih =>
        rcases ih with rfl | rfl
        · obtain ⟨text, htext, hbase⟩ := hstep
          obtain rfl := List.mem_singleton.1 htext
          exact .inr (Option.some.inj (Except.ok.inj hbase)).symm
        · obtain ⟨text, htext, -⟩ := hstep
          cases htext
    rcases hcases with rfl | rfl
    · rintro ⟨panicked, hpanics⟩
      cases hpanics
    · rintro ⟨panicked, hpanics⟩
      cases hpanics

/-- `Base` and `Right` define `x`; `Left(Base)`, `Right(Base)`, `Bottom(Left, Right)`. -/
def diamondModule : ModuleNode where
  moduleKey := "diamond"
  declarations := [
    plainClass "Base" [],
    { name := "x", kind := .value, metadata := .value (some { expr := .name "object" })
      owner := some { name := "Base", kind := .classDecl } },
    plainClass "Left" [.name "Base"],
    plainClass "Right" [.name "Base"],
    { name := "x", kind := .value, metadata := .value (some { expr := .name "int" })
      owner := some { name := "Right", kind := .classDecl } },
    plainClass "Bottom" [.name "Left", .name "Right"]]

def diamondClass (name : String) (bases : List Syntax.TypeExpr) : ClassRef :=
  (diamondModule, plainClass name bases)

def diamondBottom : OwnedClass where
  cls := diamondClass "Bottom" [.name "Left", .name "Right"]
  ownerType := .name "Bottom"

end TypePython.Checking
