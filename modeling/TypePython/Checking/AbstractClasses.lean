import TypePython.Checking.ClassOrder
import TypePython.Lib.LastEntry

/-!
# Instantiation of abstract classes

Which calls of classes are reported, and which ones Python refuses. The check asks the class and
the bases it lists for abstract members, and counts a member as implemented by the class itself
alone; Python asks the first class of the method resolution order that binds the name. For each
name the two agree exactly when `ReadRight` holds.
-/

namespace TypePython.Checking

open Std
open TypePython.Lib
open TypePython.Binding

attribute [local instance] lexOrd

/-! ## The check -/

section

variable (nodes : List ModuleNode)

/-- For each owner and name, the kind of the last abstract declaration. -/
def abstractMemberIndex (declarations : List Declaration) :
    ExtTreeMap (String × String) DeclarationKind :=
  (declarations.filterMap fun declaration =>
      if declaration.isAbstractMethod then
        declaration.owner.map fun owner => ((owner.name, declaration.name), declaration.kind)
      else none).foldl
    (fun index entry => index.insert entry.1 entry.2) ∅

def ownsAbstractMember (cls : ClassRef) : Bool :=
  cls.1.declarations.any fun declaration =>
    isOwnedBy cls.2.name declaration && declaration.isAbstractMethod

/-- The class declares a member of this kind that is not abstract. -/
def implementsMember (cls : ClassRef) (memberName : String) (memberKind : DeclarationKind) : Bool :=
  cls.1.declarations.any fun declaration =>
    isOwnedBy cls.2.name declaration && declaration.name = memberName
      && declaration.kind = memberKind && !declaration.isAbstractMethod

def inheritsAbstractMember (cls : ClassRef) : Bool :=
  cls.2.renderedClassBases.any fun base =>
    match resolveDirectBase nodes cls.1 base with
    | none => false
    | some baseClass =>
      (abstractMemberIndex baseClass.1.declarations).toList.any
        fun ((abstractOwner, memberName), memberKind) =>
          abstractOwner = baseClass.2.name && !implementsMember cls memberName memberKind

def isAbstractClass (cls : ClassRef) : Bool :=
  ownsAbstractMember cls || inheritsAbstractMember nodes cls

/-- The names of the classes of a module that are abstract. -/
def abstractClasses (node : ModuleNode) : List String :=
  (node.declarations.filter fun declaration =>
    declaration.kind = .classDecl && declaration.owner.isNone
      && isAbstractClass nodes (node, declaration)).map Declaration.name

/-- The abstract class that a callee names. -/
def abstractCallee (node : ModuleNode) (callee : String) : Option String :=
  if callee ∈ abstractClasses nodes node then some callee
  else
    (resolveDirectBase nodes node callee).bind fun cls =>
      if isAbstractClass nodes cls then some cls.2.name else none

structure ClassDiagnostic where
  code : String
  message : String
deriving DecidableEq, Repr

def abstractInstantiationDiagnostic (node : ModuleNode) (call : CallSite) :
    Option ClassDiagnostic :=
  (abstractCallee nodes node call.callee).map fun abstractName =>
    { code := "TPY4007"
      message := "module \x60" ++ node.modulePath ++ "\x60 directly instantiates abstract class \x60"
        ++ abstractName ++ "\x60" }

def abstractInstantiationDiagnostics (node : ModuleNode) : List ClassDiagnostic :=
  node.calls.filterMap (abstractInstantiationDiagnostic nodes node)

/-! ## What Python refuses -/

/-- Whether the last of these declarations of a name is abstract; the newest comes first. A setter
is abstract where the property it extends is. -/
def bindsAbstract : List Declaration → Bool
  | [] => false
  | declaration :: earlier =>
    declaration.isAbstractMethod
      || (declaration.methodKind = some .propertySetter && bindsAbstract earlier)

def DefinesAbstract (cls : ClassRef) (name : String) : Prop :=
  bindsAbstract (definitions cls name).reverse = true

/-- The first definition of a name along an order is abstract. -/
def LeftAbstract (order : List ClassRef) (name : String) : Prop :=
  ∃ cls, firstDefining order name = some cls ∧ DefinesAbstract cls name

/-- Python refuses to instantiate the class of an order. -/
def Refused (order : List ClassRef) : Prop := ∃ name, LeftAbstract order name

/-! ## Member by member -/

/-- A class declares a name with an abstract declaration, perhaps among others. -/
def DeclaresAbstract (cls : ClassRef) (name : String) : Prop :=
  ∃ declaration ∈ definitions cls name, declaration.isAbstractMethod = true

/-- The bases of a class that are found under their whole text. -/
def WrittenBase (cls base : ClassRef) : Prop :=
  ∃ text ∈ cls.2.renderedClassBases, resolveDirectBase nodes cls.1 text = some base

/-- A base declares an abstract member that the class has no member of the same kind for. -/
def Unimplemented (cls base : ClassRef) (name : String) : Prop :=
  ∃ kind, (abstractMemberIndex base.1.declarations)[(base.2.name, name)]? = some kind
    ∧ implementsMember cls name kind = false

/-- The check counts a class as abstract because of a member. -/
def ReportedFor (cls : ClassRef) (name : String) : Prop :=
  DeclaresAbstract cls name ∨ ∃ base, WrittenBase nodes cls base ∧ Unimplemented cls base name

/-- Where a class defines a member and leaves it not abstract, no declaration of it is abstract and
it implements what the bases declare. Where it does not define it, the classes behind it in the
order leave it abstract exactly when a base, found under its whole text, declares it abstract. -/
structure ReadRight (cls : ClassRef) (order : List ClassRef) (name : String) : Prop where
  defined : Defines cls name → ¬ DefinesAbstract cls name →
    ¬ DeclaresAbstract cls name ∧ ∀ base, WrittenBase nodes cls base → ¬ Unimplemented cls base name
  inherited : ¬ Defines cls name →
    (LeftAbstract order.tail name ↔ ∃ base, WrittenBase nodes cls base ∧ DeclaresAbstract base name)

end

variable {cls : ClassRef} {name : String}

section

variable {nodes : List ModuleNode}

theorem mem_definitions {declaration : Declaration} : declaration ∈ definitions cls name ↔
      declaration ∈ cls.1.declarations ∧ isOwnedBy cls.2.name declaration = true
        ∧ declaration.name = name := by
  unfold definitions
  rw [List.mem_filter, Bool.and_eq_true, decide_eq_true_eq]

theorem declaresAbstract_of_definesAbstract (h : DefinesAbstract cls name) :
    DeclaresAbstract cls name := by
  have hsome : ∀ declarations, bindsAbstract declarations = true →
      ∃ declaration ∈ declarations, declaration.isAbstractMethod = true := by
    intro declarations
    induction declarations with
    | nil =>
      intro hbinds
      cases hbinds
    | cons declaration earlier ih =>
      intro hbinds
      rw [bindsAbstract, Bool.or_eq_true, Bool.and_eq_true] at hbinds
      rcases hbinds with habstract | ⟨-, hearlier⟩
      · exact ⟨declaration, List.mem_cons_self, habstract⟩
      · obtain ⟨other, hmem, habstract⟩ := ih hearlier
        exact ⟨other, List.mem_cons_of_mem _ hmem, habstract⟩
  obtain ⟨declaration, hmem, habstract⟩ := hsome _ h
  exact ⟨declaration, List.mem_reverse.1 hmem, habstract⟩

theorem defines_of_declaresAbstract (h : DeclaresAbstract cls name) : Defines cls name := by
  obtain ⟨declaration, hmem, -⟩ := h
  exact List.ne_nil_of_mem hmem

/-- The index has an entry for every name a class declares an abstract member of. -/
theorem exists_abstractKind_iff :
    (∃ kind, (abstractMemberIndex cls.1.declarations)[(cls.2.name, name)]? = some kind)
      ↔ DeclaresAbstract cls name := by
  unfold abstractMemberIndex
  rw [getElem?_foldl_insert, ExtTreeMap.getElem?_empty, Option.or_none]
  constructor
  · rintro ⟨kind, hkind⟩
    obtain ⟨declaration, hmem, hentry⟩ := List.mem_filterMap.1 (mem_of_lastEntry hkind)
    split at hentry
    · next habstract =>
        obtain ⟨owner, howner, heq⟩ := Option.map_eq_some_iff.1 hentry
        obtain ⟨hkey, -⟩ := Prod.mk.inj heq
        obtain ⟨hname, hmember⟩ := Prod.mk.inj hkey
        refine ⟨declaration, mem_definitions.2 ⟨hmem, ?_, hmember⟩, habstract⟩
        simp [isOwnedBy, howner, hname]
    · cases hentry
  · rintro ⟨declaration, hmem, habstract⟩
    obtain ⟨hdecl, howned, hname⟩ := mem_definitions.1 hmem
    rw [isOwnedBy, decide_eq_true_eq] at howned
    obtain ⟨owner, howner, hownerName⟩ := Option.map_eq_some_iff.1 howned
    have hentry : ((cls.2.name, name), declaration.kind) ∈
        cls.1.declarations.filterMap fun declaration =>
          if declaration.isAbstractMethod then
            declaration.owner.map fun owner => ((owner.name, declaration.name), declaration.kind)
          else none := by
      refine List.mem_filterMap.2 ⟨declaration, hdecl, ?_⟩
      rw [if_pos habstract, howner, Option.map_some, hownerName, hname]
    exact exists_lastEntry hentry

theorem ownsAbstractMember_iff :
    ownsAbstractMember cls = true ↔ ∃ name, DeclaresAbstract cls name := by
  unfold ownsAbstractMember
  rw [List.any_eq_true]
  constructor
  · rintro ⟨declaration, hmem, h⟩
    obtain ⟨howned, habstract⟩ := Bool.and_eq_true_iff.1 h
    exact ⟨declaration.name, declaration, mem_definitions.2 ⟨hmem, howned, rfl⟩, habstract⟩
  · rintro ⟨name, declaration, hmem, habstract⟩
    obtain ⟨hdecl, howned, -⟩ := mem_definitions.1 hmem
    exact ⟨declaration, hdecl, Bool.and_eq_true_iff.2 ⟨howned, habstract⟩⟩

theorem inheritsAbstractMember_iff : inheritsAbstractMember nodes cls = true ↔
      ∃ name base, WrittenBase nodes cls base ∧ Unimplemented cls base name := by
  unfold inheritsAbstractMember
  rw [List.any_eq_true]
  constructor
  · rintro ⟨text, htext, h⟩
    cases hbase : resolveDirectBase nodes cls.1 text with
    | none =>
      rw [hbase] at h
      cases h
    | some base =>
      rw [hbase] at h
      obtain ⟨⟨⟨owner, name⟩, kind⟩, hentry, h⟩ := List.any_eq_true.1 h
      rw [Bool.and_eq_true, decide_eq_true_eq, Bool.not_eq_true'] at h
      obtain ⟨howner, himplements⟩ := h
      rw [ExtTreeMap.mem_toList_iff_getElem?_eq_some, howner] at hentry
      exact ⟨name, base, ⟨text, htext, hbase⟩, kind, hentry, himplements⟩
  · rintro ⟨name, base, ⟨text, htext, hbase⟩, kind, hentry, himplements⟩
    refine ⟨text, htext, ?_⟩
    rw [hbase]
    refine List.any_eq_true.2 ⟨((base.2.name, name), kind), ?_, ?_⟩
    · exact ExtTreeMap.mem_toList_iff_getElem?_eq_some.2 hentry
    · simp [himplements]

theorem isAbstractClass_iff :
    isAbstractClass nodes cls = true ↔ ∃ name, ReportedFor nodes cls name := by
  unfold isAbstractClass ReportedFor
  rw [Bool.or_eq_true, ownsAbstractMember_iff, inheritsAbstractMember_iff, ← exists_or]

/-- A callee is reported when the one class it names is abstract for the check. -/
theorem abstractCallee_isSome_iff {node : ModuleNode} {callee : String}
    (hresolved : resolveDirectBase nodes node callee = some cls)
    (honly : ∀ declaration, TopLevelClass node declaration → declaration.name = callee →
      (node, declaration) = cls) :
    (abstractCallee nodes node callee).isSome = true ↔ isAbstractClass nodes cls = true := by
  unfold abstractCallee
  split
  · next hmem =>
      obtain ⟨declaration, hdecl, hname⟩ := List.mem_map.1 hmem
      obtain ⟨hdeclared, htest⟩ := List.mem_filter.1 hdecl
      simp only [Bool.and_eq_true, decide_eq_true_eq, Option.isNone_iff_eq_none] at htest
      obtain ⟨⟨hkind, howner⟩, habstract⟩ := htest
      rw [honly declaration ⟨hdeclared, hkind, howner⟩ hname] at habstract
      exact ⟨fun _ => habstract, fun _ => rfl⟩
  · rw [hresolved, Option.bind_some]
    cases isAbstractClass nodes cls <;> simp

/-! ## Where the check agrees with Python -/

theorem leftAbstract_cons {order : List ClassRef} : LeftAbstract (cls :: order) name ↔
      (Defines cls name ∧ DefinesAbstract cls name)
        ∨ (¬ Defines cls name ∧ LeftAbstract order name) := by
  unfold LeftAbstract firstDefining
  by_cases hdefines : Defines cls name
  · rw [List.find?_cons_of_pos (by simpa using hdefines)]
    simp [hdefines]
  · rw [List.find?_cons_of_neg (by simpa using hdefines)]
    simp [hdefines]

/-- Without a definition of its own, a class implements nothing of its bases. -/
theorem unimplemented_of_not_defines {base : ClassRef} (h : ¬ Defines cls name) :
    Unimplemented cls base name ↔ DeclaresAbstract base name := by
  rw [← exists_abstractKind_iff]
  unfold Unimplemented
  constructor
  · rintro ⟨kind, hkind, -⟩
    exact ⟨kind, hkind⟩
  · rintro ⟨kind, hkind⟩
    refine ⟨kind, hkind, ?_⟩
    unfold implementsMember
    rw [List.any_eq_false]
    intro declaration hmem htest
    simp only [Bool.and_eq_true, decide_eq_true_eq] at htest
    have hdefinition := mem_definitions.2 ⟨hmem, htest.1.1.1, htest.1.1.2⟩
    exact h (List.ne_nil_of_mem hdefinition)

theorem readRight_iff {order : List ClassRef} : ReadRight nodes cls (cls :: order) name ↔
      (ReportedFor nodes cls name ↔ LeftAbstract (cls :: order) name) := by
  rw [leftAbstract_cons]
  by_cases hdefines : Defines cls name
  · -- the class decides for itself
    constructor
    · intro h
      constructor
      · intro hreported
        by_contra hleft
        have hnot : ¬ DefinesAbstract cls name := fun habstract =>
          hleft (.inl ⟨hdefines, habstract⟩)
        obtain ⟨hdeclares, hbases⟩ := h.defined hdefines hnot
        rcases hreported with hdeclared | ⟨base, hbase, hunimplemented⟩
        · exact hdeclares hdeclared
        · exact hbases base hbase hunimplemented
      · rintro (⟨-, habstract⟩ | ⟨hnot, -⟩)
        · exact .inl (declaresAbstract_of_definesAbstract habstract)
        · exact absurd hdefines hnot
    · intro h
      constructor
      · intro _ hnot
        have hquiet : ¬ ReportedFor nodes cls name := by
          intro hreported
          rcases h.1 hreported with ⟨-, habstract⟩ | ⟨hnone, -⟩
          · exact hnot habstract
          · exact hnone hdefines
        exact ⟨fun hdeclares => hquiet (.inl hdeclares),
          fun base hbase hunimplemented => hquiet (.inr ⟨base, hbase, hunimplemented⟩)⟩
      · intro hnone
        exact absurd hdefines hnone
  · -- the bases decide, for the check each by itself and for Python the order behind the class
    have hown : ¬ DeclaresAbstract cls name := fun hdeclares =>
      hdefines (defines_of_declaresAbstract hdeclares)
    have hreported : ReportedFor nodes cls name ↔
        ∃ base, WrittenBase nodes cls base ∧ DeclaresAbstract base name := by
      unfold ReportedFor
      simp only [hown, false_or, unimplemented_of_not_defines hdefines]
    rw [hreported]
    constructor
    · intro h
      have hinherited : LeftAbstract order name ↔ _ := h.inherited hdefines
      simp only [hdefines, false_and, false_or, not_false_eq_true, true_and, hinherited]
    · intro h
      simp only [hdefines, false_and, false_or, not_false_eq_true, true_and] at h
      exact ⟨fun hdef => absurd hdef hdefines, fun _ => h.symm⟩

/-- The call of a class is reported exactly when Python refuses it, if and only if every member is
read right, or the class leaves one member abstract and is reported for one. -/
theorem abstractInstantiation_reported_iff {node : ModuleNode} {call : CallSite} {cls : ClassRef}
    {order : List ClassRef} (hresolved : resolveDirectBase nodes node call.callee = some cls)
    (honly : ∀ declaration, TopLevelClass node declaration → declaration.name = call.callee →
      (node, declaration) = cls)
    (horder : HasOrder nodes cls order) :
    ((abstractInstantiationDiagnostic nodes node call).isSome = true ↔ Refused order) ↔
      (∀ name, ReadRight nodes cls order name)
        ∨ (Refused order ∧ ∃ name, ReportedFor nodes cls name) := by
  obtain ⟨rest, rfl⟩ := horder.eq_cons
  have hreported : (abstractInstantiationDiagnostic nodes node call).isSome = true ↔
      ∃ name, ReportedFor nodes cls name := by
    rw [abstractInstantiationDiagnostic, Option.isSome_map,
      abstractCallee_isSome_iff hresolved honly, isAbstractClass_iff]
  rw [hreported]
  constructor
  · intro h
    by_cases hrefused : Refused (cls :: rest)
    · exact .inr ⟨hrefused, h.2 hrefused⟩
    · -- nothing is reported and nothing is left abstract
      left
      intro name
      rw [readRight_iff]
      constructor
      · intro hname
        exact absurd (h.1 ⟨name, hname⟩) hrefused
      · intro hleft
        exact absurd ⟨name, hleft⟩ hrefused
  · rintro (hright | ⟨hrefused, hsome⟩)
    · exact exists_congr fun name => readRight_iff.1 (hright name)
    · exact ⟨fun _ => hrefused, fun _ => hsome⟩

end

/-! ## Shapes -/

/-- `class Shape(ABC)` with an abstract `area`. -/
def shapeDeclaration : Declaration where
  name := "Shape"
  kind := .classDecl
  metadata := .classDecl [{ expr := .name "ABC" }]
  classKind := some .classDecl

def areaDeclaration : Declaration where
  name := "area"
  kind := .function
  metadata := .callable { params := [], returns := some { expr := .name "float" } }
  methodKind := some .instanceMethod
  owner := some { name := "Shape", kind := .classDecl }
  isAbstractMethod := true

/-- `class Round(Shape): pass` -/
def roundDeclaration : Declaration where
  name := "Round"
  kind := .classDecl
  metadata := .classDecl [{ expr := .name "Shape" }]
  classKind := some .classDecl

/-- `class Circle(Round): pass` -/
def circleDeclaration : Declaration where
  name := "Circle"
  kind := .classDecl
  metadata := .classDecl [{ expr := .name "Round" }]
  classKind := some .classDecl

def shapeCall : CallSite where
  callee := "Shape"
  line := 9

def circleCall : CallSite where
  callee := "Circle"
  line := 10

/-- A module with the three classes and the calls `Shape()` and `Circle()`. -/
def shapesModule : ModuleNode where
  moduleKey := "shapes"
  modulePath := "shapes.tpy"
  declarations := [shapeDeclaration, areaDeclaration, roundDeclaration, circleDeclaration]
  calls := [shapeCall, circleCall]

theorem shapesModule_classes {declaration : Declaration}
    (h : TopLevelClass shapesModule declaration) :
    declaration = shapeDeclaration ∨ declaration = roundDeclaration
      ∨ declaration = circleDeclaration := by
  have hmem : declaration ∈ [shapeDeclaration, areaDeclaration, roundDeclaration,
    circleDeclaration] := h.declared
  have hclass := h.isClass
  simp only [List.mem_cons, List.not_mem_nil, or_false] at hmem
  rcases hmem with rfl | rfl | rfl | rfl
  · exact .inl rfl
  · cases hclass
  · exact .inr (.inl rfl)
  · exact .inr (.inr rfl)

theorem shape_definitions (h : name ≠ "area") :
    definitions (shapesModule, shapeDeclaration) name = [] := by
  have hfilter : definitions (shapesModule, shapeDeclaration) name
      = if "area" = name then [areaDeclaration] else [] := by
    by_cases harea : "area" = name
    · rw [if_pos harea, ← harea]
      rfl
    · rw [if_neg harea]
      apply List.filter_eq_nil_iff.2
      intro declaration hmem htest
      have hmem : declaration ∈ [shapeDeclaration, areaDeclaration, roundDeclaration,
        circleDeclaration] := hmem
      simp only [List.mem_cons, List.not_mem_nil, or_false] at hmem
      rcases hmem with rfl | rfl | rfl | rfl <;> simp_all [isOwnedBy, shapeDeclaration,
        areaDeclaration, roundDeclaration, circleDeclaration]
  rw [hfilter, if_neg fun harea => h harea.symm]

theorem shape_readRight (name : String) :
    ReadRight [shapesModule] (shapesModule, shapeDeclaration)
      [(shapesModule, shapeDeclaration)] name := by
  constructor
  · intro hdefines hnot
    by_cases harea : name = "area"
    · rw [harea] at hnot
      exact absurd rfl hnot
    · exact absurd (shape_definitions harea) hdefines
  · intro _
    constructor
    · rintro ⟨cls, hfirst, -⟩
      cases hfirst
    · rintro ⟨base, ⟨text, htext, hbase⟩, -⟩
      obtain rfl := List.mem_singleton.1 htext
      cases hbase

theorem shape_reported_iff_refused :
    ((abstractInstantiationDiagnostic [shapesModule] shapesModule shapeCall).isSome = true
      ↔ Refused [(shapesModule, shapeDeclaration)]) := by
  have honly : ∀ declaration, TopLevelClass shapesModule declaration →
      declaration.name = shapeCall.callee →
      (shapesModule, declaration) = (shapesModule, shapeDeclaration) := by
    intro declaration hclass hname
    rcases shapesModule_classes hclass with rfl | rfl | rfl
    · rfl
    · exact absurd hname (by decide)
    · exact absurd hname (by decide)
  have hresolved : resolveDirectBase [shapesModule] shapesModule shapeCall.callee
      = some (shapesModule, shapeDeclaration) := rfl
  have horder : HasOrder [shapesModule] (shapesModule, shapeDeclaration)
      [(shapesModule, shapeDeclaration)] := ⟨1, rfl⟩
  exact (abstractInstantiation_reported_iff hresolved honly horder).2 (.inl shape_readRight)

/-- `Circle` inherits the abstract member through `Round`, and `Circle()` is not reported. -/
theorem circle_refused_not_reported :
    HasOrder [shapesModule] (shapesModule, circleDeclaration)
        [(shapesModule, circleDeclaration), (shapesModule, roundDeclaration),
          (shapesModule, shapeDeclaration)]
      ∧ ¬ ((abstractInstantiationDiagnostic [shapesModule] shapesModule circleCall).isSome = true
        ↔ Refused [(shapesModule, circleDeclaration), (shapesModule, roundDeclaration),
          (shapesModule, shapeDeclaration)]) := by
  refine ⟨⟨3, rfl⟩, ?_⟩
  intro h
  have hrefused := h.2 ⟨"area", (shapesModule, shapeDeclaration), rfl, rfl⟩
  have honly : ∀ declaration, TopLevelClass shapesModule declaration →
      declaration.name = circleCall.callee →
      (shapesModule, declaration) = (shapesModule, circleDeclaration) := by
    intro declaration hclass hname
    rcases shapesModule_classes hclass with rfl | rfl | rfl
    · exact absurd hname (by decide)
    · exact absurd hname (by decide)
    · rfl
  have hresolved : resolveDirectBase [shapesModule] shapesModule circleCall.callee
      = some (shapesModule, circleDeclaration) := rfl
  rw [abstractInstantiationDiagnostic, Option.isSome_map,
    abstractCallee_isSome_iff hresolved honly, isAbstractClass_iff] at hrefused
  obtain ⟨name, ⟨declaration, hmem, -⟩ | ⟨base, ⟨text, htext, hbase⟩, kind, hkind, -⟩⟩ := hrefused
  · cases hmem
  · -- the one base of `Circle` has no members
    obtain rfl := List.mem_singleton.1 htext
    obtain rfl : (shapesModule, roundDeclaration) = base := Option.some.inj hbase
    obtain ⟨declaration, hmem, -⟩ := exists_abstractKind_iff.1 ⟨kind, hkind⟩
    cases hmem

end TypePython.Checking
