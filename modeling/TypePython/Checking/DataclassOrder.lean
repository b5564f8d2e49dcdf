import TypePython.Checking.DataclassFields

/-!
# Constructors of dataclasses

The parameters of a synthesized constructor and those of the one Python generates. Python goes
through the method resolution order from its end, a field keeps the place where its name came
first, and what declares the name last decides. The two agree in all classes of a hierarchy exactly
when each class declares again only fields that stand last among the inherited ones of their kind,
and declares them first (`shapesAgree_iff`).
-/

namespace TypePython.Checking

open Relation
open TypePython.Lib
open TypePython.Binding

/-! ## Python's fields -/

structure Parameter where
  name : String
  required : Bool
  kwOnly : Bool
deriving DecidableEq

/-- A field as Python collects it. Only some of the fields are parameters of the constructor. -/
structure PythonField where
  name : String
  init : Bool
  required : Bool
  kwOnly : Bool
deriving DecidableEq

def PythonField.parameter (field : PythonField) : Option Parameter :=
  if field.init then
    some { name := field.name, required := field.required, kwOnly := field.kwOnly }
  else none

theorem PythonField.parameter_name (field : PythonField) :
    field.parameter.map Parameter.name = if field.init then some field.name else none := by
  unfold parameter
  split <;> rfl

theorem PythonField.parameter_congr {field field' : PythonField} (hinit : field.init = field'.init)
    (hname : field.name = field'.name) (hkwOnly : field.kwOnly = field'.kwOnly)
    (hrequired : field.init = true → field.required = field'.required) :
    field.parameter = field'.parameter := by
  unfold parameter
  rw [← hinit, ← hname, ← hkwOnly]
  split
  · next h => rw [hrequired h]
  · rfl

def initParameters (fields : List PythonField) : List Parameter :=
  fields.filterMap PythonField.parameter

def DataclassTransformFieldShape.parameter (field : DataclassTransformFieldShape) : Parameter where
  name := field.name
  required := field.required
  kwOnly := field.kwOnly

namespace DataclassTransformFieldSite

variable (field : DataclassTransformFieldSite)

/-- An annotation without a value. -/
def Bare : Prop := ¬ field.hasDefault ∧ ¬ field.recognizedFieldSpecifier

/-- The field is a parameter of the constructor. -/
def IsParameter : Prop := ¬ field.isClassVar ∧ ¬ field.excludedFromInit

end DataclassTransformFieldSite

namespace DataclassTransformClassSite

variable (classSite : DataclassTransformClassSite)

/-- The decorator leaves the class with an attribute of the name: a default, another assignment or
a method, but not a call of `field` without a default. -/
def leavesAttribute (name : String) : Bool :=
  (classSite.fields.any fun field => field.name = name && field.hasDefault
      && (!field.recognizedFieldSpecifier || field.fieldSpecifierHasDefault))
    || name ∈ classSite.untypedFields || name ∈ classSite.methods

/-- A field of the class itself. An annotation without a value has the attribute as default. -/
def pythonOwnField (hasAttribute : String → Bool) (field : DataclassTransformFieldSite) :
    PythonField where
  name := field.name
  init := !field.isClassVar && !field.excludedFromInit
  required :=
    if field.recognizedFieldSpecifier then
      !(field.fieldSpecifierHasDefault || field.fieldSpecifierHasDefaultFactory)
    else !field.hasDefault && !hasAttribute field.name
  kwOnly :=
    if field.recognizedFieldSpecifier then
      field.fieldSpecifierKwOnly.getD classSite.plainDataclassKwOnly
    else classSite.plainDataclassKwOnly

def pythonOwnFields (hasAttribute : String → Bool) : List PythonField :=
  classSite.fields.map (classSite.pythonOwnField hasAttribute)

/-- The body declares no field twice and binds a field that has a value to no other. -/
structure FieldsOnce : Prop where
  distinct : (classSite.fields.map DataclassTransformFieldSite.name).Nodup
  unbound : ∀ field ∈ classSite.fields, field.hasDefault = true →
    field.name ∉ classSite.untypedFields ∧ field.name ∉ classSite.methods

end DataclassTransformClassSite

/-- Fields put into a dictionary one after the other. -/
def setFields (fields later : List PythonField) : List PythonField :=
  later.foldl (setItem PythonField.name) fields

/-! ## Hierarchies -/

/-- A class that derives from plain dataclasses only, with what Python collects for each of them
along its method resolution order. -/
structure DataclassHierarchy (nodes : List ModuleNode)
    (loadDataclassTransformModuleInfo : ModuleNode → Option DataclassTransformModuleInfo)
    (top : ClassRef) where
  site : ClassRef → DataclassTransformClassSite
  order : ClassRef → List ClassRef
  fields : ClassRef → List PythonField
  known : Known nodes top
  found : ∀ cls, ReflTransGen (ListedBase nodes) top cls →
    dataclassSite loadDataclassTransformModuleInfo cls = some (site cls)
  plain : ∀ cls, ReflTransGen (ListedBase nodes) top cls →
    isPlainDataclass cls.2 (site cls) = true
  once : ∀ cls, ReflTransGen (ListedBase nodes) top cls → (site cls).FieldsOnce
  listed : ∀ cls, ReflTransGen (ListedBase nodes) top cls →
    ∀ base ∈ siteBases nodes cls (site cls), ListedBase nodes cls base
  ordered : ∀ cls, ReflTransGen (ListedBase nodes) top cls → HasOrder nodes cls (order cls)
  collected : ∀ cls, ReflTransGen (ListedBase nodes) top cls →
    fields cls = setFields (setFields [] ((order cls).tail.reverse.flatMap fields))
      ((site cls).pythonOwnFields fun name =>
        (order cls).any fun other => (site other).leavesAttribute name)

namespace DataclassHierarchy

variable {nodes : List ModuleNode}
  {loadDataclassTransformModuleInfo : ModuleNode → Option DataclassTransformModuleInfo}
  {top : ClassRef} (h : DataclassHierarchy nodes loadDataclassTransformModuleInfo top)
  (cls : ClassRef)

/-- A class that Python finds an attribute in when it looks the name up on the class. -/
def hasAttribute (name : String) : Bool :=
  (h.order cls).any fun other => (h.site other).leavesAttribute name

def ownFields : List PythonField := (h.site cls).pythonOwnFields (h.hasAttribute cls)

/-- What Python has collected before it comes to the class itself. -/
def inheritedFields : List PythonField :=
  setFields [] ((h.order cls).tail.reverse.flatMap h.fields)

/-- The inherited fields with those the class declares again in their places, as parameters. -/
def inPlace : List Parameter :=
  initParameters ((h.inheritedFields cls).map (replacement PythonField.name (h.ownFields cls)))

/-- The parameters of the bases, base by base, the later one of a name behind all others. -/
def mergedParameters : List Parameter :=
  ((siteBases nodes cls (h.site cls)).map fun base => initParameters (h.fields base)).foldl
    (override Parameter.name) []

/-- The parameters the checker makes of the fields of the class itself. -/
def localParameters : List Parameter :=
  ((h.site cls).fields.filterMap (localFieldShape (h.site cls))).map
    DataclassTransformFieldShape.parameter

/-- The class declares a field of the name, be it a parameter or not. -/
def Declares (name : String) : Prop := name ∈ (h.ownFields cls).map PythonField.name

instance (name : String) : Decidable (h.Declares cls name) :=
  inferInstanceAs (Decidable (name ∈ (h.ownFields cls).map PythonField.name))

/-- The parameters of one kind that a class declares fit what it inherits. -/
structure FitsKind (own : List Parameter) (kwOnly : Bool) : Prop where
  /-- What the bases give, base by base, less the parameters that the class declares again, is what
  Python inherits less all the class declares. -/
  kept : ((h.mergedParameters cls).filter fun parameter =>
        parameter.name ∉ (initParameters (h.ownFields cls)).map Parameter.name).filter
      (fun parameter => parameter.kwOnly = kwOnly)
    = (initParameters ((h.inheritedFields cls).filter fun field =>
        ¬ h.Declares cls field.name)).filter fun parameter => parameter.kwOnly = kwOnly
  /-- Behind an inherited parameter that the class declares again there are only such ones. -/
  last : ((h.inPlace cls).filter fun parameter => parameter.kwOnly = kwOnly).Pairwise
    fun parameter later => h.Declares cls parameter.name → h.Declares cls later.name
  /-- They come first in the class, in the order inherited. -/
  first : own.filter (fun parameter => parameter.kwOnly = kwOnly)
    = ((h.inPlace cls).filter fun parameter => parameter.kwOnly = kwOnly).filter
        (fun parameter => h.Declares cls parameter.name)
      ++ (initParameters ((h.ownFields cls).filter fun field =>
          field.name ∉ (h.inheritedFields cls).map PythonField.name)).filter fun parameter =>
            parameter.kwOnly = kwOnly

/-- The fields of a class fit what it inherits. -/
structure FieldsFit : Prop where
  kinds : ∀ kwOnly, h.FitsKind cls (initParameters (h.ownFields cls)) kwOnly
  /-- No parameter without a value is one of a name that the class has an attribute for. -/
  bare : ∀ field ∈ (h.site cls).fields, field.IsParameter → field.Bare →
    h.hasAttribute cls field.name = false

/-- The checker finds a shape for the class, and its fields are the parameters of the constructor
that Python generates: the positional ones in order, and the keyword-only ones. -/
def ShapeAgrees (resolveDataclassTransformClassShapeFromDecl :
    List ClassKey → ClassRef → Option DataclassTransformClassShape) : Prop :=
  ∃ shape, (∃ depth, ∀ fuel ≥ depth,
      resolvePlainDataclassClassShapeFromDecl nodes loadDataclassTransformModuleInfo
        resolveDataclassTransformClassShapeFromDecl fuel [] cls = some shape)
    ∧ SameByKind Parameter.kwOnly (shape.fields.map DataclassTransformFieldShape.parameter)
        (initParameters (h.fields cls))

/-! ## A class among its bases -/

section

variable {h cls}

theorem mem_initParameters {fields : List PythonField} {parameter : Parameter} :
    parameter ∈ initParameters fields
      ↔ ∃ field ∈ fields, field.init = true
        ∧ parameter = ⟨field.name, field.required, field.kwOnly⟩ := by
  unfold initParameters
  rw [List.mem_filterMap]
  constructor
  · rintro ⟨field, hfield, hparameter⟩
    unfold PythonField.parameter at hparameter
    split at hparameter
    · next hinit => exact ⟨field, hfield, hinit, (Option.some.inj hparameter).symm⟩
    · cases hparameter
  · rintro ⟨field, hfield, hinit, rfl⟩
    exact ⟨field, hfield, if_pos hinit⟩

theorem names_ownFields :
    (h.ownFields cls).map PythonField.name
      = (h.site cls).fields.map DataclassTransformFieldSite.name := by
  unfold ownFields DataclassTransformClassSite.pythonOwnFields
  rw [List.map_map]
  rfl

/-- What Python collects for a class: the inherited fields, those of the class in their places, and
the new ones. -/
theorem initParameters_fields (hreach : ReflTransGen (ListedBase nodes) top cls) :
    initParameters (h.fields cls)
      = h.inPlace cls ++ initParameters ((h.ownFields cls).filter fun field =>
          field.name ∉ (h.inheritedFields cls).map PythonField.name) := by
  have hdistinct : ((h.ownFields cls).map PythonField.name).Nodup := by
    rw [names_ownFields]
    exact (h.once cls hreach).distinct
  have hcollected : h.fields cls = setFields (h.inheritedFields cls) (h.ownFields cls) :=
    h.collected cls hreach
  rw [hcollected, setFields, foldl_setItem hdistinct, replace]
  exact List.filterMap_append

/-- Without those the class declares again, the fields in place are the inherited ones. -/
theorem inPlace_undeclared :
    (h.inPlace cls).filter (fun parameter => ¬ h.Declares cls parameter.name)
      = initParameters ((h.inheritedFields cls).filter fun field =>
          ¬ h.Declares cls field.name) := by
  unfold inPlace
  induction h.inheritedFields cls with
  | nil => rfl
  | cons field rest ih =>
    have hname : (replacement PythonField.name (h.ownFields cls) field).name = field.name :=
      key_replacement
    have hsplit : ∀ (first : PythonField) (others : List PythonField),
        initParameters (first :: others) = first.parameter.toList ++ initParameters others := by
      intro first others
      unfold initParameters
      cases hparameter : first.parameter with
      | none => rw [List.filterMap_cons_none hparameter]; rfl
      | some parameter => rw [List.filterMap_cons_some hparameter]; rfl
    rw [List.map_cons, hsplit, List.filter_append, ih]
    by_cases hdeclared : h.Declares cls field.name
    · -- the field of the class in its place is no inherited one
      have hnone : (replacement PythonField.name (h.ownFields cls) field).parameter.toList.filter
          (fun parameter => ¬ h.Declares cls parameter.name) = [] := by
        rw [List.filter_eq_nil_iff]
        intro parameter hparameter
        have hmem : parameter
            ∈ initParameters [replacement PythonField.name (h.ownFields cls) field] := by
          rw [hsplit]
          exact List.mem_append_left _ hparameter
        obtain ⟨other, hother, -, rfl⟩ := mem_initParameters.1 hmem
        rw [List.mem_singleton.1 hother, hname]
        simpa using hdeclared
      rw [hnone, List.nil_append, List.filter_cons_of_neg (by simpa using hdeclared)]
    · have hsame : replacement PythonField.name (h.ownFields cls) field = field := by
        unfold replacement
        have hnone : (h.ownFields cls).find? (fun other => other.name = field.name) = none := by
          rw [List.find?_eq_none]
          intro other hother heq
          exact hdeclared ((of_decide_eq_true heq) ▸ List.mem_map_of_mem hother)
        rw [hnone, Option.getD_none]
      rw [hsame, List.filter_cons_of_pos (by simpa using hdeclared), hsplit]
      congr 1
      rw [List.filter_eq_self]
      intro parameter hparameter
      have hmem : parameter ∈ initParameters [field] := by
        rw [hsplit]
        exact List.mem_append_left _ hparameter
      obtain ⟨other, hother, -, rfl⟩ := mem_initParameters.1 hmem
      rw [List.mem_singleton.1 hother]
      simpa using hdeclared

/-- What stands in place of a declared name is the field of the class. -/
theorem mem_inPlace_declared {parameter : Parameter} (hmem : parameter ∈ h.inPlace cls)
    (hdeclared : h.Declares cls parameter.name) :
    parameter ∈ initParameters (h.ownFields cls) := by
  obtain ⟨other, hother, hinit, rfl⟩ := mem_initParameters.1 hmem
  obtain ⟨field, -, rfl⟩ := List.mem_map.1 hother
  refine mem_initParameters.2 ⟨_, ?_, hinit, rfl⟩
  have hname : (replacement PythonField.name (h.ownFields cls) field).name = field.name :=
    key_replacement
  dsimp only at hdeclared
  rw [hname] at hdeclared
  unfold replacement
  cases hfound : (h.ownFields cls).find? (fun other => other.name = field.name) with
  | none =>
    obtain ⟨own, hown, heq⟩ := List.mem_map.1 hdeclared
    exact absurd heq (by simpa using List.find?_eq_none.1 hfound own hown)
  | some own => exact List.mem_of_find?_eq_some hfound

end

/-! ## The fields of the class itself -/

section

variable {h cls}

theorem localFieldShape_parameter (field : DataclassTransformFieldSite) :
    (localFieldShape (h.site cls) field).map DataclassTransformFieldShape.parameter
      = ((h.site cls).pythonOwnField (fun _ => false) field).parameter := by
  unfold localFieldShape PythonField.parameter DataclassTransformClassSite.pythonOwnField
  cases field.isClassVar <;> cases field.excludedFromInit <;>
    simp [DataclassTransformFieldShape.parameter]

theorem localParameters_eq :
    h.localParameters cls = initParameters ((h.site cls).pythonOwnFields fun _ => false) := by
  unfold localParameters initParameters DataclassTransformClassSite.pythonOwnFields
  rw [List.map_filterMap, List.filterMap_map]
  exact List.filterMap_congr fun field _ => localFieldShape_parameter field

/-- Attributes decide which parameters are required, and nothing else. -/
theorem names_initParameters (classSite : DataclassTransformClassSite)
    (hasAttribute hasAttribute' : String → Bool) :
    (initParameters (classSite.pythonOwnFields hasAttribute)).map Parameter.name
      = (initParameters (classSite.pythonOwnFields hasAttribute')).map Parameter.name := by
  unfold initParameters DataclassTransformClassSite.pythonOwnFields
  rw [List.filterMap_map, List.filterMap_map, List.map_filterMap, List.map_filterMap]
  apply List.filterMap_congr
  intro field _
  rw [Function.comp, Function.comp, PythonField.parameter_name, PythonField.parameter_name]
  rfl

theorem names_localParameters :
    (h.localParameters cls).map Parameter.name
      = (initParameters (h.ownFields cls)).map Parameter.name := by
  rw [localParameters_eq]
  exact names_initParameters _ _ _

/-- The two agree where no parameter without a value has an attribute for a default. -/
theorem localParameters_eq_of_bare (hbare : ∀ field ∈ (h.site cls).fields, field.IsParameter →
      field.Bare → h.hasAttribute cls field.name = false) :
    h.localParameters cls = initParameters (h.ownFields cls) := by
  rw [localParameters_eq]
  unfold ownFields initParameters DataclassTransformClassSite.pythonOwnFields
  rw [List.filterMap_map, List.filterMap_map]
  apply List.filterMap_congr
  intro field hfield
  refine PythonField.parameter_congr rfl rfl rfl fun hinit => ?_
  have hparameter : field.IsParameter := by
    simpa [DataclassTransformClassSite.pythonOwnField, DataclassTransformFieldSite.IsParameter]
      using hinit
  unfold DataclassTransformClassSite.pythonOwnField
  dsimp only
  by_cases hspecifier : field.recognizedFieldSpecifier = true
  · rw [if_pos hspecifier, if_pos hspecifier]
  · rw [if_neg hspecifier, if_neg hspecifier]
    by_cases hdefault : field.hasDefault = true
    · rw [hdefault]
      rfl
    · rw [hbare field hfield hparameter ⟨hdefault, hspecifier⟩]

/-- A parameter without a value that has an attribute is not the one that the checker makes. -/
theorem bare_of_subset (hdistinct : ((h.site cls).fields.map
      DataclassTransformFieldSite.name).Nodup)
    (hsubset : ∀ parameter ∈ h.localParameters cls, parameter ∈ initParameters (h.ownFields cls)) :
    ∀ field ∈ (h.site cls).fields, field.IsParameter → field.Bare →
      h.hasAttribute cls field.name = false := by
  intro field hfield hparameter hbare
  have hinit : (!field.isClassVar && !field.excludedFromInit) = true := by
    rw [Bool.and_eq_true, Bool.not_eq_true', Bool.not_eq_true', ← Bool.not_eq_true,
      ← Bool.not_eq_true]
    exact hparameter
  have hmem : (⟨field.name, true, ((h.site cls).pythonOwnField (fun _ => false) field).kwOnly⟩ :
      Parameter) ∈ h.localParameters cls := by
    rw [localParameters_eq]
    refine mem_initParameters.2 ⟨_, List.mem_map_of_mem hfield, hinit, ?_⟩
    simp [DataclassTransformClassSite.pythonOwnField, hbare.1, hbare.2]
  obtain ⟨own, hown, -, heq⟩ := mem_initParameters.1 (hsubset _ hmem)
  obtain ⟨other, hother, rfl⟩ := List.mem_map.1 hown
  -- the name is declared once, so this is the field itself
  have hsame : other = field :=
    List.inj_on_of_nodup_map hdistinct hother hfield (congrArg Parameter.name heq).symm
  have hrequired := congrArg Parameter.required heq
  rw [hsame] at hrequired
  simpa [DataclassTransformClassSite.pythonOwnField, hbare.1, hbare.2] using hrequired

/-- One class: if the checker has the parameters of the bases right, it has those of the class
right when the fields fit. -/
theorem agrees_iff_fieldsFit (hreach : ReflTransGen (ListedBase nodes) top cls) :
    SameByKind Parameter.kwOnly
        (override Parameter.name (h.mergedParameters cls) (h.localParameters cls))
        (initParameters (h.fields cls))
      ↔ h.FieldsFit cls := by
  have hdistinct := (h.once cls hreach).distinct
  have hdeclared : ∀ parameter ∈ initParameters (h.ownFields cls),
      h.Declares cls parameter.name := by
    intro parameter hparameter
    obtain ⟨field, hfield, -, rfl⟩ := mem_initParameters.1 hparameter
    exact List.mem_map_of_mem hfield
  have hlocal : ∀ parameter ∈ h.localParameters cls, h.Declares cls parameter.name := by
    intro parameter hparameter
    have hname : parameter.name ∈ (initParameters (h.ownFields cls)).map Parameter.name := by
      rw [← names_localParameters]
      exact List.mem_map_of_mem hparameter
    obtain ⟨own, hown, heq⟩ := List.mem_map.1 hname
    rw [← heq]
    exact hdeclared own hown
  have hnames : (h.localParameters cls).map Parameter.name
      = (initParameters (h.ownFields cls)).map Parameter.name := names_localParameters
  -- for each kind, what is taken out of its place is put behind the rest
  have hkind : ∀ kwOnly, ((override Parameter.name (h.mergedParameters cls)
          (h.localParameters cls)).filter (fun parameter => parameter.kwOnly = kwOnly)
        = (initParameters (h.fields cls)).filter fun parameter => parameter.kwOnly = kwOnly)
      ↔ h.FitsKind cls (h.localParameters cls) kwOnly := by
    intro kwOnly
    have hparts : h.FitsKind cls (h.localParameters cls) kwOnly ↔ _ ∧ _ ∧ _ :=
      ⟨fun hfits => ⟨hfits.kept, hfits.last, hfits.first⟩, fun hfits =>
        ⟨hfits.1, hfits.2.1, hfits.2.2⟩⟩
    unfold override
    rw [hparts, List.filter_append, initParameters_fields hreach, List.filter_append, hnames,
      ← inPlace_undeclared, List.filter_comm _ _ (h.inPlace cls)]
    apply kept_append_iff
    · intro parameter hparameter
      exact hlocal parameter (List.mem_of_mem_filter hparameter)
    · intro parameter hparameter
      obtain ⟨field, hfield, -, rfl⟩ := mem_initParameters.1 (List.mem_of_mem_filter hparameter)
      exact List.mem_map_of_mem (List.mem_of_mem_filter hfield)
    · -- a kept parameter is none of the fields the class declares, whatever these are
      intro heq parameter hparameter hname
      have hkept := List.mem_filter.1 (List.mem_of_mem_filter hparameter)
      refine of_decide_eq_true hkept.2 (List.mem_map_of_mem ?_)
      have hmem : parameter ∈ _ ++ _ := heq ▸ List.mem_append_left _ hparameter
      rcases List.mem_append.1 hmem with hplace | hnew
      · exact mem_inPlace_declared (List.mem_of_mem_filter hplace) hname
      · obtain ⟨field, hfield, hinit, rfl⟩ :=
          mem_initParameters.1 (List.mem_of_mem_filter hnew)
        exact mem_initParameters.2 ⟨field, List.mem_of_mem_filter hfield, hinit, rfl⟩
  constructor
  · intro hsame
    have hfits := fun kwOnly => (hkind kwOnly).1 (hsame kwOnly)
    have hbare := bare_of_subset hdistinct fun parameter hparameter => by
      have hmoved : parameter ∈ (h.localParameters cls).filter
          fun other => other.kwOnly = parameter.kwOnly :=
        List.mem_filter.2 ⟨hparameter, by simp⟩
      rw [(hfits parameter.kwOnly).first] at hmoved
      rcases List.mem_append.1 hmoved with hplace | hnew
      · have hplace := List.mem_filter.1 hplace
        exact mem_inPlace_declared (List.mem_of_mem_filter hplace.1) (of_decide_eq_true hplace.2)
      · obtain ⟨field, hfield, hinit, rfl⟩ :=
          mem_initParameters.1 (List.mem_of_mem_filter hnew)
        exact mem_initParameters.2 ⟨field, List.mem_of_mem_filter hfield, hinit, rfl⟩
    rw [localParameters_eq_of_bare hbare] at hfits
    exact ⟨hfits, hbare⟩
  · intro hfits kwOnly
    rw [hkind kwOnly, localParameters_eq_of_bare hfits.bare]
    exact hfits.kinds kwOnly

/-! ## A whole hierarchy -/

section

variable {resolveDataclassTransformClassShapeFromDecl :
    List ClassKey → ClassRef → Option DataclassTransformClassShape}

/-- No way up a hierarchy goes on for ever. -/
theorem acc (h : DataclassHierarchy nodes loadDataclassTransformModuleInfo top)
    (hreach : ReflTransGen (ListedBase nodes) top cls) :
    Acc (flip (ListedBase nodes)) cls :=
  (h.ordered cls hreach).acc

/-- The shape of a class from the shapes of its bases. -/
theorem isShape_step (h : DataclassHierarchy nodes loadDataclassTransformModuleInfo top)
    (hreach : ReflTransGen (ListedBase nodes) top cls)
    {shapeOf : ClassRef → DataclassTransformClassShape}
    (hbases : ∀ base ∈ siteBases nodes cls (h.site cls),
      IsShape nodes loadDataclassTransformModuleInfo resolveDataclassTransformClassShapeFromDecl
        base (shapeOf base)) :
    IsShape nodes loadDataclassTransformModuleInfo resolveDataclassTransformClassShapeFromDecl cls
      (classShape cls (h.site cls) ((siteBases nodes cls (h.site cls)).map shapeOf)) :=
  IsShape.step (h.found cls hreach) (h.plain cls hreach) (h.known.reaches hreach) (h.acc hreach)
    (h.listed cls hreach) hbases

theorem exists_shape (h : DataclassHierarchy nodes loadDataclassTransformModuleInfo top)
    (hreach : ReflTransGen (ListedBase nodes) top cls) :
    ∃ shape, IsShape nodes loadDataclassTransformModuleInfo
      resolveDataclassTransformClassShapeFromDecl cls shape := by
  have hacc := h.acc hreach
  induction hacc with
  | intro cls _ ih =>
    have hbases : ∀ base, base ∈ siteBases nodes cls (h.site cls) → ∃ shape,
        IsShape nodes loadDataclassTransformModuleInfo
          resolveDataclassTransformClassShapeFromDecl base shape := by
      intro base hbase
      have hlisted := h.listed cls hreach base hbase
      exact ih base hlisted (hreach.tail hlisted)
    classical
    choose shapeAt hshapeAt using hbases
    let shapeOf : ClassRef → DataclassTransformClassShape := fun base =>
      if hbase : base ∈ siteBases nodes cls (h.site cls) then shapeAt base hbase
      else classShape cls (h.site cls) []
    refine ⟨_, @isShape_step _ _ _ _ _ h hreach shapeOf ?_⟩
    intro base hbase
    have heq : shapeOf base = shapeAt base hbase := dif_pos hbase
    rw [heq]
    exact hshapeAt base hbase

/-- The fields of a shape have different names. -/
theorem nodup_classShape (classSite : DataclassTransformClassSite)
    (inherited : List DataclassTransformClassShape) :
    ((classShape cls classSite inherited).fields.map DataclassTransformFieldShape.name).Nodup := by
  refine nodup_foldl_moveToEnd _ ?_
  induction inherited.map DataclassTransformClassShape.fields using List.reverseRecOn with
  | nil => exact List.nodup_nil
  | append_singleton earlier fields ih =>
    rw [List.foldl_append]
    exact nodup_foldl_moveToEnd _ ih

theorem localFields_sublist (classSite : DataclassTransformClassSite)
    (fields : List DataclassTransformFieldSite) :
    ((fields.filterMap (localFieldShape classSite)).map DataclassTransformFieldShape.name).Sublist
      (fields.map DataclassTransformFieldSite.name) := by
  induction fields with
  | nil => exact .slnil
  | cons field rest ih =>
    cases hlocal : localFieldShape classSite field with
    | none =>
      rw [List.filterMap_cons_none hlocal]
      exact ih.cons field.name
    | some shape =>
      have hname : shape.name = field.name := by
        unfold localFieldShape at hlocal
        split at hlocal
        · cases hlocal
        · rw [← Option.some.inj hlocal]
      rw [List.filterMap_cons_some hlocal, List.map_cons, List.map_cons, hname]
      exact ih.cons_cons field.name

/-- The parameters of merged shapes are the merged parameters. -/
theorem parameters_mergeFields {fields later : List DataclassTransformFieldShape}
    (hfields : (fields.map DataclassTransformFieldShape.name).Nodup)
    (hlater : (later.map DataclassTransformFieldShape.name).Nodup) :
    (mergeFields fields later).map DataclassTransformFieldShape.parameter
      = override Parameter.name (fields.map DataclassTransformFieldShape.parameter)
          (later.map DataclassTransformFieldShape.parameter) := by
  unfold mergeFields
  rw [foldl_moveToEnd hfields hlater]
  have hname : ∀ field : DataclassTransformFieldShape, field.parameter.name = field.name :=
    fun _ => rfl
  exact map_override hname fields later

/-- Shapes that have the parameters of the bases right are merged into those of the bases. -/
theorem mergedParameters_of_agree {shapeOf : ClassRef → DataclassTransformClassShape}
    {bases : List ClassRef}
    (hshapes : ∀ base ∈ bases,
      ((shapeOf base).fields.map DataclassTransformFieldShape.name).Nodup
        ∧ SameByKind Parameter.kwOnly
            ((shapeOf base).fields.map DataclassTransformFieldShape.parameter)
            (initParameters (h.fields base))) :
    (((bases.map fun base => (shapeOf base).fields).foldl mergeFields []).map
        DataclassTransformFieldShape.name).Nodup
      ∧ SameByKind Parameter.kwOnly
          (((bases.map fun base => (shapeOf base).fields).foldl mergeFields []).map
            DataclassTransformFieldShape.parameter)
          ((bases.map fun base => initParameters (h.fields base)).foldl
            (override Parameter.name) []) := by
  induction bases using List.reverseRecOn with
  | nil => exact ⟨List.nodup_nil, fun _ => rfl⟩
  | append_singleton bases base ih =>
    have ⟨hdistinct, hearlier⟩ := ih fun other hother =>
      hshapes other (List.mem_append_left _ hother)
    have ⟨hnodup, hbase⟩ := hshapes base (List.mem_append_right _ List.mem_cons_self)
    simp only [List.map_append, List.foldl_append, List.map_cons, List.map_nil, List.foldl_cons,
      List.foldl_nil]
    refine ⟨nodup_foldl_moveToEnd _ hdistinct, ?_⟩
    rw [parameters_mergeFields hdistinct hnodup]
    exact hearlier.override hbase

/-- What is found for a class decides whether it agrees. -/
theorem shapeAgrees_iff_of_isShape {shape : DataclassTransformClassShape}
    (hshape : IsShape nodes loadDataclassTransformModuleInfo
      resolveDataclassTransformClassShapeFromDecl cls shape) :
    h.ShapeAgrees cls resolveDataclassTransformClassShapeFromDecl
      ↔ SameByKind Parameter.kwOnly
          (shape.fields.map DataclassTransformFieldShape.parameter)
          (initParameters (h.fields cls)) := by
  have ⟨depth, hdepth⟩ := hshape
  constructor
  · rintro ⟨shape', ⟨depth', hdepth'⟩, hsame⟩
    have hfound := hdepth (max depth depth') (by omega) [] (clear_nil cls)
    rw [hdepth' (max depth depth') (by omega)] at hfound
    rwa [← Option.some.inj hfound]
  · intro hsame
    exact ⟨shape, ⟨depth, fun fuel hfuel => hdepth fuel hfuel [] (clear_nil cls)⟩, hsame⟩

/-- The shapes of a whole hierarchy. -/
theorem exists_shapes (h : DataclassHierarchy nodes loadDataclassTransformModuleInfo top) :
    ∃ shapeOf : ClassRef → DataclassTransformClassShape,
      ∀ cls, ReflTransGen (ListedBase nodes) top cls →
        IsShape nodes loadDataclassTransformModuleInfo
          resolveDataclassTransformClassShapeFromDecl cls (shapeOf cls) := by
  have hexists : ∀ cls, ReflTransGen (ListedBase nodes) top cls → ∃ shape,
      IsShape nodes loadDataclassTransformModuleInfo resolveDataclassTransformClassShapeFromDecl
        cls shape := fun cls => h.exists_shape
  classical
  choose shapeAt hshapeAt using hexists
  refine ⟨fun cls => if hreach : ReflTransGen (ListedBase nodes) top cls then shapeAt cls hreach
    else classShape cls (h.site cls) [], ?_⟩
  intro cls hreach
  dsimp only
  rw [dif_pos hreach]
  exact hshapeAt cls hreach

/-- One class: where the bases agree, the class does when its fields fit. -/
theorem shapeAgrees_iff_fieldsFit (hreach : ReflTransGen (ListedBase nodes) top cls)
    (hbases : ∀ base, ListedBase nodes cls base →
      h.ShapeAgrees base resolveDataclassTransformClassShapeFromDecl) :
    h.ShapeAgrees cls resolveDataclassTransformClassShapeFromDecl ↔ h.FieldsFit cls := by
  have ⟨shapeOf, hshapeOf⟩ :=
    @exists_shapes _ _ _ resolveDataclassTransformClassShapeFromDecl h
  have hstep : ∀ other, ReflTransGen (ListedBase nodes) top other →
      IsShape nodes loadDataclassTransformModuleInfo resolveDataclassTransformClassShapeFromDecl
        other (classShape other (h.site other)
          ((siteBases nodes other (h.site other)).map shapeOf)) := by
    intro other hother
    apply h.isShape_step hother
    intro base hbase
    exact hshapeOf base (hother.tail (h.listed other hother base hbase))
  have hshapes : ∀ base ∈ siteBases nodes cls (h.site cls),
      ((shapeOf base).fields.map DataclassTransformFieldShape.name).Nodup
        ∧ SameByKind Parameter.kwOnly
            ((shapeOf base).fields.map DataclassTransformFieldShape.parameter)
            (initParameters (h.fields base)) := by
    intro base hbase
    have hlisted := h.listed cls hreach base hbase
    have hshape := hshapeOf base (hreach.tail hlisted)
    refine ⟨?_, (shapeAgrees_iff_of_isShape hshape).1 (hbases base hlisted)⟩
    rw [hshape.unique (hstep base (hreach.tail hlisted))]
    exact nodup_classShape _ _
  obtain ⟨hdistinct, hmerged⟩ := mergedParameters_of_agree hshapes
  have hlocal := (h.once cls hreach).distinct.sublist
    (localFields_sublist (h.site cls) (h.site cls).fields)
  rw [shapeAgrees_iff_of_isShape (hstep cls hreach), ← agrees_iff_fieldsFit hreach]
  have hsame : SameByKind Parameter.kwOnly
      ((classShape cls (h.site cls) ((siteBases nodes cls (h.site cls)).map shapeOf)).fields.map
        DataclassTransformFieldShape.parameter)
      (override Parameter.name (h.mergedParameters cls) (h.localParameters cls)) := by
    unfold classShape
    dsimp only
    rw [List.map_map]
    have hmerge := parameters_mergeFields hdistinct hlocal
    exact hmerge ▸ hmerged.override fun _ => rfl
  exact ⟨hsame.symm.trans, hsame.trans⟩

end

end

/-- In all classes of a hierarchy the synthesized constructor has the parameters of the one that
Python generates exactly when the fields of every class fit what it inherits. -/
theorem shapesAgree_iff (resolveDataclassTransformClassShapeFromDecl :
      List ClassKey → ClassRef → Option DataclassTransformClassShape) :
    (∀ cls, ReflTransGen (ListedBase nodes) top cls →
        h.ShapeAgrees cls resolveDataclassTransformClassShapeFromDecl)
      ↔ ∀ cls, ReflTransGen (ListedBase nodes) top cls → h.FieldsFit cls := by
  constructor
  · intro hall cls hreach
    exact (shapeAgrees_iff_fieldsFit hreach fun base hbase => hall base (hreach.tail hbase)).1
      (hall cls hreach)
  · intro hfits cls hreach
    -- from the bases up: a class has no bases but smaller ones
    have hacc := h.acc hreach
    induction hacc with
    | intro cls _ ih =>
      exact (shapeAgrees_iff_fieldsFit hreach fun base hbase =>
        ih base hbase (hreach.tail hbase)).2 (hfits cls hreach)

end DataclassHierarchy

/-! ## A field declared again -/

/-- `name: int`, without a value -/
def intField (name : String) : DataclassTransformFieldSite where
  name := name
  annotation := "int"
  annotationExpr := some (.name "int")
  hasDefault := false
  isClassVar := false
  fieldSpecifierName := none
  fieldSpecifierHasDefault := false
  fieldSpecifierHasDefaultFactory := false
  fieldSpecifierInit := none
  fieldSpecifierKwOnly := none

def dataclassSiteOf (name : String) (bases fields : List String) : DataclassTransformClassSite where
  name := name
  decorators := ["dataclass"]
  plainDataclassFrozen := false
  plainDataclassKwOnly := false
  plainDataclassInit := true
  bases := bases
  methods := []
  fields := fields.map intField
  untypedFields := []
  line := 1

/-- `class Point` with the fields `x` and `y`, `class Shifted(Point)` with `x` again -/
def pointModule : ModuleNode where
  moduleKey := "points"
  declarations := [plainClass "Point" [], plainClass "Shifted" [.name "Point"]]

def pointInfo : DataclassTransformModuleInfo where
  classes := [dataclassSiteOf "Point" [] ["x", "y"], dataclassSiteOf "Shifted" ["Point"] ["x"]]

def pointClass : ClassRef := (pointModule, plainClass "Point" [])

def shiftedClass : ClassRef := (pointModule, plainClass "Shifted" [.name "Point"])

theorem shifted_reaches {cls : ClassRef}
    (h : ReflTransGen (ListedBase [pointModule]) shiftedClass cls) :
    cls = shiftedClass ∨ cls = pointClass := by
  induction h with
  | refl => exact .inl rfl
  | tail _ hlisted ih =>
    rcases ih with rfl | rfl
    · exact .inr (List.mem_singleton.1 hlisted)
    · cases hlisted

def requiredField (name : String) : PythonField where
  name := name
  init := true
  required := true
  kwOnly := false

def shiftedHierarchy :
    DataclassHierarchy [pointModule] (fun _ => some pointInfo) shiftedClass where
  site := fun cls =>
    if cls.2.name = "Point" then dataclassSiteOf "Point" [] ["x", "y"]
    else dataclassSiteOf "Shifted" ["Point"] ["x"]
  order := fun cls => if cls.2.name = "Point" then [pointClass] else [shiftedClass, pointClass]
  fields := fun _ => [requiredField "x", requiredField "y"]
  known := ⟨rfl, rfl⟩
  found := by
    intro cls hcls
    rcases shifted_reaches hcls with rfl | rfl <;> rfl
  plain := by
    intro cls hcls
    rcases shifted_reaches hcls with rfl | rfl <;> rfl
  once := by
    intro cls hcls
    rcases shifted_reaches hcls with rfl | rfl
    · exact ⟨List.nodup_singleton _, fun _ _ _ => ⟨List.not_mem_nil, List.not_mem_nil⟩⟩
    · exact ⟨by decide, fun _ _ _ => ⟨List.not_mem_nil, List.not_mem_nil⟩⟩
  listed := by
    intro cls hcls base hbase
    rcases shifted_reaches hcls with rfl | rfl
    · have hlisted : listedBases [pointModule] shiftedClass = siteBases [pointModule] shiftedClass
          (dataclassSiteOf "Shifted" ["Point"] ["x"]) := by
        decide +kernel
      rw [ListedBase, hlisted]
      exact hbase
    · cases hbase
  ordered := by
    intro cls hcls
    rcases shifted_reaches hcls with rfl | rfl
    · exact ⟨2, rfl⟩
    · exact ⟨1, rfl⟩
  collected := by
    intro cls hcls
    rcases shifted_reaches hcls with rfl | rfl <;> rfl

/-- Python's constructor is `(x, y)`, the synthesized one `(y, x)`. -/
theorem shifted_not_shapeAgrees :
    (initParameters (shiftedHierarchy.fields shiftedClass)).map Parameter.name = ["x", "y"]
      ∧ ¬ shiftedHierarchy.ShapeAgrees shiftedClass fun _ _ => none := by
  refine ⟨rfl, ?_⟩
  rintro ⟨shape, ⟨depth, hdepth⟩, hsame⟩
  have hfound := hdepth (depth + 2) (by omega)
  have hnames : (resolvePlainDataclassClassShapeFromDecl [pointModule] (fun _ => some pointInfo)
      (fun _ _ => none) (depth + 2) [] shiftedClass).map
        (fun shape => (shape.fields.map DataclassTransformFieldShape.parameter).filter
          fun parameter => parameter.kwOnly = false)
      = some [⟨"y", true, false⟩, ⟨"x", true, false⟩] := rfl
  rw [hfound] at hnames
  have hpositional := Option.some.inj hnames
  dsimp only at hpositional
  rw [hsame false] at hpositional
  exact absurd hpositional (by decide)

end TypePython.Checking
