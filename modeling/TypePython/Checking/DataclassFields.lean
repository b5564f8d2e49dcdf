import TypePython.Checking.MemberOrder
import TypePython.Lib.KeyedLists
import TypePython.Lib.Cycles

/-!
# Fields of dataclasses

The fields of the constructor that the checker gives a dataclass. The shapes of the bases are
merged in the order of the list, and a field with the name of an earlier one takes it out and goes
behind all others. Where no way up the bases comes back to a class, a class has one shape
(`IsShape.unique`), which is what the shapes of its bases and its own fields come to
(`IsShape.step`).
-/

namespace TypePython.Checking

open Relation
open TypePython.Lib
open TypePython.Syntax
open TypePython.Binding

/-! ## What is collected from the source -/

/-- A field a class body annotates. -/
structure DataclassTransformFieldSite where
  name : String
  annotation : String
  annotationExpr : Option TypeExpr
  hasDefault : Bool
  isClassVar : Bool
  fieldSpecifierName : Option String
  fieldSpecifierHasDefault : Bool
  fieldSpecifierHasDefaultFactory : Bool
  fieldSpecifierInit : Option Bool
  fieldSpecifierKwOnly : Option Bool

namespace DataclassTransformFieldSite

variable (field : DataclassTransformFieldSite)

def renderedAnnotation : String :=
  (field.annotationExpr.map TypeExpr.render).getD ( field.annotation)

def recognizedFieldSpecifier : Bool :=
  field.fieldSpecifierName.any fun name => name ∈ ["field", "dataclasses.field"]

/-- A call of `field` that takes the field out of the constructor. -/
def excludedFromInit : Bool :=
  field.recognizedFieldSpecifier && field.fieldSpecifierInit = some false

end DataclassTransformFieldSite

structure DataclassTransformClassSite where
  name : String
  decorators : List String
  plainDataclassFrozen : Bool
  plainDataclassKwOnly : Bool
  plainDataclassInit : Bool
  bases : List String
  methods : List String
  fields : List DataclassTransformFieldSite
  untypedFields : List String
  line : Nat

structure DataclassTransformModuleInfo where
  classes : List DataclassTransformClassSite

/-! ## Shapes -/

structure DataclassTransformFieldShape where
  name : String
  keywordName : String
  annotation : String
  annotationExpr : Option TypeExpr
  semanticType : Option SemanticType
  required : Bool
  kwOnly : Bool
  frozen : Bool

structure DataclassTransformClassShape where
  fields : List DataclassTransformFieldShape
  frozen : Bool
  hasExplicitInit : Bool
  originPath : Option String
  originLine : Option Nat

def semanticTypeFromTypeParts (renderedType : String) (parsedType : Option TypeExpr) :
    Option SemanticType :=
  (parsedType.map lowerTypeExpr).or
    (if renderedType = "" then none else some (lowerTypeTextOrName renderedType))

def isPlainDataclass (classDecl : Declaration) (classSite : DataclassTransformClassSite) : Bool :=
  classDecl.classKind = some .dataClass
    || classSite.decorators.any fun decorator =>
      decorator ∈ ["dataclass", "dataclasses.dataclass"]

/-- The parameter a field of the class itself becomes. -/
def localFieldShape (classSite : DataclassTransformClassSite) (field : DataclassTransformFieldSite) :
    Option DataclassTransformFieldShape :=
  if field.isClassVar || field.excludedFromInit then none
  else
    some {
      name := field.name
      keywordName := field.name
      annotation := field.renderedAnnotation
      annotationExpr := field.annotationExpr
      semanticType := semanticTypeFromTypeParts field.renderedAnnotation field.annotationExpr
      required :=
        if field.recognizedFieldSpecifier then
          !(field.fieldSpecifierHasDefault || field.fieldSpecifierHasDefaultFactory)
        else !field.hasDefault
      kwOnly :=
        if field.recognizedFieldSpecifier then
          field.fieldSpecifierKwOnly.getD classSite.plainDataclassKwOnly
        else classSite.plainDataclassKwOnly
      frozen := false }

/-- Add the fields of a shape behind the fields that are there, in the place of their names. -/
def mergeFields (fields later : List DataclassTransformFieldShape) :
    List DataclassTransformFieldShape :=
  later.foldl (moveToEnd DataclassTransformFieldShape.name) fields

/-- The shape of a class whose bases have shapes. -/
def classShape (cls : ClassRef) (classSite : DataclassTransformClassSite)
    (inherited : List DataclassTransformClassShape) : DataclassTransformClassShape where
  fields :=
    mergeFields ((inherited.map DataclassTransformClassShape.fields).foldl mergeFields [])
      (classSite.fields.filterMap (localFieldShape classSite))
  frozen := classSite.plainDataclassFrozen
  hasExplicitInit := !classSite.plainDataclassInit || "__init__" ∈ classSite.methods
  originPath := some cls.1.modulePath
  originLine := some classSite.line

section

variable (nodes : List ModuleNode)
  (loadDataclassTransformModuleInfo : ModuleNode → Option DataclassTransformModuleInfo)
  (resolveDataclassTransformClassShapeFromDecl :
    List ClassKey → ClassRef → Option DataclassTransformClassShape)

def dataclassSite (cls : ClassRef) : Option DataclassTransformClassSite :=
  (loadDataclassTransformModuleInfo cls.1).bind fun info =>
    info.classes.find? fun classSite => classSite.name = cls.2.name

/-- The shape of a class, when it is a plain dataclass that is not among the classes on the way
to it. -/
def resolvePlainDataclassClassShapeFromDecl :
    Nat → List ClassKey → ClassRef → Option DataclassTransformClassShape
  | 0, _, _ => none
  | fuel + 1, visiting, cls =>
    if cls.key ∈ visiting then none
    else
      (dataclassSite loadDataclassTransformModuleInfo cls).bind fun classSite =>
        if isPlainDataclass cls.2 classSite then
          some (classShape cls classSite (classSite.bases.filterMap fun text =>
            (resolveDirectBase nodes cls.1 text).bind fun (base : ClassRef) =>
              -- the first search leaves the base among the classes on the way
              (resolvePlainDataclassClassShapeFromDecl fuel (cls.key :: visiting) base).or
                (resolveDataclassTransformClassShapeFromDecl
                  (base.key :: cls.key :: visiting) base)))
        else none

/-- The bases of a class that are found under the names its site has for them. -/
def siteBases (cls : ClassRef) (classSite : DataclassTransformClassSite) : List ClassRef :=
  classSite.bases.filterMap (resolveDirectBase nodes cls.1)

/-- Neither the class nor any it derives from is among the classes on the way. -/
def Clear (visiting : List ClassKey) (cls : ClassRef) : Prop :=
  ∀ base, ReflTransGen (ListedBase nodes) cls base → base.key ∉ visiting

/-- `shape` is what is found for a class, however the search comes to it. -/
def IsShape (cls : ClassRef) (shape : DataclassTransformClassShape) : Prop :=
  ∃ depth, ∀ fuel ≥ depth, ∀ visiting, Clear nodes visiting cls →
    resolvePlainDataclassClassShapeFromDecl nodes loadDataclassTransformModuleInfo
      resolveDataclassTransformClassShapeFromDecl fuel visiting cls = some shape

end

section

variable {nodes : List ModuleNode}
  {loadDataclassTransformModuleInfo : ModuleNode → Option DataclassTransformModuleInfo}
  {resolveDataclassTransformClassShapeFromDecl :
    List ClassKey → ClassRef → Option DataclassTransformClassShape}

/-! ## One shape for a class -/

theorem clear_nil (cls : ClassRef) : Clear nodes [] cls := fun _ _ => List.not_mem_nil

theorem IsShape.unique {cls : ClassRef} {shape shape' : DataclassTransformClassShape}
    (h : IsShape nodes loadDataclassTransformModuleInfo resolveDataclassTransformClassShapeFromDecl
      cls shape)
    (h' : IsShape nodes loadDataclassTransformModuleInfo
      resolveDataclassTransformClassShapeFromDecl cls shape') : shape = shape' := by
  have ⟨depth, hshape⟩ := h
  have ⟨depth', hshape'⟩ := h'
  have heq := hshape (max depth depth') (by omega) [] (clear_nil cls)
  rw [hshape' (max depth depth') (by omega) [] (clear_nil cls)] at heq
  exact (Option.some.inj heq).symm

/-- No base comes back to a class on the way to it. -/
theorem Clear.base {cls base : ClassRef} {visiting : List ClassKey} (hknown : Known nodes cls)
    (hacc : Acc (flip (ListedBase nodes)) cls) (h : Clear nodes visiting cls)
    (hbase : ListedBase nodes cls base) : Clear nodes (cls.key :: visiting) base := by
  intro other hother hmem
  rcases List.mem_cons.1 hmem with hkey | hmem
  · have hsame : other = cls := (hknown.reaches (.head hbase hother)).eq_of_key hknown hkey
    exact not_transGen_of_acc hacc (.head' hbase (hsame ▸ hother))
  · exact h other (.head hbase hother) hmem

/-- The shape of a class is made of the shapes of its bases. -/
theorem IsShape.step {cls : ClassRef} {classSite : DataclassTransformClassSite}
    (hsite : dataclassSite loadDataclassTransformModuleInfo cls = some classSite)
    (hplain : isPlainDataclass cls.2 classSite = true) (hknown : Known nodes cls)
    (hacc : Acc (flip (ListedBase nodes)) cls)
    (hlisted : ∀ base ∈ siteBases nodes cls classSite, ListedBase nodes cls base)
    {shapeOf : ClassRef → DataclassTransformClassShape}
    (hbases : ∀ base ∈ siteBases nodes cls classSite,
      IsShape nodes loadDataclassTransformModuleInfo resolveDataclassTransformClassShapeFromDecl
        base (shapeOf base)) :
    IsShape nodes loadDataclassTransformModuleInfo resolveDataclassTransformClassShapeFromDecl cls
      (classShape cls classSite ((siteBases nodes cls classSite).map shapeOf)) := by
  have ⟨depth, hdepth⟩ := exists_common_depth hbases
  refine ⟨depth + 1, ?_⟩
  intro fuel hfuel visiting hclear
  obtain ⟨fuel, rfl⟩ : ∃ fuel', fuel = fuel' + 1 := ⟨fuel - 1, by omega⟩
  have hinherited : classSite.bases.filterMap (fun text =>
        (resolveDirectBase nodes cls.1 text).bind fun (base : ClassRef) =>
          (resolvePlainDataclassClassShapeFromDecl nodes loadDataclassTransformModuleInfo
              resolveDataclassTransformClassShapeFromDecl fuel (cls.key :: visiting) base).or
            (resolveDataclassTransformClassShapeFromDecl (base.key :: cls.key :: visiting) base))
      = (siteBases nodes cls classSite).map shapeOf := by
    unfold siteBases
    rw [List.map_filterMap]
    apply List.filterMap_congr
    intro text htext
    cases hbase : resolveDirectBase nodes cls.1 text with
    | none => rfl
    | some base =>
      have hmem : base ∈ siteBases nodes cls classSite := List.mem_filterMap.2 ⟨text, htext, hbase⟩
      have hfound := hdepth fuel (by omega) base hmem (cls.key :: visiting)
        (hclear.base hknown hacc (hlisted base hmem))
      rw [Option.bind_some, hfound]
      rfl
  show (if cls.key ∈ visiting then none else _) = _
  rw [if_neg (hclear cls .refl), hsite, Option.bind_some, if_pos hplain, hinherited]

end

end TypePython.Checking
