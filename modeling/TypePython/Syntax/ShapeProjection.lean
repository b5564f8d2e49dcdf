import TypePython.Syntax.Extensions

/-!
# Projections of shapes

The fields of a TypedDict as the lowering sees them. An annotation carries the qualifiers of its
field, and the transforms rewrite it; annotations are kept as the expressions that their texts parse
to. Every transform leaves the type below the qualifiers alone (`unqualified_strip`).
-/

namespace TypePython.Syntax

open TypePython.Lib.Text

/-! ## Qualifiers -/

inductive ShapeQualifier where
  | required
  | notRequired
  | readOnly
deriving DecidableEq

/-- The qualifier that a head stands for, whatever module it is named with. -/
def shapeQualifier (head : String) : Option ShapeQualifier :=
  match String.ofList (trim (lastSegment '.' head).toList) with
  | "Required" | "Required_" => some .required
  | "NotRequired" => some .notRequired
  | "ReadOnly" => some .readOnly
  | _ => none

structure ShapeAnnotationQualifiers where
  required : Option Bool := none
  readonly : Bool := false

def ShapeQualifier.add (qualifiers : ShapeAnnotationQualifiers) :
    ShapeQualifier → ShapeAnnotationQualifiers
  | .required => { qualifiers with required := some true }
  | .notRequired => { qualifiers with required := some false }
  | .readOnly => { qualifiers with readonly := true }

def collectShapeAnnotationQualifiers :
    TypeExpr → ShapeAnnotationQualifiers → ShapeAnnotationQualifiers
  | .generic head [arg], qualifiers =>
    match shapeQualifier head with
    | some qualifier => collectShapeAnnotationQualifiers arg (qualifier.add qualifiers)
    | none => qualifiers
  | .annotated value _, qualifiers => collectShapeAnnotationQualifiers value qualifiers
  | _, qualifiers => qualifiers

def shapeAnnotationQualifiers (expr : TypeExpr) : ShapeAnnotationQualifiers :=
  collectShapeAnnotationQualifiers expr {}

/-- A qualifier goes when the qualifiers of its kind are taken off. -/
def ShapeQualifier.isStripped (requiredness readonly : Bool) : ShapeQualifier → Bool
  | .required | .notRequired => requiredness
  | .readOnly => readonly

def stripShapeAnnotationQualifiers (requiredness readonly : Bool) : TypeExpr → TypeExpr
  | .generic head [arg] =>
    match shapeQualifier head with
    | none => .generic head [arg]
    | some qualifier =>
      if qualifier.isStripped requiredness readonly then
        stripShapeAnnotationQualifiers requiredness readonly arg
      else .generic head [stripShapeAnnotationQualifiers requiredness readonly arg]
  | .annotated value metadata =>
    .annotated (stripShapeAnnotationQualifiers requiredness readonly value) metadata
  | other => other

/-- The type that is qualified. -/
def TypeExpr.unqualified (expr : TypeExpr) : TypeExpr :=
  stripShapeAnnotationQualifiers true true expr

theorem unqualified_strip (requiredness readonly : Bool) : ∀ expr : TypeExpr,
    (stripShapeAnnotationQualifiers requiredness readonly expr).unqualified = expr.unqualified := by
  intro expr
  unfold TypeExpr.unqualified
  fun_induction stripShapeAnnotationQualifiers requiredness readonly expr with
  | case1 head arg hnone => rfl
  | case2 head arg qualifier hsome hstripped ih =>
    rw [ih]
    simp only [stripShapeAnnotationQualifiers, hsome]
    cases qualifier <;> rfl
  | case3 head arg qualifier hsome hkept ih =>
    simp only [stripShapeAnnotationQualifiers, hsome]
    cases qualifier <;> simp [ShapeQualifier.isStripped, ih]
  | case4 value metadata ih =>
    simp only [stripShapeAnnotationQualifiers, ih]
  | case5 other hgeneric hannotated => rfl

/-! ## Class blocks -/

def typedDictTotalDefaultFromHeaderSuffix (headerSuffix : String) : Bool :=
  !occursIn "total=False".toList (headerSuffix.toList.filter fun c => !isWhitespace c)

/-! ## Projections -/

inductive ShapeProjectionSourceKind where
  | typedDict
  | dataClass
deriving DecidableEq

inductive ShapeProjectionFieldSourceKind where
  | sourceField
  | projectionGenerated
deriving DecidableEq

structure ShapeProjectionField where
  name : String
  publicAlias : String
  annotation : Option TypeExpr
  required : Bool
  readonly : Bool
  sourceKind : ShapeProjectionFieldSourceKind

structure ShapeProjection where
  name : String
  sourceKind : ShapeProjectionSourceKind
  fields : List ShapeProjectionField

namespace ShapeProjectionField

def fromClassMemberWithTotalDefault (member : ClassMember) (totalDefault : Bool) :
    ShapeProjectionField :=
  let qualifiers := (member.annotation.map shapeAnnotationQualifiers).getD {}
  let required := qualifiers.required.getD totalDefault
  { name := member.name
    publicAlias := member.name
    annotation := member.annotation.map fun expr =>
      if !required && qualifiers.required.isNone then .generic "NotRequired" [expr] else expr
    required
    readonly := qualifiers.readonly
    sourceKind := .sourceField }

variable (field : ShapeProjectionField)

def projected : ShapeProjectionField := { field with sourceKind := .projectionGenerated }

/-- The annotation that the transforms read. -/
def annotationOrObject : TypeExpr := ( field.annotation).getD (.name "object")

def partialField : ShapeProjectionField :=
  projected { field with
    annotation := some (.generic "NotRequired"
      [stripShapeAnnotationQualifiers true false field.annotationOrObject])
    required := false }

def requiredField : ShapeProjectionField :=
  projected { field with
    annotation := some (stripShapeAnnotationQualifiers true false field.annotationOrObject)
    required := true }

def readonlyField : ShapeProjectionField :=
  projected { field with
    annotation := some
      (if (shapeAnnotationQualifiers field.annotationOrObject).readonly then
        field.annotationOrObject
      else .generic "ReadOnly" [field.annotationOrObject])
    readonly := true }

def mutableField : ShapeProjectionField :=
  projected { field with
    annotation := some (stripShapeAnnotationQualifiers false true field.annotationOrObject)
    readonly := false }

/-- One of the names is that of the field or its alias. -/
def isNamed (names : List String) : Bool :=
  names.any fun name => name = field.name || name = field.publicAlias

def mapValue (wrapper : String) : ShapeProjectionField :=
  match String.ofList (trim wrapper.toList) with
  | "Optional" =>
    projected { field with annotation := some (.generic "Optional" [field.annotationOrObject]) }
  | "Readonly" =>
    projected { field with
      readonly := true
      annotation := some
        (if occursIn "ReadOnly[".toList field.annotationOrObject.render.toList then
          field.annotationOrObject
        else .generic "ReadOnly" [field.annotationOrObject]) }
  | _ => projected { field with annotation := some field.annotationOrObject }

/-- The type of the values. -/
def valueType : TypeExpr := field.annotationOrObject.unqualified

end ShapeProjectionField

namespace ShapeProjection

def fromNamedBlockWithTotalDefault (block : NamedBlockStatement)
    (sourceKind : ShapeProjectionSourceKind) (totalDefault : Bool) : ShapeProjection where
  name := block.name
  sourceKind := sourceKind
  fields := (block.members.filter fun member => member.kind = .field).map fun member =>
    .fromClassMemberWithTotalDefault member totalDefault

def fromNamedBlock (block : NamedBlockStatement) (sourceKind : ShapeProjectionSourceKind) :
    ShapeProjection :=
  fromNamedBlockWithTotalDefault block sourceKind true

def fromTypedDictBlock (block : NamedBlockStatement) : ShapeProjection :=
  fromNamedBlockWithTotalDefault block .typedDict
    (typedDictTotalDefaultFromHeaderSuffix block.headerSuffix)

variable (shape : ShapeProjection)

def withProjectedFields (fields : List ShapeProjectionField) : ShapeProjection :=
  { shape with fields }

def partialFields : ShapeProjection :=
  shape.withProjectedFields (shape.fields.map ShapeProjectionField.partialField)

def requiredFields : ShapeProjection :=
  shape.withProjectedFields (shape.fields.map ShapeProjectionField.requiredField)

def readonlyFields : ShapeProjection :=
  shape.withProjectedFields (shape.fields.map ShapeProjectionField.readonlyField)

def mutableFields : ShapeProjection :=
  shape.withProjectedFields (shape.fields.map ShapeProjectionField.mutableField)

def pick (names : List String) : ShapeProjection :=
  shape.withProjectedFields
    ((shape.fields.filter fun field => field.isNamed names).map ShapeProjectionField.projected)

def omitFields (names : List String) : ShapeProjection :=
  shape.withProjectedFields
    ((shape.fields.filter fun field => !field.isNamed names).map ShapeProjectionField.projected)

def mapValues (wrapper : String) : ShapeProjection :=
  shape.withProjectedFields (shape.fields.map fun field => field.mapValue wrapper)

end ShapeProjection

/-! ## What the transforms keep -/

theorem unqualified_notRequired (expr : TypeExpr) :
    (TypeExpr.generic "NotRequired" [expr]).unqualified = expr.unqualified := by
  have hqualifier : shapeQualifier "NotRequired" = some .notRequired := by decide
  simp [TypeExpr.unqualified, stripShapeAnnotationQualifiers, hqualifier,
    ShapeQualifier.isStripped]

theorem unqualified_readOnly (expr : TypeExpr) :
    (TypeExpr.generic "ReadOnly" [expr]).unqualified = expr.unqualified := by
  have hqualifier : shapeQualifier "ReadOnly" = some .readOnly := by decide
  simp [TypeExpr.unqualified, stripShapeAnnotationQualifiers, hqualifier,
    ShapeQualifier.isStripped]

namespace ShapeProjectionField

variable (field : ShapeProjectionField)

@[simp] theorem valueType_partialField : field.partialField.valueType = field.valueType := by
  show (TypeExpr.generic "NotRequired" [_]).unqualified = _
  rw [unqualified_notRequired, unqualified_strip]
  rfl

@[simp] theorem valueType_requiredField : field.requiredField.valueType = field.valueType :=
  unqualified_strip true false field.annotationOrObject

@[simp] theorem valueType_mutableField : field.mutableField.valueType = field.valueType :=
  unqualified_strip false true field.annotationOrObject

@[simp] theorem valueType_readonlyField : field.readonlyField.valueType = field.valueType := by
  show TypeExpr.unqualified (if _ then _ else TypeExpr.generic "ReadOnly" [_]) = _
  split
  · rfl
  · rw [unqualified_readOnly]
    rfl

end ShapeProjectionField

end TypePython.Syntax
