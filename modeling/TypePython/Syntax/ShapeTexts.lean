import Mathlib.Data.List.Forall2
import TypePython.Syntax.ReadBack
import TypePython.Syntax.ShapeProjection

/-!
# The texts of a projected shape

A field of a shape has its qualifiers twice: as two flags, and in the text of its annotation. The
operations change both, the text by reading it, taking qualifiers off and writing it down again, or
by writing a qualifier around it. `steady_run` says which steps keep the flags and the text
together.
-/

namespace TypePython.Syntax.Texts

open TypePython.Lib.Text

/-! ## Members of a class -/

structure ClassMember where
  kind : ClassMemberKind
  name : String
  annotation : Option String := none
  annotationExpr : Option TypeExpr := none

structure NamedBlockStatement where
  name : String
  typeParams : List TypeParam := []
  headerSuffix : String := ""
  bases : List String := []
  members : List ClassMember := []

/-! ## Qualifiers in a text -/

def shapeAnnotationQualifiers (text : String) : ShapeAnnotationQualifiers :=
  match TypeExpr.parse text with
  | some expr => Syntax.shapeAnnotationQualifiers expr
  | none => {}

def stripShapeAnnotationQualifiers (text : String) (requiredness readonly : Bool) : String :=
  match TypeExpr.parse text with
  | some expr => (Syntax.stripShapeAnnotationQualifiers requiredness readonly expr).render
  | none => text

/-- A text with a qualifier around it. -/
def qualify (qualifier text : String) : String := qualifier ++ "[" ++ text ++ "]"

/-! ## Fields -/

structure ShapeProjectionField where
  name : String
  publicAlias : String
  annotation : Option String
  required : Bool
  readonly : Bool
  sourceKind : ShapeProjectionFieldSourceKind

namespace ShapeProjectionField

def fromClassMemberWithTotalDefault (member : ClassMember) (totalDefault : Bool) :
    ShapeProjectionField :=
  let text := ( member.annotation).or (member.annotationExpr.map TypeExpr.render)
  let qualifiers := (text.map shapeAnnotationQualifiers).getD {}
  let required := qualifiers.required.getD totalDefault
  { name := member.name
    publicAlias := member.name
    annotation := text.map fun text =>
      if !required && qualifiers.required.isNone then qualify "NotRequired" text else text
    required
    readonly := qualifiers.readonly
    sourceKind := .sourceField }

variable (field : ShapeProjectionField)

def projected : ShapeProjectionField := { field with sourceKind := .projectionGenerated }

/-- The text that the operations read. -/
def text : String := ( field.annotation).getD "object"

def partialField : ShapeProjectionField :=
  projected { field with
    annotation := some
      (qualify "NotRequired" (stripShapeAnnotationQualifiers field.text true false))
    required := false }

def requiredField : ShapeProjectionField :=
  projected { field with
    annotation := some (stripShapeAnnotationQualifiers field.text true false)
    required := true }

def readonlyField : ShapeProjectionField :=
  projected { field with
    annotation := some
      (if (shapeAnnotationQualifiers field.text).readonly then field.text
      else qualify "ReadOnly" field.text)
    readonly := true }

def mutableField : ShapeProjectionField :=
  projected { field with
    annotation := some (stripShapeAnnotationQualifiers field.text false true)
    readonly := false }

/-- One of the names is that of the field or its alias. -/
def isNamed (names : List String) : Bool :=
  names.any fun name => name = field.name || name = field.publicAlias

def mapValue (wrapper : String) : ShapeProjectionField :=
  match String.ofList (trim wrapper.toList) with
  | "Optional" => projected { field with annotation := some (qualify "Optional" field.text) }
  | "Readonly" =>
    projected { field with
      readonly := true
      annotation := some
        (if occursIn "ReadOnly[".toList field.text.toList then field.text
        else qualify "ReadOnly" field.text) }
  | _ => projected { field with annotation := some field.text }

theorem text_of_annotation {field : ShapeProjectionField} {text : String}
    (h : field.annotation = some text) : field.text = text := by
  rw [ShapeProjectionField.text, h, Option.getD_some]

theorem text_partialField : field.partialField.text
    = qualify "NotRequired" (stripShapeAnnotationQualifiers field.text true false) :=
  text_of_annotation rfl

theorem text_requiredField :
    field.requiredField.text = stripShapeAnnotationQualifiers field.text true false :=
  text_of_annotation rfl

theorem text_readonlyField : field.readonlyField.text
    = if (shapeAnnotationQualifiers field.text).readonly then field.text
      else qualify "ReadOnly" field.text :=
  text_of_annotation rfl

theorem text_mutableField :
    field.mutableField.text = stripShapeAnnotationQualifiers field.text false true :=
  text_of_annotation rfl

end ShapeProjectionField

/-! ## Shapes -/

structure ShapeProjection where
  name : String
  sourceKind : ShapeProjectionSourceKind
  fields : List ShapeProjectionField

namespace ShapeProjection

def fromNamedBlockWithTotalDefault (block : NamedBlockStatement)
    (sourceKind : ShapeProjectionSourceKind) (totalDefault : Bool) : ShapeProjection where
  name := block.name
  sourceKind := sourceKind
  fields := (block.members.filter fun member => member.kind = .field).map fun member =>
    .fromClassMemberWithTotalDefault member totalDefault

def fromNamedBlock (block : NamedBlockStatement) (sourceKind : ShapeProjectionSourceKind) :
    ShapeProjection :=
  fromNamedBlockWithTotalDefault block sourceKind true

def fromTypedDictBlock (block : NamedBlockStatement) : ShapeProjection :=
  fromNamedBlockWithTotalDefault block .typedDict
    (typedDictTotalDefaultFromHeaderSuffix block.headerSuffix)

variable (shape : ShapeProjection)

def withProjectedFields (fields : List ShapeProjectionField) : ShapeProjection :=
  { shape with fields }

def partialFields : ShapeProjection :=
  shape.withProjectedFields (shape.fields.map ShapeProjectionField.partialField)

def requiredFields : ShapeProjection :=
  shape.withProjectedFields (shape.fields.map ShapeProjectionField.requiredField)

def readonlyFields : ShapeProjection :=
  shape.withProjectedFields (shape.fields.map ShapeProjectionField.readonlyField)

def mutableFields : ShapeProjection :=
  shape.withProjectedFields (shape.fields.map ShapeProjectionField.mutableField)

def pick (names : List String) : ShapeProjection :=
  shape.withProjectedFields
    ((shape.fields.filter fun field => field.isNamed names).map ShapeProjectionField.projected)

def omitFields (names : List String) : ShapeProjection :=
  shape.withProjectedFields
    ((shape.fields.filter fun field => !field.isNamed names).map ShapeProjectionField.projected)

def mapValues (wrapper : String) : ShapeProjection :=
  shape.withProjectedFields (shape.fields.map fun field => field.mapValue wrapper)

end ShapeProjection

/-! ## Sequences of operations -/

inductive ShapeOperation where
  | partialFields
  | requiredFields
  | readonlyFields
  | mutableFields
  | pick (names : List String)
  | omitFields (names : List String)
  | mapValues (wrapper : String)

/-- What `map_values` wraps with. -/
inductive ValueWrapper where
  | optional
  | readonly
  | other

def valueWrapper (wrapper : String) : ValueWrapper :=
  match String.ofList (trim wrapper.toList) with
  | "Optional" => .optional
  | "Readonly" => .readonly
  | _ => .other

namespace ShapeOperation

def apply (shape : ShapeProjection) : ShapeOperation → ShapeProjection
  | partialFields => shape.partialFields
  | requiredFields => shape.requiredFields
  | readonlyFields => shape.readonlyFields
  | mutableFields => shape.mutableFields
  | pick names => shape.pick names
  | omitFields names => shape.omitFields names
  | mapValues wrapper => shape.mapValues wrapper

def run (shape : ShapeProjection) (operations : List ShapeOperation) : ShapeProjection :=
  operations.foldl apply shape

/-- How often an operation makes the values optional. -/
def optionals : ShapeOperation → Nat
  | mapValues wrapper =>
    match valueWrapper wrapper with
    | .optional => 1
    | _ => 0
  | _ => 0

/-- How often the values are made optional on the way. -/
def optionalsOf : List ShapeOperation → Nat
  | [] => 0
  | operation :: rest => operation.optionals + optionalsOf rest

end ShapeOperation

/-- What a shape is built with. -/
inductive ShapeSource where
  | typedDict
  | named (sourceKind : ShapeProjectionSourceKind)

namespace ShapeSource

def totalDefault (block : NamedBlockStatement) : ShapeSource → Bool
  | typedDict => typedDictTotalDefaultFromHeaderSuffix block.headerSuffix
  | named _ => true

def shape (block : NamedBlockStatement) : ShapeSource → ShapeProjection
  | typedDict => .fromTypedDictBlock block
  | named sourceKind => .fromNamedBlock block sourceKind

end ShapeSource

/-! ## Flags and texts -/

/-- The qualifiers around the type, from the outermost on. -/
def outerQualifiers : TypeExpr → List ShapeQualifier
  | .generic head [arg] =>
    match shapeQualifier head with
    | some qualifier => qualifier :: outerQualifiers arg
    | none => []
  | .annotated value _ => outerQualifiers value
  | _ => []

attribute [grind =] outerQualifiers

mutual

/-- Somewhere in the type stands a qualifier. -/
def hasQualifier : TypeExpr → Bool
  | .name _ => false
  | .generic head args => (shapeQualifier head).isSome || anyQualifier args
  | .callable params returnType => paramsHaveQualifier params || hasQualifier returnType
  | .union branches _ => anyQualifier branches
  | .annotated value _ => hasQualifier value
  | .unpack inner => hasQualifier inner

def paramsHaveQualifier : CallableParamExpr → Bool
  | .ellipsis => false
  | .paramList types => anyQualifier types
  | .concatenate types => anyQualifier types
  | .single expr => hasQualifier expr

def anyQualifier : List TypeExpr → Bool
  | [] => false
  | expr :: rest => hasQualifier expr || anyQualifier rest

end

/-- Each qualifier at most once, and none below the type that is qualified. -/
structure WellQualified (expr : TypeExpr) : Prop where
  once : (outerQualifiers expr).Nodup
  outer : hasQualifier expr.unqualified = false

def optionalValue : Nat → TypeExpr → TypeExpr
  | 0, value => value
  | count + 1, value => .generic "Optional" [optionalValue count value]

def ClassMember.text (member : ClassMember) : Option String :=
  ( member.annotation).or (member.annotationExpr.map TypeExpr.render)

/-- The type of the values that a member declares. -/
def ClassMember.valueType (member : ClassMember) : Option TypeExpr :=
  (member.text.bind TypeExpr.parse).map TypeExpr.unqualified

/-- The text of the field reads as this type, and the flags are those of the text. -/
structure ReadsAs (field : ShapeProjectionField) (expr : TypeExpr) : Prop where
  parsed : TypeExpr.parse field.text = some expr
  required : field.required = (Syntax.shapeAnnotationQualifiers expr).required.getD true
  readonly : field.readonly = (Syntax.shapeAnnotationQualifiers expr).readonly

/-- The flags and the text of the field agree, and below the qualifiers stands the type of the
member, made optional so many times. -/
def FieldSteady (optionals : Nat) (field : ShapeProjectionField) (member : ClassMember) : Prop :=
  field.name = member.name ∧ ∃ expr, ReadsAs field expr ∧ WellQualified expr
    ∧ some expr.unqualified = member.valueType.map (optionalValue optionals)

/-- The fields are members, in their order. -/
def ShapeSteady (block : NamedBlockStatement) (optionals : Nat) (shape : ShapeProjection) : Prop :=
  List.SublistForall₂ (FieldSteady optionals) shape.fields
    (block.members.filter fun member => member.kind = .field)

/-! ## Steps that fit -/

/-- The text is read as this type where it stands under a qualifier. -/
def ReadsInside (qualifier text : String) (expr : TypeExpr) : Prop :=
  TypeExpr.parse (qualify qualifier text) = some (.generic qualifier [expr])

/-- What an operation needs of a field whose text reads as this type. -/
def ShapeOperation.Fits (field : ShapeProjectionField) (expr : TypeExpr) : ShapeOperation → Prop
  | partialFields =>
    ReadsInside "NotRequired" (Syntax.stripShapeAnnotationQualifiers true false expr).render
      (Syntax.stripShapeAnnotationQualifiers true false expr)
  | requiredFields =>
    TypeExpr.parse (Syntax.stripShapeAnnotationQualifiers true false expr).render
      = some (Syntax.stripShapeAnnotationQualifiers true false expr)
  | readonlyFields =>
    ShapeQualifier.readOnly ∉ outerQualifiers expr → ReadsInside "ReadOnly" field.text expr
  | mutableFields =>
    TypeExpr.parse (Syntax.stripShapeAnnotationQualifiers false true expr).render
      = some (Syntax.stripShapeAnnotationQualifiers false true expr)
  | pick _ => True
  | omitFields _ => True
  | mapValues wrapper =>
    match valueWrapper wrapper with
    | .optional => outerQualifiers expr = [] ∧ ReadsInside "Optional" field.text expr
    | .readonly =>
      (occursIn "ReadOnly[".toList field.text.toList = true
          ↔ ShapeQualifier.readOnly ∈ outerQualifiers expr)
        ∧ (ShapeQualifier.readOnly ∉ outerQualifiers expr →
          ReadsInside "ReadOnly" field.text expr)
    | .other => True

/-- Each step fits each field that it is made on. -/
def StepsFit : ShapeProjection → List ShapeOperation → Prop
  | _, [] => True
  | shape, operation :: rest =>
    (∀ field ∈ shape.fields, ∀ expr, TypeExpr.parse field.text = some expr →
      operation.Fits field expr) ∧ StepsFit (operation.apply shape) rest

/-- The annotation is read, it is well qualified, and it can be qualified where it has to be. -/
def MemberFits (totalDefault : Bool) (member : ClassMember) : Prop :=
  ∃ text expr, member.text = some text ∧ TypeExpr.parse text = some expr ∧ WellQualified expr
    ∧ (totalDefault = false → (Syntax.shapeAnnotationQualifiers expr).required = none →
      ReadsInside "NotRequired" text expr)

/-! ## Qualifiers one by one -/

theorem shapeAnnotationQualifiers_eq (expr : TypeExpr) : Syntax.shapeAnnotationQualifiers expr
    = (outerQualifiers expr).foldl (fun qualifiers qualifier => qualifier.add qualifiers) {} := by
  have hcollect : ∀ expr qualifiers, collectShapeAnnotationQualifiers expr qualifiers
      = (outerQualifiers expr).foldl (fun qualifiers qualifier => qualifier.add qualifiers)
        qualifiers := by
    intro expr qualifiers
    fun_induction collectShapeAnnotationQualifiers expr qualifiers with
    | case1 head arg qualifiers qualifier hsome ih =>
      rw [ih, outerQualifiers, hsome, List.foldl_cons]
    | case2 head arg qualifiers hnone => rw [outerQualifiers, hnone, List.foldl_nil]
    | case3 value metadata qualifiers ih => rw [ih, outerQualifiers]
    | case4 other qualifiers hgeneric hannotated =>
      rw [outerQualifiers, List.foldl_nil]
      · exact hgeneric
      · exact hannotated
  exact hcollect expr {}

theorem outerQualifiers_strip (requiredness readonly : Bool) (expr : TypeExpr) :
    outerQualifiers (Syntax.stripShapeAnnotationQualifiers requiredness readonly expr)
      = (outerQualifiers expr).filter fun qualifier =>
        !qualifier.isStripped requiredness readonly := by
  fun_induction Syntax.stripShapeAnnotationQualifiers requiredness readonly expr with
  | case1 head arg hnone => rw [outerQualifiers, hnone, List.filter_nil]
  | case2 head arg qualifier hsome hstripped ih =>
    rw [ih, outerQualifiers, hsome, List.filter_cons_of_neg]
    rw [hstripped]
    decide
  | case3 head arg qualifier hsome hkept ih =>
    rw [outerQualifiers, outerQualifiers, hsome]
    simp only
    rw [ih, List.filter_cons_of_pos]
    rw [Bool.not_eq_true] at hkept
    rw [hkept]
    decide
  | case4 value metadata ih => rw [outerQualifiers, outerQualifiers, ih]
  | case5 other hgeneric hannotated =>
    rw [outerQualifiers, List.filter_nil]
    · exact hgeneric
    · exact hannotated

/-- Without qualifiers around it the type is the one that is qualified. -/
theorem unqualified_of_nil {expr : TypeExpr} (h : outerQualifiers expr = []) :
    expr.unqualified = expr := by
  unfold TypeExpr.unqualified
  fun_induction outerQualifiers expr with
  | case1 head arg qualifier hsome ih => cases h
  | case2 head arg hnone => rw [Syntax.stripShapeAnnotationQualifiers, hnone]
  | case3 value metadata ih => rw [Syntax.stripShapeAnnotationQualifiers, ih h]
  | case4 other hgeneric hannotated =>
    rw [Syntax.stripShapeAnnotationQualifiers]
    · exact hgeneric
    · exact hannotated

section

variable {qualifiers : List ShapeQualifier} {start : ShapeAnnotationQualifiers}

theorem readonly_foldl : (qualifiers.foldl (fun qualifiers qualifier => qualifier.add qualifiers)
    start).readonly = (start.readonly || decide (ShapeQualifier.readOnly ∈ qualifiers)) := by
  induction qualifiers generalizing start with
  | nil => simp
  | cons qualifier rest ih =>
    rw [List.foldl_cons, ih]
    cases qualifier <;> simp [ShapeQualifier.add]

/-- `ReadOnly` is no matter of requiredness. -/
theorem required_foldl_filter {start' : ShapeAnnotationQualifiers}
    (h : start.required = start'.required) :
    ((qualifiers.filter fun qualifier => !qualifier.isStripped false true).foldl
        (fun qualifiers qualifier => qualifier.add qualifiers) start).required
      = (qualifiers.foldl (fun qualifiers qualifier => qualifier.add qualifiers) start').required := by
  induction qualifiers generalizing start start' with
  | nil => exact h
  | cons qualifier rest ih =>
    rw [List.foldl_cons]
    cases qualifier with
    | required =>
      rw [List.filter_cons_of_pos rfl, List.foldl_cons]
      exact ih rfl
    | notRequired =>
      rw [List.filter_cons_of_pos rfl, List.foldl_cons]
      exact ih rfl
    | readOnly =>
      rw [List.filter_cons_of_neg (by decide)]
      exact ih h

theorem required_foldl_stripped :
    ((qualifiers.filter fun qualifier => !qualifier.isStripped true false).foldl
      (fun qualifiers qualifier => qualifier.add qualifiers) start).required = start.required := by
  induction qualifiers generalizing start with
  | nil => rfl
  | cons qualifier rest ih =>
    cases qualifier with
    | required => rw [List.filter_cons_of_neg (by decide), ih]
    | notRequired => rw [List.filter_cons_of_neg (by decide), ih]
    | readOnly =>
      rw [List.filter_cons_of_pos rfl, List.foldl_cons, ih]
      rfl

end

/-! ## Expressions under an operation -/

variable {qualifier : ShapeQualifier}

section

variable {expr : TypeExpr}

theorem outerQualifiers_generic {head : String} (h : shapeQualifier head = some qualifier) :
    outerQualifiers (.generic head [expr]) = qualifier :: outerQualifiers expr := by
  rw [outerQualifiers, h]

theorem readonly_eq (expr : TypeExpr) : (Syntax.shapeAnnotationQualifiers expr).readonly
    = decide (ShapeQualifier.readOnly ∈ outerQualifiers expr) := by
  rw [shapeAnnotationQualifiers_eq, readonly_foldl, Bool.false_or]

theorem mem_strip_requiredness :
    qualifier ∈ outerQualifiers (Syntax.stripShapeAnnotationQualifiers true false expr)
      ↔ qualifier = .readOnly ∧ ShapeQualifier.readOnly ∈ outerQualifiers expr := by
  rw [outerQualifiers_strip, List.mem_filter]
  cases qualifier <;> simp [ShapeQualifier.isStripped]

theorem mem_strip_readonly :
    qualifier ∈ outerQualifiers (Syntax.stripShapeAnnotationQualifiers false true expr)
      ↔ qualifier ≠ .readOnly ∧ qualifier ∈ outerQualifiers expr := by
  rw [outerQualifiers_strip, List.mem_filter]
  cases qualifier <;> simp [ShapeQualifier.isStripped]

theorem WellQualified.strip (h : WellQualified expr) (requiredness readonly : Bool) :
    WellQualified (Syntax.stripShapeAnnotationQualifiers requiredness readonly expr) := by
  constructor
  · rw [outerQualifiers_strip]
    exact h.once.filter _
  · rw [unqualified_strip]
    exact h.outer

theorem WellQualified.notRequired (h : WellQualified expr)
    (hfree : ShapeQualifier.notRequired ∉ outerQualifiers expr) :
    WellQualified (.generic "NotRequired" [expr]) := by
  have hqualifier : shapeQualifier "NotRequired" = some .notRequired := by decide
  constructor
  · rw [outerQualifiers_generic hqualifier]
    exact List.nodup_cons.2 ⟨hfree, h.once⟩
  · rw [unqualified_notRequired]
    exact h.outer

theorem WellQualified.readOnly (h : WellQualified expr)
    (hfree : ShapeQualifier.readOnly ∉ outerQualifiers expr) :
    WellQualified (.generic "ReadOnly" [expr]) := by
  have hqualifier : shapeQualifier "ReadOnly" = some .readOnly := by decide
  constructor
  · rw [outerQualifiers_generic hqualifier]
    exact List.nodup_cons.2 ⟨hfree, h.once⟩
  · rw [unqualified_readOnly]
    exact h.outer

theorem outerQualifiers_optional : outerQualifiers (.generic "Optional" [expr]) = [] := by
  have hqualifier : shapeQualifier "Optional" = none := by decide
  rw [outerQualifiers, hqualifier]

theorem WellQualified.optional (h : WellQualified expr) (hfree : outerQualifiers expr = []) :
    WellQualified (.generic "Optional" [expr]) := by
  constructor
  · rw [outerQualifiers_optional]
    exact List.nodup_nil
  · have houter := h.outer
    rw [unqualified_of_nil hfree] at houter
    have hqualifier : shapeQualifier "Optional" = none := by decide
    rw [unqualified_of_nil outerQualifiers_optional, hasQualifier, hqualifier, anyQualifier,
      anyQualifier, houter]
    rfl

/-- A type that is marked as not required reads as not required. -/
theorem required_notRequired
    (h : ∀ qualifier ∈ outerQualifiers expr, qualifier = ShapeQualifier.readOnly) :
    (Syntax.shapeAnnotationQualifiers (.generic "NotRequired" [expr])).required = some false := by
  have hqualifier : shapeQualifier "NotRequired" = some .notRequired := by decide
  have hfilter : (outerQualifiers expr).filter (fun qualifier => !qualifier.isStripped true false)
      = outerQualifiers expr := by
    rw [List.filter_eq_self]
    intro qualifier hmem
    rw [h qualifier hmem]
    rfl
  rw [shapeAnnotationQualifiers_eq, outerQualifiers_generic hqualifier, List.foldl_cons, ← hfilter,
    required_foldl_stripped]
  rfl

theorem readonly_notRequired :
    (Syntax.shapeAnnotationQualifiers (.generic "NotRequired" [expr])).readonly
      = (Syntax.shapeAnnotationQualifiers expr).readonly := by
  have hqualifier : shapeQualifier "NotRequired" = some .notRequired := by decide
  rw [readonly_eq, readonly_eq, outerQualifiers_generic hqualifier]
  simp

theorem required_readOnly :
    (Syntax.shapeAnnotationQualifiers (.generic "ReadOnly" [expr])).required
      = (Syntax.shapeAnnotationQualifiers expr).required := by
  have hqualifier : shapeQualifier "ReadOnly" = some .readOnly := by decide
  have hmarked := @required_foldl_filter (outerQualifiers expr) {} { readonly := true } rfl
  have hplain := @required_foldl_filter (outerQualifiers expr) {} {} rfl
  rw [shapeAnnotationQualifiers_eq, outerQualifiers_generic hqualifier, shapeAnnotationQualifiers_eq,
    ← hplain, hmarked]
  rfl

theorem required_strip_requiredness :
    (Syntax.shapeAnnotationQualifiers (Syntax.stripShapeAnnotationQualifiers true false expr)).required
      = none := by
  rw [shapeAnnotationQualifiers_eq, outerQualifiers_strip, required_foldl_stripped]

theorem required_strip_readonly :
    (Syntax.shapeAnnotationQualifiers (Syntax.stripShapeAnnotationQualifiers false true expr)).required
      = (Syntax.shapeAnnotationQualifiers expr).required := by
  rw [shapeAnnotationQualifiers_eq, outerQualifiers_strip, required_foldl_filter rfl,
    shapeAnnotationQualifiers_eq]

theorem readonly_strip_requiredness :
    (Syntax.shapeAnnotationQualifiers (Syntax.stripShapeAnnotationQualifiers true false expr)).readonly
      = (Syntax.shapeAnnotationQualifiers expr).readonly := by
  rw [readonly_eq, readonly_eq]
  simp [mem_strip_requiredness]

theorem readonly_strip_readonly :
    (Syntax.shapeAnnotationQualifiers (Syntax.stripShapeAnnotationQualifiers false true expr)).readonly
      = false := by
  rw [readonly_eq]
  simp [mem_strip_readonly]

end

/-! ## Fields under an operation -/

section

variable {field : ShapeProjectionField} {member : ClassMember} {expr : TypeExpr} {count : Nat}

theorem stripShapeAnnotationQualifiers_eq {text : String} (h : TypeExpr.parse text = some expr)
    (requiredness readonly : Bool) : stripShapeAnnotationQualifiers text requiredness readonly
      = (Syntax.stripShapeAnnotationQualifiers requiredness readonly expr).render := by
  rw [stripShapeAnnotationQualifiers, h]

theorem shapeAnnotationQualifiers_of_parse {text : String} (h : TypeExpr.parse text = some expr) :
    shapeAnnotationQualifiers text = Syntax.shapeAnnotationQualifiers expr := by
  rw [shapeAnnotationQualifiers, h]

/-- Another text and other flags for a field, and what they say of the type. -/
theorem fieldSteady_of_reads {field' : ShapeProjectionField} {expr' : TypeExpr}
    (h : FieldSteady count field member) (hname : field'.name = field.name)
    (hparsed : TypeExpr.parse field.text = some expr) (hreads : ReadsAs field' expr')
    (hwell : WellQualified expr') (hvalue : expr'.unqualified = expr.unqualified) :
    FieldSteady count field' member := by
  obtain ⟨hfield, expr₀, hreads₀, -, hvalue₀⟩ := h
  have hsame : expr₀ = expr := Option.some.inj (hreads₀.parsed.symm.trans hparsed)
  rw [hsame, ← hvalue] at hvalue₀
  exact ⟨hname.trans hfield, expr', hreads, hwell, hvalue₀⟩

theorem FieldSteady.projected (h : FieldSteady count field member) :
    FieldSteady count field.projected member := by
  obtain ⟨hname, expr, hreads, hwell, hvalue⟩ := h
  exact ⟨hname, expr, ⟨hreads.parsed, hreads.required, hreads.readonly⟩, hwell, hvalue⟩

theorem FieldSteady.partialField (h : FieldSteady count field member)
    (hfits : ∀ expr, TypeExpr.parse field.text = some expr →
      ShapeOperation.partialFields.Fits field expr) :
    FieldSteady count field.partialField member := by
  obtain ⟨-, expr, hreads, hwell, -⟩ := id h
  have hparsed := hfits expr hreads.parsed
  have hreadOnly : ∀ qualifier
      ∈ outerQualifiers (Syntax.stripShapeAnnotationQualifiers true false expr),
      qualifier = .readOnly := fun qualifier hmem => (mem_strip_requiredness.1 hmem).1
  refine fieldSteady_of_reads h rfl hreads.parsed ⟨?_, ?_, ?_⟩
    ((hwell.strip true false).notRequired ?_) ?_
  · rw [field.text_partialField, stripShapeAnnotationQualifiers_eq hreads.parsed]
    exact hparsed
  · rw [required_notRequired hreadOnly]
    rfl
  · rw [readonly_notRequired, readonly_strip_requiredness]
    exact hreads.readonly
  · intro hmem
    cases hreadOnly _ hmem
  · rw [unqualified_notRequired, unqualified_strip]

theorem FieldSteady.requiredField (h : FieldSteady count field member)
    (hfits : ∀ expr, TypeExpr.parse field.text = some expr →
      ShapeOperation.requiredFields.Fits field expr) :
    FieldSteady count field.requiredField member := by
  obtain ⟨-, expr, hreads, hwell, -⟩ := id h
  have hparsed := hfits expr hreads.parsed
  refine fieldSteady_of_reads h rfl hreads.parsed ⟨?_, ?_, ?_⟩ (hwell.strip true false)
    (unqualified_strip true false expr)
  · rw [field.text_requiredField, stripShapeAnnotationQualifiers_eq hreads.parsed]
    exact hparsed
  · rw [required_strip_requiredness]
    rfl
  · rw [readonly_strip_requiredness]
    exact hreads.readonly

theorem FieldSteady.mutableField (h : FieldSteady count field member)
    (hfits : ∀ expr, TypeExpr.parse field.text = some expr →
      ShapeOperation.mutableFields.Fits field expr) :
    FieldSteady count field.mutableField member := by
  obtain ⟨-, expr, hreads, hwell, -⟩ := id h
  have hparsed := hfits expr hreads.parsed
  refine fieldSteady_of_reads h rfl hreads.parsed ⟨?_, ?_, ?_⟩ (hwell.strip false true)
    (unqualified_strip false true expr)
  · rw [field.text_mutableField, stripShapeAnnotationQualifiers_eq hreads.parsed]
    exact hparsed
  · rw [required_strip_readonly]
    exact hreads.required
  · rw [readonly_strip_readonly]
    rfl

/-- The field is marked as read-only, by a text that says so already or is made to. -/
theorem FieldSteady.markedReadOnly (h : FieldSteady count field member)
    {field' : ShapeProjectionField} (hname : field'.name = field.name)
    (hrequired : field'.required = field.required) (hreadonly : field'.readonly = true)
    (hparsed : TypeExpr.parse field.text = some expr) (kept : Bool)
    (hkept : kept = true ↔ ShapeQualifier.readOnly ∈ outerQualifiers expr)
    (htext : field'.text = if kept then field.text else qualify "ReadOnly" field.text)
    (hinside : ShapeQualifier.readOnly ∉ outerQualifiers expr →
      ReadsInside "ReadOnly" field.text expr) :
    FieldSteady count field' member := by
  obtain ⟨-, expr', hreads, hwell, -⟩ := id h
  obtain rfl : expr' = expr := Option.some.inj (hreads.parsed.symm.trans hparsed)
  by_cases hmem : ShapeQualifier.readOnly ∈ outerQualifiers expr'
  · rw [if_pos (hkept.2 hmem)] at htext
    refine fieldSteady_of_reads h hname hparsed ⟨?_, ?_, ?_⟩ hwell rfl
    · rw [htext]
      exact hparsed
    · rw [hrequired]
      exact hreads.required
    · rw [hreadonly, readonly_eq, decide_eq_true hmem]
  · rw [if_neg (mt hkept.1 hmem)] at htext
    refine fieldSteady_of_reads h hname hparsed ⟨?_, ?_, ?_⟩ (hwell.readOnly hmem)
      (unqualified_readOnly expr')
    · rw [htext]
      exact hinside hmem
    · rw [hrequired, required_readOnly]
      exact hreads.required
    · have hqualifier : shapeQualifier "ReadOnly" = some .readOnly := by decide
      rw [hreadonly, readonly_eq, outerQualifiers_generic hqualifier]
      simp

theorem FieldSteady.readonlyField (h : FieldSteady count field member)
    (hfits : ∀ expr, TypeExpr.parse field.text = some expr →
      ShapeOperation.readonlyFields.Fits field expr) :
    FieldSteady count field.readonlyField member := by
  obtain ⟨-, expr, hreads, -, -⟩ := id h
  refine h.markedReadOnly rfl rfl rfl hreads.parsed
    (shapeAnnotationQualifiers field.text).readonly ?_ field.text_readonlyField
    (hfits expr hreads.parsed)
  rw [shapeAnnotationQualifiers_of_parse hreads.parsed, readonly_eq, decide_eq_true_iff]

theorem mapValue_eq (field : ShapeProjectionField) (wrapper : String) : field.mapValue wrapper
    = match valueWrapper wrapper with
      | .optional =>
        ShapeProjectionField.projected
          { field with annotation := some (qualify "Optional" field.text) }
      | .readonly =>
        ShapeProjectionField.projected { field with
          readonly := true
          annotation := some
            (if occursIn "ReadOnly[".toList field.text.toList then field.text
            else qualify "ReadOnly" field.text) }
      | .other => ShapeProjectionField.projected { field with annotation := some field.text } := by
  unfold ShapeProjectionField.mapValue valueWrapper
  split <;> rfl

theorem FieldSteady.mapValue (h : FieldSteady count field member) {wrapper : String}
    (hfits : ∀ expr, TypeExpr.parse field.text = some expr →
      (ShapeOperation.mapValues wrapper).Fits field expr) :
    FieldSteady (count + (ShapeOperation.mapValues wrapper).optionals) (field.mapValue wrapper)
      member := by
  obtain ⟨hname, expr, hreads, hwell, hvalue⟩ := id h
  have hfit := hfits expr hreads.parsed
  rw [mapValue_eq]
  cases hwrapper : valueWrapper wrapper with
  | optional =>
    simp only [ShapeOperation.Fits, hwrapper] at hfit
    obtain ⟨hfree, hparsed⟩ := hfit
    have hrequired := hreads.required
    have hreadonly := hreads.readonly
    rw [shapeAnnotationQualifiers_eq, hfree] at hrequired hreadonly
    simp only [ShapeOperation.optionals, hwrapper]
    refine ⟨hname, .generic "Optional" [expr], ⟨hparsed, ?_, ?_⟩, hwell.optional hfree, ?_⟩
    · rw [shapeAnnotationQualifiers_eq, outerQualifiers_optional]
      exact hrequired
    · rw [shapeAnnotationQualifiers_eq, outerQualifiers_optional]
      exact hreadonly
    · rw [unqualified_of_nil hfree] at hvalue
      rw [unqualified_of_nil outerQualifiers_optional]
      cases hmember : member.valueType with
      | none =>
        rw [hmember] at hvalue
        cases hvalue
      | some value =>
        rw [hmember, Option.map_some, Option.some.injEq] at hvalue
        rw [Option.map_some, hvalue, optionalValue]
  | readonly =>
    simp only [ShapeOperation.Fits, hwrapper] at hfit
    simp only [ShapeOperation.optionals, hwrapper]
    exact h.markedReadOnly rfl rfl rfl hreads.parsed _ hfit.1 rfl hfit.2
  | other =>
    simp only [ShapeOperation.optionals, hwrapper]
    exact ⟨hname, expr, ⟨hreads.parsed, hreads.required, hreads.readonly⟩, hwell, hvalue⟩

end

/-! ## Whole shapes -/

section

variable {α β : Type} {R R' : α → β → Prop} {items : List α} {others : List β}

theorem sublistForall₂_map {g : α → α} (h : List.SublistForall₂ R items others)
    (hstep : ∀ item ∈ items, ∀ other, R item other → R' (g item) other) :
    List.SublistForall₂ R' (items.map g) others := by
  induction h with
  | nil => exact .nil
  | cons hfirst _ ih =>
    rw [List.forall_mem_cons] at hstep
    exact .cons (hstep.1 _ hfirst) (ih hstep.2)
  | cons_right _ ih => exact .cons_right (ih hstep)

theorem exists_of_sublistForall₂ (h : List.SublistForall₂ R items others) {item : α}
    (hitem : item ∈ items) : ∃ other ∈ others, R item other := by
  induction h with
  | nil => cases hitem
  | cons hfirst _ ih =>
    rcases List.mem_cons.1 hitem with rfl | hrest
    · exact ⟨_, List.mem_cons_self, hfirst⟩
    · obtain ⟨other, hother, hrelated⟩ := ih hrest
      exact ⟨other, List.mem_cons_of_mem _ hother, hrelated⟩
  | cons_right _ ih =>
    obtain ⟨other, hother, hrelated⟩ := ih hitem
    exact ⟨other, List.mem_cons_of_mem _ hother, hrelated⟩

theorem sublistForall₂_filter {p : α → Bool} (h : List.SublistForall₂ R items others) :
    List.SublistForall₂ R (items.filter p) others := by
  induction h with
  | nil => exact .nil
  | @cons item other items others hfirst _ ih =>
    by_cases hp : p item = true
    · rw [List.filter_cons_of_pos hp]
      exact .cons hfirst ih
    · rw [List.filter_cons_of_neg hp]
      exact .cons_right ih
  | cons_right _ ih => exact .cons_right ih

end

variable {operation : ShapeOperation}

section

variable {block : NamedBlockStatement} {shape : ShapeProjection} {count : Nat}

/-- What one operation keeps. -/
theorem ShapeSteady.apply (h : ShapeSteady block count shape)
    (hfits : ∀ field ∈ shape.fields, ∀ expr, TypeExpr.parse field.text = some expr →
      operation.Fits field expr) :
    ShapeSteady block (count + operation.optionals) (operation.apply shape) := by
  cases operation with
  | partialFields =>
    exact sublistForall₂_map h fun field hfield _ hsteady => hsteady.partialField (hfits field hfield)
  | requiredFields =>
    exact sublistForall₂_map h fun field hfield _ hsteady => hsteady.requiredField (hfits field hfield)
  | readonlyFields =>
    exact sublistForall₂_map h fun field hfield _ hsteady => hsteady.readonlyField (hfits field hfield)
  | mutableFields =>
    exact sublistForall₂_map h fun field hfield _ hsteady => hsteady.mutableField (hfits field hfield)
  | pick names =>
    exact sublistForall₂_map (sublistForall₂_filter h) fun _ _ _ hsteady => hsteady.projected
  | omitFields names =>
    exact sublistForall₂_map (sublistForall₂_filter h) fun _ _ _ hsteady => hsteady.projected
  | mapValues wrapper =>
    exact sublistForall₂_map h fun field hfield _ hsteady => hsteady.mapValue (hfits field hfield)

/-- What a run keeps. -/
theorem ShapeSteady.run {operations : List ShapeOperation} (h : ShapeSteady block count shape)
    (hfits : StepsFit shape operations) :
    ShapeSteady block (count + ShapeOperation.optionalsOf operations)
      (ShapeOperation.run shape operations) := by
  induction operations generalizing count shape with
  | nil => exact h
  | cons operation rest ih =>
    have hrest := ih (h.apply hfits.1) hfits.2
    rw [Nat.add_assoc] at hrest
    exact hrest

theorem readOnly_of_required_none {qualifiers : List ShapeQualifier}
    {start : ShapeAnnotationQualifiers}
    (h : (qualifiers.foldl (fun qualifiers qualifier => qualifier.add qualifiers) start).required
      = none) :
    start.required = none ∧ ∀ qualifier ∈ qualifiers, qualifier = .readOnly := by
  induction qualifiers generalizing start with
  | nil => exact ⟨h, fun _ hmem => absurd hmem List.not_mem_nil⟩
  | cons qualifier rest ih =>
    rw [List.foldl_cons] at h
    obtain ⟨hstart, hrest⟩ := ih h
    rw [List.forall_mem_cons]
    cases qualifier with
    | required => cases hstart
    | notRequired => cases hstart
    | readOnly => exact ⟨hstart, rfl, hrest⟩

theorem fieldSteady_start {member : ClassMember} {totalDefault : Bool}
    (h : MemberFits totalDefault member) :
    FieldSteady 0 (.fromClassMemberWithTotalDefault member totalDefault) member := by
  obtain ⟨text, expr, htext, hparsed, hwell, hinside⟩ := h
  have hvalue : member.valueType = some expr.unqualified := by
    rw [ClassMember.valueType, htext, Option.bind_some, hparsed, Option.map_some]
  have hqualifiers := shapeAnnotationQualifiers_of_parse hparsed
  have hfield : ShapeProjectionField.fromClassMemberWithTotalDefault member totalDefault
      = { name := member.name
          publicAlias := member.name
          annotation := some
            (if !(Syntax.shapeAnnotationQualifiers expr).required.getD totalDefault
                && (Syntax.shapeAnnotationQualifiers expr).required.isNone then
              qualify "NotRequired" text
            else text)
          required := (Syntax.shapeAnnotationQualifiers expr).required.getD totalDefault
          readonly := (Syntax.shapeAnnotationQualifiers expr).readonly
          sourceKind := .sourceField } := by
    unfold ShapeProjectionField.fromClassMemberWithTotalDefault
    rw [ClassMember.text] at htext
    rw [htext]
    simp only [Option.map_some, Option.getD_some, hqualifiers]
  rw [hfield]
  cases hrequired : (Syntax.shapeAnnotationQualifiers expr).required with
  | some required =>
    refine ⟨rfl, expr, ⟨?_, ?_, rfl⟩, hwell, by rw [hvalue]; rfl⟩
    · rw [Option.isNone_some, Bool.and_false]
      exact hparsed
    · rw [hrequired]
      rfl
  | none =>
    cases totalDefault with
    | true =>
      refine ⟨rfl, expr, ⟨hparsed, ?_, rfl⟩, hwell, by rw [hvalue]; rfl⟩
      rw [hrequired]
    | false =>
      -- the default is written around the annotation
      have hreadOnly : ∀ qualifier ∈ outerQualifiers expr, qualifier = .readOnly := by
        rw [shapeAnnotationQualifiers_eq] at hrequired
        exact (readOnly_of_required_none hrequired).2
      refine ⟨rfl, .generic "NotRequired" [expr], ⟨hinside rfl hrequired, ?_, ?_⟩,
        hwell.notRequired ?_, ?_⟩
      · rw [required_notRequired hreadOnly]
        rfl
      · rw [readonly_notRequired]
      · intro hmem
        cases hreadOnly _ hmem
      · rw [unqualified_notRequired, hvalue]
        rfl

theorem shapeSteady_start {source : ShapeSource}
    (h : ∀ member ∈ block.members, member.kind = .field →
      MemberFits (source.totalDefault block) member) :
    ShapeSteady block 0 (source.shape block) := by
  have hfields : (source.shape block).fields
      = (block.members.filter fun member => member.kind = .field).map fun member =>
        .fromClassMemberWithTotalDefault member (source.totalDefault block) := by
    cases source <;> rfl
  unfold ShapeSteady
  rw [hfields]
  have hmembers : ∀ member ∈ block.members.filter fun member => member.kind = .field,
      MemberFits (source.totalDefault block) member := by
    intro member hmem
    rw [List.mem_filter, decide_eq_true_iff] at hmem
    exact h member hmem.1 hmem.2
  generalize block.members.filter (fun member => member.kind = .field) = members at hmembers
  induction members with
  | nil => exact .nil
  | cons member rest ih =>
    rw [List.forall_mem_cons] at hmembers
    exact .cons (fieldSteady_start hmembers.1) (ih hmembers.2)

/-- From members that fit, and by steps that fit, the flags of every field stay those of its text,
its qualifiers stay outside and apart, and its type stays the one that was declared. -/
theorem steady_run (source : ShapeSource) (block : NamedBlockStatement)
    (operations : List ShapeOperation)
    (hstart : ∀ member ∈ block.members, member.kind = .field →
      MemberFits (source.totalDefault block) member)
    (hsteps : StepsFit (source.shape block) operations) :
    ShapeSteady block (ShapeOperation.optionalsOf operations)
      (ShapeOperation.run (source.shape block) operations) := by
  have hrun := (shapeSteady_start hstart).run hsteps
  rwa [Nat.zero_add] at hrun

end

/-! ## Plain annotations -/

/-- The text is that of a plain type. -/
def PlainText (text : String) : Prop := ∃ expr : TypeExpr, expr.isPlain = true ∧ text = expr.render

def PlainShape (shape : ShapeProjection) : Prop := ∀ field ∈ shape.fields, PlainText field.text

section

variable {expr : TypeExpr}

theorem isPlain_strip (requiredness readonly : Bool) (h : expr.isPlain = true) :
    (Syntax.stripShapeAnnotationQualifiers requiredness readonly expr).isPlain = true := by
  fun_induction Syntax.stripShapeAnnotationQualifiers requiredness readonly expr with
  | case1 head arg hnone => exact h
  | case2 head arg qualifier hsome hstripped ih =>
    rw [TypeExpr.isPlain, allPlain, Bool.and_eq_true, Bool.and_eq_true] at h
    exact ih h.2.1
  | case3 head arg qualifier hsome hkept ih =>
    rw [TypeExpr.isPlain, allPlain, allPlain, Bool.and_eq_true, Bool.and_eq_true] at h ⊢
    exact ⟨h.1, ih h.2.1, rfl⟩
  | case4 value metadata ih => cases h
  | case5 other hgeneric hannotated => exact h

theorem isPlain_qualify {qualifier : String} (hqualifier : isGenericHead qualifier = true)
    (h : expr.isPlain = true) : (TypeExpr.generic qualifier [expr]).isPlain = true := by
  rw [TypeExpr.isPlain, hqualifier, allPlain, allPlain, h]
  rfl

theorem qualify_render {qualifier : String} (hqualifier : isGenericHead qualifier = true)
    (expr : TypeExpr) : qualify qualifier expr.render = (TypeExpr.generic qualifier [expr]).render := by
  obtain ⟨-, hhead, -⟩ := isGenericHead_iff.1 hqualifier
  rw [TypeExpr.render, hhead, renderAll, renderAll, String.ofList_toList]
  rfl

/-- A plain type is read wherever its text is qualified. -/
theorem readsInside_of_plain {qualifier : String} (hqualifier : isGenericHead qualifier = true)
    (h : expr.isPlain = true) : ReadsInside qualifier expr.render expr := by
  rw [ReadsInside, qualify_render hqualifier]
  exact parse_render (isPlain_qualify hqualifier h)

theorem isGenericHead_qualifiers : isGenericHead "NotRequired" = true
    ∧ isGenericHead "ReadOnly" = true ∧ isGenericHead "Optional" = true := by decide

theorem fits_of_plain {field : ShapeProjectionField}
    (hoperation : ∀ wrapper, operation ≠ .mapValues wrapper) (h : PlainText field.text)
    (hparsed : TypeExpr.parse field.text = some expr) : operation.Fits field expr := by
  obtain ⟨hnotRequired, hreadOnly, -⟩ := isGenericHead_qualifiers
  obtain ⟨plain, hplain, htext⟩ := h
  have hsame : plain = expr := by
    rw [htext, parse_render hplain, Option.some.injEq] at hparsed
    exact hparsed
  rw [hsame] at hplain htext
  cases operation with
  | partialFields => exact readsInside_of_plain hnotRequired (isPlain_strip true false hplain)
  | requiredFields => exact parse_render (isPlain_strip true false hplain)
  | readonlyFields =>
    intro _
    rw [htext]
    exact readsInside_of_plain hreadOnly hplain
  | mutableFields => exact parse_render (isPlain_strip false true hplain)
  | pick names => trivial
  | omitFields names => trivial
  | mapValues wrapper => exact absurd rfl (hoperation wrapper)

theorem plainText_strip {text : String} (requiredness readonly : Bool) (h : PlainText text) :
    PlainText (stripShapeAnnotationQualifiers text requiredness readonly) := by
  obtain ⟨expr, hplain, rfl⟩ := h
  exact ⟨_, isPlain_strip requiredness readonly hplain,
    stripShapeAnnotationQualifiers_eq (parse_render hplain) requiredness readonly⟩

theorem PlainShape.apply {shape : ShapeProjection}
    (hoperation : ∀ wrapper, operation ≠ .mapValues wrapper) (h : PlainShape shape) :
    PlainShape (operation.apply shape) := by
  obtain ⟨hnotRequired, hreadOnly, -⟩ := isGenericHead_qualifiers
  have hmap : ∀ {g : ShapeProjectionField → ShapeProjectionField}
      {fields : List ShapeProjectionField},
      (∀ field ∈ fields, field ∈ shape.fields) →
      (∀ field, PlainText field.text → PlainText (g field).text) →
      PlainShape (shape.withProjectedFields (fields.map g)) := by
    intro g fields hfields hg field hfield
    obtain ⟨source, hsource, rfl⟩ := List.mem_map.1 hfield
    exact hg source (h source (hfields source hsource))
  cases operation with
  | partialFields =>
    refine hmap (fun _ hfield => hfield) ?_
    intro field hplain
    obtain ⟨expr, hexpr, hstrip⟩ := plainText_strip true false hplain
    refine ⟨.generic "NotRequired" [expr], isPlain_qualify hnotRequired hexpr, ?_⟩
    rw [← qualify_render hnotRequired, ← hstrip]
    exact field.text_partialField
  | requiredFields =>
    refine hmap (fun _ hfield => hfield) ?_
    intro field hplain
    rw [field.text_requiredField]
    exact plainText_strip true false hplain
  | readonlyFields =>
    refine hmap (fun _ hfield => hfield) ?_
    intro field hplain
    rw [field.text_readonlyField]
    split
    · exact hplain
    · obtain ⟨expr, hexpr, htext⟩ := hplain
      refine ⟨.generic "ReadOnly" [expr], isPlain_qualify hreadOnly hexpr, ?_⟩
      rw [← qualify_render hreadOnly, ← htext]
  | mutableFields =>
    refine hmap (fun _ hfield => hfield) ?_
    intro field hplain
    rw [field.text_mutableField]
    exact plainText_strip false true hplain
  | pick names => exact hmap (fun _ hfield => (List.mem_filter.1 hfield).1) fun _ hplain => hplain
  | omitFields names =>
    exact hmap (fun _ hfield => (List.mem_filter.1 hfield).1) fun _ hplain => hplain
  | mapValues wrapper => exact absurd rfl (hoperation wrapper)

/-- On plain annotations every step fits but one that maps the values. -/
theorem stepsFit_of_plain {operations : List ShapeOperation}
    (hoperations : ∀ operation ∈ operations, ∀ wrapper, operation ≠ .mapValues wrapper)
    {shape : ShapeProjection} (h : PlainShape shape) : StepsFit shape operations := by
  induction operations generalizing shape with
  | nil => trivial
  | cons operation rest ih =>
    rw [List.forall_mem_cons] at hoperations
    refine ⟨?_, ih hoperations.2 (h.apply hoperations.1)⟩
    intro field hfield expr hparsed
    exact fits_of_plain hoperations.1 (h field hfield) hparsed

end

/-! ## A partial shape -/

/-- A TypedDict with one field. -/
def movie : NamedBlockStatement where
  name := "Movie"
  bases := ["TypedDict"]
  members := [{ kind := .field, name := "year", annotation := "int" }]

theorem parse_int : TypeExpr.parse "int" = some (.name "int") := by
  have hrender : (TypeExpr.name "int").render = "int" := by decide +kernel
  have hparsed := @parse_render (.name "int") (by decide)
  rwa [hrender] at hparsed

theorem movie_fits (sourceKind : ShapeProjectionSourceKind) : ∀ member ∈ movie.members,
    member.kind = .field → MemberFits ((ShapeSource.named sourceKind).totalDefault movie) member := by
  refine List.forall_mem_singleton.2 fun _ => ?_
  refine ⟨"int", .name "int", rfl, parse_int, ⟨List.nodup_nil, rfl⟩, ?_⟩
  intro htotal
  cases htotal

theorem movie_fields (sourceKind : ShapeProjectionSourceKind) :
    ((ShapeSource.named sourceKind).shape movie).fields
      = [{ name := "year", publicAlias := "year", annotation := some "int", required := true
           readonly := false, sourceKind := .sourceField }] := by
  have hqualifiers := shapeAnnotationQualifiers_of_parse parse_int
  show [ShapeProjectionField.fromClassMemberWithTotalDefault
    { kind := .field, name := "year", annotation := "int" } true] = _
  unfold ShapeProjectionField.fromClassMemberWithTotalDefault
  simp only [Option.some_or, Option.map_some, Option.getD_some, hqualifiers]
  rfl

theorem movie_plain (sourceKind : ShapeProjectionSourceKind) :
    PlainShape ((ShapeSource.named sourceKind).shape movie) := by
  intro field hfield
  rw [movie_fields, List.mem_singleton] at hfield
  rw [hfield]
  exact ⟨.name "int", by decide, by decide +kernel⟩

/-- The year is not required and read-only, in its flags and in its text. -/
theorem movie_steady : ShapeSteady movie 0
    (ShapeOperation.run ((ShapeSource.named .dataClass).shape movie)
      [.partialFields, .pick ["year"], .readonlyFields]) := by
  refine steady_run (.named .dataClass) movie [.partialFields, .pick ["year"], .readonlyFields]
    (movie_fits .dataClass) (stepsFit_of_plain ?_ (movie_plain .dataClass))
  intro operation hoperation wrapper hmap
  rw [hmap] at hoperation
  simp at hoperation

/-- With optional values, what is not required reads as required. -/
theorem movie_not_steady : ¬ ShapeSteady movie 1
    (ShapeOperation.run ((ShapeSource.named .dataClass).shape movie)
      [.partialFields, .mapValues "Optional"]) := by
  intro h
  have hstrip := stripShapeAnnotationQualifiers_eq parse_int true false
  have hrender : (TypeExpr.name "int").render = "int" := by decide +kernel
  have hfields : (ShapeOperation.run ((ShapeSource.named .dataClass).shape movie)
      [.partialFields, .mapValues "Optional"]).fields
      = [{ name := "year", publicAlias := "year", annotation := some "Optional[NotRequired[int]]"
           required := false, readonly := false, sourceKind := .projectionGenerated }] := by
    show (((ShapeSource.named .dataClass).shape movie).fields.map
      ShapeProjectionField.partialField).map (fun field => field.mapValue "Optional") = _
    rw [movie_fields]
    simp only [List.map_cons, List.map_nil, ShapeProjectionField.partialField,
      ShapeProjectionField.text, Option.getD_some, hstrip, Syntax.stripShapeAnnotationQualifiers,
      hrender]
    rfl
  have hwrapped : TypeExpr.parse "Optional[NotRequired[int]]"
      = some (.generic "Optional" [.generic "NotRequired" [.name "int"]]) := by
    have htext : (TypeExpr.generic "Optional" [.generic "NotRequired" [.name "int"]]).render
        = "Optional[NotRequired[int]]" := by decide +kernel
    rw [← htext]
    exact parse_render (by decide)
  rw [ShapeSteady, hfields] at h
  obtain ⟨-, -, -, expr, hreads, -⟩ := exists_of_sublistForall₂ h List.mem_cons_self
  obtain rfl : .generic "Optional" [.generic "NotRequired" [.name "int"]] = expr :=
    Option.some.inj (hwrapped.symm.trans hreads.parsed)
  have hrequired := hreads.required
  revert hrequired
  decide

end TypePython.Syntax.Texts
