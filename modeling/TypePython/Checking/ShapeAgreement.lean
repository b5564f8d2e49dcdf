import TypePython.Checking.TypedDictShapes
import TypePython.Emit.TypedDictInheritance

/-!
# One shape for the checker and the lowering

An alias of transforms over a TypedDict has one shape for the lowering and one for the checker. The
transforms do the same to both (`lowered_reads`, `checked_reads`), so the shapes agree exactly when
the two read the declarations of the fields alike (`shapesAgree_iff_fieldsReadAlike`).
-/

namespace TypePython.Checking.Shapes

open Std
open TypePython.Lib
open TypePython.Syntax
open TypePython.Binding
open TypePython.Emit

/-! ## Modules and aliases -/

/-- A module with classes and aliases, as the lowering has it and as it is bound. -/
structure TypedDictModule where
  classes : List NamedBlockStatement
  aliases : List (String × TypeExpr)
  node : ModuleNode
  declaration : NamedBlockStatement → Declaration
  distinct : (classes.map NamedBlockStatement.name).Nodup
  declared : ∀ block ∈ classes,
    topLevelNamed .classDecl node block.name = some (declaration block)
  bases : ∀ block ∈ classes, (declaration block).renderedClassBases
    = block.bases.map fun base => (BoundTypeExpr.new base).render
  fields : ∀ block ∈ classes,
    (node.declarations.filter fun member =>
        member.kind = .value && isOwnedBy block.name member).map
      (fun member => (member.name, ( member.valueAnnotation).map BoundTypeExpr.expr))
    = (block.members.filter fun member => member.kind = .field).map
      fun member => (member.name, member.annotation)
  aliased : ∀ entry ∈ aliases, ∃ declaration, topLevelNamed .typeAlias node entry.1
    = some declaration ∧ declaration.typeAliasValue = some ⟨entry.2⟩

def flagTransforms : List String := ["Partial", "Required_", "Readonly", "Mutable"]

/-- Transforms over a class, one around the other. -/
inductive Composes (classes : List NamedBlockStatement) (block : NamedBlockStatement) :
    TypeExpr → Prop
  | target : blockNamed classes block.name = some block → Composes classes block (.name block.name)
  | transform {head : String} {target : TypeExpr} {keyArgs : List TypeExpr} :
      head ∈ flagTransforms ∨ head = "Pick" ∨ head = "Omit" → Composes classes block target →
        Composes classes block (.generic head (target :: keyArgs))

/-! ## Readings -/

/-- What is compared of a field. -/
structure FieldReading where
  valueType : Option SemanticType
  required : Bool
  readonly : Bool

def loweredReading (field : ShapeProjectionField) : FieldReading where
  valueType := some (lowerTypeExpr field.valueType)
  required := field.required
  readonly := field.readonly

def TypedDictFieldShape.reading (field : TypedDictFieldShape) : FieldReading where
  valueType := some (lowerTypeExpr field.valueTypeExpr)
  required := field.required
  readonly := field.readonly

def ShapeField.reading (field : ShapeField) : FieldReading where
  valueType := field.semanticType
  required := field.required
  readonly := field.readonly

def readLowered (shape : ShapeProjection) (name : String) : Option FieldReading :=
  (lookField shape.fields name).map loweredReading

def Shape.read (shape : Shape) (name : String) : Option FieldReading :=
  (lastItem ShapeField.name shape.fields name).map ShapeField.reading

/-- The checker finds a shape, and it has the same fields. -/
def ShapesAgree (checked : Option Shape) (lowered : ShapeProjection) : Prop :=
  ∃ shape, checked = some shape ∧ ∀ name, shape.read name = readLowered lowered name

/-! ## What the transforms do -/

def setFlags (head : String) (reading : FieldReading) : FieldReading :=
  match head with
  | "Partial" => { reading with required := false }
  | "Required_" => { reading with required := true }
  | "Readonly" => { reading with readonly := true }
  | "Mutable" => { reading with readonly := false }
  | _ => reading

/-- The reading of a field once the transforms have set its flags. -/
def settled : TypeExpr → FieldReading → FieldReading
  | .generic head (target :: _), reading => setFlags head (settled target reading)
  | _, reading => reading

def selects (head : String) (keys : List String) (name : String) : Bool :=
  match head with
  | "Pick" => name ∈ keys
  | "Omit" => name ∉ keys
  | _ => true

/-- The transforms leave the field, as the lowering reads their keys. -/
def keptByLowering : TypeExpr → String → Bool
  | .generic head (target :: keyArgs), name =>
    keptByLowering target name
      && selects head ((renderAll keyArgs).flatMap transformKeyNames) name
  | _, _ => true

/-- The transforms leave the field, as the checker reads their keys. -/
def keptByChecker : TypeExpr → String → Bool
  | .generic head (target :: keyArgs), name =>
    keptByChecker target name
      && selects head ((semanticTransformKeys (lowerAll keyArgs)).getD []) name
  | _, _ => true

/-- The checker can read the keys that fields are picked and omitted by. -/
def KeysReadable : TypeExpr → Prop
  | .generic head (target :: keyArgs) =>
    KeysReadable target
      ∧ (head = "Pick" ∨ head = "Omit" → (semanticTransformKeys (lowerAll keyArgs)).isSome = true)
  | _ => True

/-! ## The declarations of the fields -/

section

variable (nodes : List ModuleNode) (typedDictTotal : ModuleNode → String → Option Bool)

/-- The TypedDicts the checker walks to, each behind those it walks to from there. -/
def walkedClasses (cls : ClassRef) : List ClassRef :=
  (collectTypedDictFields nodes typedDictTotal).order (classFuel nodes cls.1) cls

/-- The last declaration of the field in the last walked class that has one. -/
def lastDeclared (cls : ClassRef) (name : String) : Option TypedDictFieldShape :=
  (walkedClasses nodes typedDictTotal cls).reverse.findSome? fun walked =>
    lastEntry (declaredFields typedDictTotal walked) name

variable (classes : List NamedBlockStatement) (block : NamedBlockStatement) (cls : ClassRef)
  (value : TypeExpr)

/-- Both keep the field or neither does, and they read it alike. -/
structure FieldReadAlike (name : String) : Prop where
  known : keptByLowering value name = true ∧ Brings classes block name
    ↔ keptByChecker value name = true
      ∧ (lastDeclared nodes typedDictTotal cls name).isSome = true
  alike : ∀ written declared, keptByLowering value name = true →
    Written classes block name written → lastDeclared nodes typedDictTotal cls name = some declared →
      settled value (loweredReading written) = settled value declared.reading

structure AliasReadAlike : Prop where
  typedDict : isTypedDictClass nodes cls = true
  keys : KeysReadable value
  fields : ∀ name, FieldReadAlike nodes typedDictTotal classes block cls value name

end

/-! ## Transformed shapes -/

variable {head : String}

theorem selects_of_flag (h : head ∈ flagTransforms) (keys : List String) (name : String) :
    selects head keys name = true := by
  simp only [flagTransforms, List.mem_cons, List.not_mem_nil, or_false] at h
  rcases h with rfl | rfl | rfl | rfl <;> rfl

theorem settled_name (name : String) : settled (.name name) = id := by
  funext reading
  simp [settled]

theorem keptByLowering_name (target name : String) : keptByLowering (.name target) name = true := by
  simp [keptByLowering]

theorem keptByChecker_name (target name : String) : keptByChecker (.name target) name = true := by
  simp [keptByChecker]

/-- A transform of what the transforms inside leave. -/
theorem read_transformed {target : TypeExpr} {keyArgs : List TypeExpr} (kept selected : Bool)
    (reading : Option FieldReading) :
    (if selected then (if kept then reading.map (settled target) else none).map (setFlags head)
      else none)
      = if kept && selected then reading.map (settled (.generic head (target :: keyArgs)))
        else none := by
  have hsettled : settled (.generic head (target :: keyArgs)) = setFlags head ∘ settled target := by
    funext reading
    rw [settled]
    rfl
  rw [hsettled]
  cases selected <;> cases kept <;> simp

theorem lookField_map {f : ShapeProjectionField → ShapeProjectionField}
    (hname : ∀ field, (f field).name = field.name) (fields : List ShapeProjectionField)
    (name : String) : lookField (fields.map f) name = (lookField fields name).map f :=
  lastItem_map hname fields name

variable {fields : List ShapeProjectionField}

/-- A transform that rewrites every field. -/
theorem flagged_reads {f : ShapeProjectionField → ShapeProjectionField}
    (hplain : PlainAliases fields)
    (hname : ∀ field, (f field).name = field.name ∧ (f field).publicAlias = field.publicAlias)
    (hreading : ∀ field, loweredReading (f field) = setFlags head (loweredReading field)) :
    PlainAliases (fields.map f) ∧ ∀ name, (lookField (fields.map f) name).map loweredReading
      = ((lookField fields name).map loweredReading).map (setFlags head) := by
  constructor
  · intro field hfield
    obtain ⟨source, hsource, rfl⟩ := List.mem_map.1 hfield
    rw [(hname source).1, (hname source).2]
    exact hplain source hsource
  · intro name
    rw [lookField_map fun field => (hname field).1, Option.map_map, Option.map_map]
    exact congrArg (fun h => Option.map h _) (funext hreading)

/-- A transform that keeps some of the fields as they are. -/
theorem selected_reads (p : ShapeProjectionField → Bool) (keep : String → Bool)
    (hplain : PlainAliases fields) (hp : ∀ field ∈ fields, p field = keep field.name) :
    PlainAliases ((fields.filter p).map ShapeProjectionField.projected) ∧ ∀ name,
      (lookField ((fields.filter p).map ShapeProjectionField.projected) name).map loweredReading
        = if keep name then (lookField fields name).map loweredReading else none := by
  constructor
  · intro field hfield
    obtain ⟨source, hsource, rfl⟩ := List.mem_map.1 hfield
    exact hplain source (List.mem_filter.1 hsource).1
  · intro name
    have hlook : lookField ((fields.filter p).map ShapeProjectionField.projected) name
        = (lookField (fields.filter p) name).map ShapeProjectionField.projected :=
      lastItem_map (fun _ => rfl) _ name
    rw [hlook, lookField, lastItem_filter hp, Option.map_map]
    split
    · rfl
    · rfl

theorem isNamed_of_plain (h : PlainAliases fields) (keys : List String) :
    ∀ field ∈ fields, field.isNamed keys = decide (field.name ∈ keys) := by
  intro field hfield
  rw [Bool.eq_iff_iff, ShapeProjectionField.isNamed, List.any_eq_true, decide_eq_true_eq]
  simp [h field hfield]

theorem loweredReading_partialField (field : ShapeProjectionField) :
    loweredReading field.partialField = setFlags "Partial" (loweredReading field) := by
  rw [loweredReading, ShapeProjectionField.valueType_partialField]
  rfl

theorem loweredReading_requiredField (field : ShapeProjectionField) :
    loweredReading field.requiredField = setFlags "Required_" (loweredReading field) := by
  rw [loweredReading, ShapeProjectionField.valueType_requiredField]
  rfl

theorem loweredReading_readonlyField (field : ShapeProjectionField) :
    loweredReading field.readonlyField = setFlags "Readonly" (loweredReading field) := by
  rw [loweredReading, ShapeProjectionField.valueType_readonlyField]
  rfl

theorem loweredReading_mutableField (field : ShapeProjectionField) :
    loweredReading field.mutableField = setFlags "Mutable" (loweredReading field) := by
  rw [loweredReading, ShapeProjectionField.valueType_mutableField]
  rfl

/-- One transform of the lowering. -/
theorem readLowered_apply (hhead : head ∈ flagTransforms ∨ head = "Pick" ∨ head = "Omit")
    {shape : ShapeProjection} (hplain : PlainAliases shape.fields) (keyArgs : List String) :
    PlainAliases (applyTransformToShape head shape keyArgs).fields
      ∧ ∀ name, readLowered (applyTransformToShape head shape keyArgs) name
        = if selects head (keyArgs.flatMap transformKeyNames) name then
            (readLowered shape name).map (setFlags head)
          else none := by
  rcases hhead with hflag | rfl | rfl
  · simp only [selects_of_flag hflag, if_true]
    simp only [flagTransforms, List.mem_cons, List.not_mem_nil, or_false] at hflag
    rcases hflag with rfl | rfl | rfl | rfl
    · exact flagged_reads hplain (fun _ => ⟨rfl, rfl⟩) loweredReading_partialField
    · exact flagged_reads hplain (fun _ => ⟨rfl, rfl⟩) loweredReading_requiredField
    · exact flagged_reads hplain (fun _ => ⟨rfl, rfl⟩) loweredReading_readonlyField
    · exact flagged_reads hplain (fun _ => ⟨rfl, rfl⟩) loweredReading_mutableField
  · have hsame : setFlags "Pick" = id := rfl
    simp only [hsame, Option.map_id, id]
    exact selected_reads _ (selects "Pick" (keyArgs.flatMap transformKeyNames)) hplain
      (isNamed_of_plain hplain _)
  · have hsame : setFlags "Omit" = id := rfl
    simp only [hsame, Option.map_id, id]
    refine selected_reads _ (selects "Omit" (keyArgs.flatMap transformKeyNames)) hplain ?_
    intro field hfield
    rw [isNamed_of_plain hplain _ field hfield]
    exact (decide_not).symm

/-- What the lowering makes of transforms over a class. -/
theorem lowered_reads {classes dataClasses : List NamedBlockStatement} {experimental : Bool}
    {block : NamedBlockStatement} {value : TypeExpr} (hvalue : Composes classes block value) :
    ∀ {shape : ShapeProjection},
      resolveTransformShape classes dataClasses experimental value = .ok (some shape) →
        ∃ base, resolveLocalTypedDictShape classes block.name = .ok (some base)
          ∧ (PlainAliases base.fields → PlainAliases shape.fields ∧ ∀ name,
            readLowered shape name
              = if keptByLowering value name then (readLowered base name).map (settled value)
                else none) := by
  induction hvalue with
  | target hblock =>
    intro shape h
    rw [resolveTransformShape, resolveTransformTarget, hblock, Option.isSome_some, if_pos rfl] at h
    refine ⟨shape, h, fun hplain => ⟨hplain, fun name => ?_⟩⟩
    rw [settled_name, Option.map_id, keptByLowering_name, if_pos rfl]
    rfl
  | @transform head target keyArgs hhead _ ih =>
    intro shape h
    have htransform : head ∈ typedDictTransforms ∧ head ≠ "MapValues" := by
      rcases hhead with hflag | rfl | rfl
      · simp only [flagTransforms, List.mem_cons, List.not_mem_nil, or_false] at hflag
        rcases hflag with rfl | rfl | rfl | rfl <;> decide
      · decide
      · decide
    rw [resolveTransformShape, if_pos htransform.1, if_neg (by simp [htransform.2])] at h
    cases hinner : resolveTransformShape classes dataClasses experimental target with
    | error error =>
      rw [hinner] at h
      cases h
    | ok result =>
      rw [hinner] at h
      cases result with
      | none => cases h
      | some inner =>
        have hshape : applyTransformToShape head inner (renderAll keyArgs) = shape :=
          Option.some.inj (Except.ok.inj h)
        obtain ⟨base, hbase, hreads⟩ := ih hinner
        refine ⟨base, hbase, fun hplain => ?_⟩
        obtain ⟨hinnerPlain, hinnerReads⟩ := hreads hplain
        obtain ⟨hshapePlain, hshapeReads⟩ :=
          readLowered_apply hhead hinnerPlain (renderAll keyArgs)
        rw [hshape] at hshapePlain hshapeReads
        refine ⟨hshapePlain, fun name => ?_⟩
        rw [hshapeReads, hinnerReads, keptByLowering, read_transformed]

/-! ## Transformed shapes of the checker -/

/-- Fields are known under their names only. -/
def PlainFields (fields : List ShapeField) : Prop :=
  ∀ field ∈ fields, field.publicAlias = field.name

theorem flaggedFields_read {f : ShapeField → ShapeField} {fields : List ShapeField}
    (hplain : PlainFields fields)
    (hname : ∀ field, (f field).name = field.name ∧ (f field).publicAlias = field.publicAlias)
    (hreading : ∀ field, (f field).reading = setFlags head field.reading) :
    PlainFields (fields.map f) ∧ ∀ name,
      (lastItem ShapeField.name (fields.map f) name).map ShapeField.reading
        = ((lastItem ShapeField.name fields name).map ShapeField.reading).map (setFlags head) := by
  constructor
  · intro field hfield
    obtain ⟨source, hsource, rfl⟩ := List.mem_map.1 hfield
    rw [(hname source).1, (hname source).2]
    exact hplain source hsource
  · intro name
    rw [lastItem_map fun field => (hname field).1, Option.map_map, Option.map_map]
    exact congrArg (fun h => Option.map h _) (funext hreading)

theorem selectedFields_read (p : ShapeField → Bool) (keep : String → Bool)
    {fields : List ShapeField} (hplain : PlainFields fields)
    (hp : ∀ field ∈ fields, p field = keep field.name) :
    PlainFields (fields.filter p) ∧ ∀ name,
      (lastItem ShapeField.name (fields.filter p) name).map ShapeField.reading
        = if keep name then (lastItem ShapeField.name fields name).map ShapeField.reading
          else none := by
  constructor
  · exact fun field hfield => hplain field (List.mem_filter.1 hfield).1
  · intro name
    rw [lastItem_filter hp]
    split
    · rfl
    · rfl

/-- One transform of the checker. -/
theorem read_apply (hhead : head ∈ flagTransforms ∨ head = "Pick" ∨ head = "Omit") {shape : Shape}
    (hplain : PlainFields shape.fields) {keyArgs : List SemanticType}
    (hkeys : head = "Pick" ∨ head = "Omit" → (semanticTransformKeys keyArgs).isSome = true) :
    ∃ shape', applyShapeTransform head keyArgs shape = some shape' ∧ PlainFields shape'.fields
      ∧ ∀ name, shape'.read name
        = if selects head ((semanticTransformKeys keyArgs).getD []) name then
            (shape.read name).map (setFlags head)
          else none := by
  rcases hhead with hflag | rfl | rfl
  · simp only [selects_of_flag hflag, if_true]
    simp only [flagTransforms, List.mem_cons, List.not_mem_nil, or_false] at hflag
    rcases hflag with rfl | rfl | rfl | rfl
    · exact ⟨_, rfl, flaggedFields_read hplain (fun _ => ⟨rfl, rfl⟩) fun _ => rfl⟩
    · exact ⟨_, rfl, flaggedFields_read hplain (fun _ => ⟨rfl, rfl⟩) fun _ => rfl⟩
    · exact ⟨_, rfl, flaggedFields_read hplain (fun _ => ⟨rfl, rfl⟩) fun _ => rfl⟩
    · exact ⟨_, rfl, flaggedFields_read hplain (fun _ => ⟨rfl, rfl⟩) fun _ => rfl⟩
  · obtain ⟨keys, hread⟩ := Option.isSome_iff_exists.1 (hkeys (.inl rfl))
    have hsame : setFlags "Pick" = id := rfl
    simp only [hread, hsame, Option.map_id, id, Option.getD_some]
    refine ⟨shape.pick keys, by simp [applyShapeTransform, hread], ?_⟩
    refine selectedFields_read _ (selects "Pick" keys) hplain fun field hfield => ?_
    rw [hplain field hfield, Bool.or_self]
    rfl
  · obtain ⟨keys, hread⟩ := Option.isSome_iff_exists.1 (hkeys (.inr rfl))
    have hsame : setFlags "Omit" = id := rfl
    simp only [hread, hsame, Option.map_id, id, Option.getD_some]
    refine ⟨shape.omitFields keys, by simp [applyShapeTransform, hread], ?_⟩
    refine selectedFields_read _ (selects "Omit" keys) hplain fun field hfield => ?_
    rw [hplain field hfield, Bool.and_self]
    rfl

theorem apply_unreadable (hhead : head = "Pick" ∨ head = "Omit") {keyArgs : List SemanticType}
    (hkeys : (semanticTransformKeys keyArgs).isSome ≠ true) (shape : Shape) :
    applyShapeTransform head keyArgs shape = none := by
  have hnone : semanticTransformKeys keyArgs = none := by simpa using hkeys
  rcases hhead with rfl | rfl <;> simp [applyShapeTransform, hnone]

section

variable {nodes : List ModuleNode} {typedDictTotal : ModuleNode → String → Option Bool}
  {classShape : ModuleNode → String → Option Shape} {node : ModuleNode}
  {classes : List NamedBlockStatement} {block : NamedBlockStatement}

theorem resolveShape_transform (hhead : head ∈ flagTransforms ∨ head = "Pick" ∨ head = "Omit")
    (target : TypeExpr) (keyArgs : List TypeExpr) :
    resolveShapeFromSemanticType nodes typedDictTotal classShape node
        (lowerTypeExpr (.generic head (target :: keyArgs)))
      = (resolveShapeFromSemanticType nodes typedDictTotal classShape node
          (lowerTypeExpr target)).bind (applyShapeTransform head (lowerAll keyArgs)) := by
  have htransform : head ∈ shapeTransforms := by
    rcases hhead with hflag | rfl | rfl
    · simp only [flagTransforms, List.mem_cons, List.not_mem_nil, or_false] at hflag
      rcases hflag with rfl | rfl | rfl | rfl <;> decide
    · decide
    · decide
  rw [lowerTypeExpr, lowerAll, resolveShapeFromSemanticType, if_pos htransform]

/-- What the checker makes of transforms over a name that has a shape. -/
theorem checked_reads {value : TypeExpr} (hvalue : Composes classes block value) {base : Shape}
    (hbase : resolveKnownShape nodes typedDictTotal classShape node block.name = some base)
    (hplain : PlainFields base.fields) (hkeys : KeysReadable value) :
    ∃ shape, resolveShapeFromSemanticType nodes typedDictTotal classShape node
        (lowerTypeExpr value) = some shape
      ∧ PlainFields shape.fields
      ∧ ∀ name, shape.read name
        = if keptByChecker value name then (base.read name).map (settled value) else none := by
  induction hvalue with
  | target _ =>
    refine ⟨base, hbase, hplain, fun name => ?_⟩
    rw [settled_name, Option.map_id, keptByChecker_name, if_pos rfl]
    rfl
  | @transform head target keyArgs hhead _ ih =>
    rw [KeysReadable] at hkeys
    obtain ⟨inner, hinner, hinnerPlain, hinnerReads⟩ := ih hkeys.1
    obtain ⟨shape, hshape, hshapePlain, hshapeReads⟩ := read_apply hhead hinnerPlain hkeys.2
    refine ⟨shape, ?_, hshapePlain, fun name => ?_⟩
    · rw [resolveShape_transform hhead, hinner, Option.bind_some, hshape]
    · rw [hshapeReads, hinnerReads, keptByChecker, read_transformed]

/-- Without readable keys nothing is found. -/
theorem resolveShape_unreadable {value : TypeExpr} (hvalue : Composes classes block value)
    (hkeys : ¬ KeysReadable value) :
    resolveShapeFromSemanticType nodes typedDictTotal classShape node (lowerTypeExpr value)
      = none := by
  induction hvalue with
  | target _ => exact absurd trivial (by simp [KeysReadable] at hkeys)
  | @transform head target keyArgs hhead _ ih =>
    rw [resolveShape_transform hhead]
    rw [KeysReadable, not_and_or] at hkeys
    rcases hkeys with hinner | hown
    · rw [ih hinner]
      rfl
    · rw [Classical.not_imp] at hown
      cases hresult : resolveShapeFromSemanticType nodes typedDictTotal classShape node
          (lowerTypeExpr target) with
      | none => rfl
      | some inner => exact apply_unreadable hown.1 hown.2 inner

theorem resolveShape_unknown {value : TypeExpr} (hvalue : Composes classes block value)
    (hbase : resolveKnownShape nodes typedDictTotal classShape node block.name = none) :
    resolveShapeFromSemanticType nodes typedDictTotal classShape node (lowerTypeExpr value)
      = none := by
  induction hvalue with
  | target _ => exact hbase
  | transform hhead _ ih =>
    rw [resolveShape_transform hhead, ih]
    rfl

end

/-! ## What the checker collects -/

variable {lowered : ShapeProjection}

section

variable {nodes : List ModuleNode} {typedDictTotal : ModuleNode → String → Option Bool}
  {classShape : ModuleNode → String → Option Shape} {node : ModuleNode}

/-- Fields put in class by class: those of the last class that has the name count. -/
theorem getElem?_foldl_leave (places : List ClassRef)
    (start : ExtTreeMap String TypedDictFieldShape) (name : String) :
    (places.foldl (collectTypedDictFields nodes typedDictTotal).leave start)[name]?
      = (places.reverse.findSome? fun walked =>
          lastEntry (declaredFields typedDictTotal walked) name).or start[name]? := by
  induction places generalizing start with
  | nil => rfl
  | cons place rest ih =>
    have hleave : ((collectTypedDictFields nodes typedDictTotal).leave start place)[name]?
        = (lastEntry (declaredFields typedDictTotal place) name).or start[name]? :=
      getElem?_foldl_insert (declaredFields typedDictTotal place) start name
    rw [List.foldl_cons, ih, hleave, List.reverse_cons, List.findSome?_append, Option.or_assoc,
      List.findSome?_singleton]

theorem read_fromTypedDictShape (shape : TypedDictShape) (name : String) :
    (Shape.fromTypedDictShape shape).read name
      = (shape.fields[name]?).map TypedDictFieldShape.reading := by
  have hmap : lastItem ShapeField.name (Shape.fromTypedDictShape shape).fields name
      = (lastItem Prod.fst shape.fields.toList name).map _ :=
    lastItem_map (fun _ => rfl) shape.fields.toList name
  rw [← lastEntry_toList, lastEntry, Shape.read, hmap, Option.map_map, Option.map_map]
  rfl

theorem plainFields_fromTypedDictShape (shape : TypedDictShape) :
    PlainFields (Shape.fromTypedDictShape shape).fields := by
  intro field hfield
  obtain ⟨entry, -, rfl⟩ := List.mem_map.1 hfield
  rfl

/-- The shape of a TypedDict that a name resolves to. -/
theorem resolveKnownShape_typedDict {name : String} {cls : ClassRef}
    (hclass : resolveDirectBase nodes node name = some cls)
    (htyped : isTypedDictClass nodes cls = true) :
    ∃ base, resolveKnownShape nodes typedDictTotal classShape node name = some base
      ∧ PlainFields base.fields
      ∧ ∀ field, base.read field
        = (lastDeclared nodes typedDictTotal cls field).map TypedDictFieldShape.reading := by
  have hshape : resolveKnownTypedDictShape nodes typedDictTotal node name = some {
      name := cls.2.name
      fields := ((collectTypedDictFields nodes typedDictTotal).run (classFuel nodes cls.1)
        ([], ∅) cls).2 } := by
    rw [resolveKnownTypedDictShape, hclass, Option.bind_some, if_pos htyped]
  refine ⟨_, by rw [resolveKnownShape, hshape]; rfl, plainFields_fromTypedDictShape _, ?_⟩
  intro field
  rw [read_fromTypedDictShape, LeavingWalk.run_eq_foldl_order, getElem?_foldl_leave,
    ExtTreeMap.getElem?_empty, Option.or_none]
  rfl

theorem resolveKnownShape_other {name : String} {cls : ClassRef}
    (hclass : resolveDirectBase nodes node name = some cls)
    (htyped : isTypedDictClass nodes cls ≠ true) (hother : classShape node name = none) :
    resolveKnownShape nodes typedDictTotal classShape node name = none := by
  rw [resolveKnownShape, resolveKnownTypedDictShape, hclass, Option.bind_some, if_neg htyped, hother]
  rfl

/-! ## The shapes of an alias -/

theorem TypedDictModule.resolveDirectBase_eq (module : TypedDictModule)
    {block : NamedBlockStatement} (hblock : block ∈ module.classes) :
    resolveDirectBase nodes module.node block.name
      = some (module.node, module.declaration block) := by
  rw [resolveDirectBase, module.declared block hblock]

/-- An alias has the shape of its value, under its own name. -/
theorem TypedDictModule.resolveAlias_eq (module : TypedDictModule) {aliasName : String}
    {value : TypeExpr} (halias : (aliasName, value) ∈ module.aliases) :
    resolveKnownShapeFromTypeAlias nodes typedDictTotal classShape module.node aliasName
      = (resolveShapeFromSemanticType nodes typedDictTotal classShape module.node
          (lowerTypeExpr value)).map fun shape => { shape with name := aliasName } := by
  obtain ⟨declaration, hnamed, hvalue⟩ := module.aliased _ halias
  have hkind := (topLevelNamed_spec hnamed).2.2.2
  have hresolved : resolveDirectTypeAlias nodes module.node aliasName
      = some (module.node, declaration) := by
    rw [resolveDirectTypeAlias, hnamed]
  have hsemantics : (declarationSemanticFacts declaration).typeAlias = some {
      head := declaration.name
      typeParams := declaration.typeParams
      bodyText := BoundTypeExpr.render ⟨value⟩
      body := lowerTypeExpr value } := by
    simp only [declarationSemanticFacts]
    rw [if_pos hkind, hvalue]
    rfl
  rw [resolveKnownShapeFromTypeAlias, hresolved, Option.bind_eq_bind, Option.bind_some]
  dsimp only
  rw [hsemantics, Option.bind_eq_bind, Option.bind_some]
  cases resolveShapeFromSemanticType nodes typedDictTotal classShape module.node
    (lowerTypeExpr value) <;> rfl

theorem selected_eq_iff {α β γ : Type} {kept kept' : Bool} {x : Option α} {y : Option β}
    {f : α → γ} {g : β → γ} :
    (if kept' then y.map g else none) = (if kept then x.map f else none)
      ↔ ((kept = true ∧ x.isSome = true) ↔ (kept' = true ∧ y.isSome = true))
        ∧ ∀ a b, kept = true → x = some a → y = some b → f a = g b := by
  cases kept <;> cases kept' <;> cases x <;> cases y <;> simp [eq_comm]

/-- The classes a name and its transforms are about. -/
theorem Composes.blockNamed_eq {classes : List NamedBlockStatement} {block : NamedBlockStatement}
    {value : TypeExpr} (h : Composes classes block value) :
    blockNamed classes block.name = some block := by
  induction h with
  | target hblock => exact hblock
  | transform _ _ ih => exact ih

theorem shapesAgree_map {checked : Option Shape} (aliasName : String) :
    ShapesAgree (checked.map fun shape => { shape with name := aliasName }) lowered
      ↔ ShapesAgree checked lowered := by
  cases checked with
  | none => exact Iff.rfl
  | some shape =>
    constructor
    · rintro ⟨_, ⟨⟩, hreads⟩
      exact ⟨shape, rfl, hreads⟩
    · rintro ⟨_, ⟨⟩, hreads⟩
      exact ⟨_, rfl, hreads⟩

theorem shapesAgree_some {checked : Shape} : ShapesAgree (some checked) lowered
      ↔ ∀ name, checked.read name = readLowered lowered name := by
  constructor
  · rintro ⟨_, ⟨⟩, hreads⟩
    exact hreads
  · intro hreads
    exact ⟨checked, rfl, hreads⟩

theorem not_shapesAgree_none : ¬ ShapesAgree none lowered := by
  rintro ⟨_, hnone, -⟩
  cases hnone

/-- What one name reads as on the two sides. -/
theorem fieldReadAlike_iff {cls : ClassRef} {classes : List NamedBlockStatement}
    {block : NamedBlockStatement} {value : TypeExpr}
    (hreads : Hierarchy.Reads (lookField lowered.fields) (Written classes block) (Brings classes block))
    (name : String) : (if keptByChecker value name then
        (lastDeclared nodes typedDictTotal cls name).map
          (settled value ∘ TypedDictFieldShape.reading)
      else none)
        = (if keptByLowering value name then
            (lookField lowered.fields name).map (settled value ∘ loweredReading)
          else none)
      ↔ FieldReadAlike nodes typedDictTotal classes block cls value name := by
  rw [selected_eq_iff, hreads.brings]
  constructor
  · intro h
    refine ⟨h.1, fun written declared hkept hwritten hdeclared => ?_⟩
    exact h.2 written declared hkept ((hreads.written name written).2 hwritten) hdeclared
  · intro h
    refine ⟨h.known, fun written declared hkept hlook hdeclared => ?_⟩
    exact h.alike written declared hkept ((hreads.written name written).1 hlook) hdeclared

end

/-! ## A user and a box -/

def typedDictClass (block : NamedBlockStatement) (bases : List TypeExpr) : Declaration where
  name := block.name
  kind := .classDecl
  metadata := .classDecl (bases.map fun expr => { expr })
  classKind := some .classDecl

def typedDictField (block : NamedBlockStatement) (name : String) (expr : TypeExpr) :
    Declaration where
  name := name
  kind := .value
  metadata := .value (some { expr })
  owner := some { name := block.name, kind := .classDecl }

def aliasDeclaration (name : String) (value : TypeExpr) : Declaration where
  name := name
  kind := .typeAlias
  metadata := .typeAlias { expr := value } none

/-- `class User(TypedDict): name: str` -/
def userBlock : NamedBlockStatement where
  name := "User"
  bases := ["TypedDict"]
  members := [{ kind := .field, name := "name", annotation := some (.name "str") }]

/-- `Partial[User]` -/
def partialUser : TypeExpr := .generic "Partial" [.name "User"]

def userModule : TypedDictModule where
  classes := [userBlock]
  aliases := [("PartialUser", partialUser)]
  node := {
    moduleKey := "users"
    declarations := [typedDictClass userBlock [.name "TypedDict"],
      typedDictField userBlock "name" (.name "str"), aliasDeclaration "PartialUser" partialUser] }
  declaration := fun _ => typedDictClass userBlock [.name "TypedDict"]
  distinct := by decide
  declared := by
    intro block hblock
    obtain rfl := List.mem_singleton.1 hblock
    rfl
  bases := by
    intro block hblock
    obtain rfl := List.mem_singleton.1 hblock
    rfl
  fields := by
    intro block hblock
    obtain rfl := List.mem_singleton.1 hblock
    rfl
  aliased := by
    intro entry hentry
    obtain rfl := List.mem_singleton.1 hentry
    exact ⟨aliasDeclaration "PartialUser" partialUser, rfl, rfl⟩

def partialUserShape : ShapeProjection :=
  (ShapeProjection.fromTypedDictBlock userBlock).partialFields

theorem partialUser_accepted : LoweringAccepts [userBlock] [] false partialUser partialUserShape where
  quiet := rfl
  resolved := rfl

theorem partialUser_composes : Composes [userBlock] userBlock partialUser :=
  .transform (.inl (by decide)) (.target rfl)

def partialNameField : ShapeField where
  name := "name"
  publicAlias := "name"
  semanticType := some (.name "str")
  required := false
  readonly := false

theorem partialUser_shapesAgree : ShapesAgree (resolveKnownShapeFromTypeAlias [userModule.node]
    (fun _ _ => none) (fun _ _ => none) userModule.node "PartialUser") partialUserShape := by
  refine ⟨{ name := "PartialUser", fields := [partialNameField] }, rfl, fun name => ?_⟩
  obtain ⟨field, hfields, hname, hreading⟩ : ∃ field, partialUserShape.fields = [field]
      ∧ field.name = partialNameField.name ∧ loweredReading field = partialNameField.reading :=
    ⟨_, rfl, rfl, rfl⟩
  rw [Shape.read, readLowered, lookField, hfields, lastItem_singleton, lastItem_singleton, hname]
  split
  · rw [Option.map_some, Option.map_some, hreading]
  · rfl

/-- `class Box[T](TypedDict): value: T` -/
def boxBlock : NamedBlockStatement where
  name := "Box"
  typeParams := [{ kind := .typeVar, name := "T" }]
  bases := ["TypedDict"]
  members := [{ kind := .field, name := "value", annotation := some (.name "T") }]

/-- `class IntBox(Box[int])` -/
def intBoxBlock : NamedBlockStatement where
  name := "IntBox"
  bases := ["Box[int]"]

/-- `Partial[IntBox]` -/
def partialIntBox : TypeExpr := .generic "Partial" [.name "IntBox"]

def genericBoxClass : Declaration :=
  { typedDictClass boxBlock [.name "TypedDict"] with
    typeParams := [{ kind := .typeVar, name := "T" }] }

def intBoxClass : Declaration := typedDictClass intBoxBlock [.generic "Box" [.name "int"]]

def genericBoxModule : TypedDictModule where
  classes := [boxBlock, intBoxBlock]
  aliases := [("PartialIntBox", partialIntBox)]
  node := {
    moduleKey := "boxes"
    declarations := [genericBoxClass, typedDictField boxBlock "value" (.name "T"), intBoxClass,
      aliasDeclaration "PartialIntBox" partialIntBox] }
  declaration := fun block => if block.name = "Box" then genericBoxClass else intBoxClass
  distinct := by decide
  declared := by
    intro block hblock
    rcases List.mem_pair.1 hblock with rfl | rfl
    · rfl
    · rfl
  bases := by
    intro block hblock
    rcases List.mem_pair.1 hblock with rfl | rfl
    · rfl
    · rfl
  fields := by
    intro block hblock
    rcases List.mem_pair.1 hblock with rfl | rfl
    · rfl
    · rfl
  aliased := by
    intro entry hentry
    obtain rfl := List.mem_singleton.1 hentry
    exact ⟨aliasDeclaration "PartialIntBox" partialIntBox, rfl, rfl⟩

/-- The field of the box, with the type parameter replaced. -/
def intBoxShape : ShapeProjection where
  name := "IntBox"
  sourceKind := .typedDict
  fields := (ShapeProjection.fromTypedDictBlock boxBlock).fields.map
    (substituteProjectionFieldType "Box[int]" boxBlock)

theorem partialIntBox_accepted :
    LoweringAccepts [boxBlock, intBoxBlock] [] false partialIntBox intBoxShape.partialFields where
  quiet := rfl
  resolved := rfl

theorem partialIntBox_composes : Composes [boxBlock, intBoxBlock] intBoxBlock partialIntBox :=
  .transform (.inl (by decide)) (.target rfl)

end TypePython.Checking.Shapes
