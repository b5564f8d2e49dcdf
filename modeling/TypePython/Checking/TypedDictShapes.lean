import TypePython.Checking.HierarchyWalks
import TypePython.Checking.TypeLevel
import TypePython.Lib.LeavingOrder

/-!
# Shapes of TypedDicts

The shape the checker resolves for an alias. The fields of a TypedDict are collected by one walk
through its bases that enters no class twice, and only bases that are found under their whole text
are walked to.
-/

namespace TypePython.Checking.Shapes

open Std
open TypePython.Lib
open TypePython.Lib.Text
open TypePython.Syntax
open TypePython.Binding

/-! ## Fields -/

structure TypedDictFieldShape where
  valueTypeExpr : TypeExpr
  required : Bool
  readonly : Bool

/-- The loop that takes the qualifiers off an annotation. -/
def parseQualifiedFieldShape : TypeExpr → Bool → Bool → TypedDictFieldShape
  | .generic "Required" [inner], _, readonly => parseQualifiedFieldShape inner true readonly
  | .generic "NotRequired" [inner], _, readonly => parseQualifiedFieldShape inner false readonly
  | .generic "ReadOnly" [inner], required, _ => parseQualifiedFieldShape inner required true
  | expr, required, readonly => { valueTypeExpr := expr, required, readonly }

def parseTypedDictFieldShape (expr : TypeExpr) (totalDefault : Bool) : TypedDictFieldShape :=
  parseQualifiedFieldShape expr totalDefault false

structure TypedDictShape where
  name : String
  fields : ExtTreeMap String TypedDictFieldShape

structure ShapeField where
  name : String
  publicAlias : String
  semanticType : Option SemanticType
  required : Bool
  readonly : Bool

structure Shape where
  name : String
  fields : List ShapeField

namespace Shape

def fromTypedDictShape (shape : TypedDictShape) : Shape where
  name := shape.name
  fields := shape.fields.toList.map fun (name, field) =>
    { name
      publicAlias := name
      semanticType := some (lowerTypeExpr field.valueTypeExpr)
      required := field.required
      readonly := field.readonly }

variable (shape : Shape)

def withProjectedFields (fields : List ShapeField) : Shape := { shape with fields }

def partialFields : Shape :=
  shape.withProjectedFields (shape.fields.map fun field => { field with required := false })

def requiredFields : Shape :=
  shape.withProjectedFields (shape.fields.map fun field => { field with required := true })

def readonlyFields : Shape :=
  shape.withProjectedFields (shape.fields.map fun field => { field with readonly := true })

def mutableFields : Shape :=
  shape.withProjectedFields (shape.fields.map fun field => { field with readonly := false })

def pick (names : List String) : Shape :=
  shape.withProjectedFields
    (shape.fields.filter fun field => field.name ∈ names || field.publicAlias ∈ names)

def omitFields (names : List String) : Shape :=
  shape.withProjectedFields
    (shape.fields.filter fun field => field.name ∉ names && field.publicAlias ∉ names)

def mapValues (wrapper : String) : Option Shape :=
  if wrapper = "Optional" then
    some (shape.withProjectedFields (shape.fields.map fun field =>
      { field with
        semanticType := some (.generic "Optional" [field.semanticType.getD (.name "object")]) }))
  else if wrapper ∈ ["Readonly", "ReadOnly"] then some shape.readonlyFields
  else none

end Shape

/-! ## Keys -/

def semanticStringLiteral (ty : SemanticType) : Option String :=
  keyLiteralValue (renderSemanticType ty)

mutual

def semanticKeySet : SemanticType → Option (List String)
  | .annotated value _ => semanticKeySet value
  | .generic head args =>
    if head = "Literal" then args.mapM semanticStringLiteral
    else (semanticStringLiteral (.generic head args)).map fun key => [key]
  | .union branches => semanticKeySets branches
  | .name name => (semanticStringLiteral (.name name)).map fun key => [key]
  | .callable params returnType =>
    (semanticStringLiteral (.callable params returnType)).map fun key => [key]
  | .unpack inner => (semanticStringLiteral (.unpack inner)).map fun key => [key]

def semanticKeySets : List SemanticType → Option (List String)
  | [] => some []
  | ty :: rest => do
    let keys ← semanticKeySet ty
    let others ← semanticKeySets rest
    return keys ++ others

end

def semanticTransformKeys (args : List SemanticType) : Option (List String) :=
  match args with
  | [arg] => semanticKeySet arg
  | args => args.mapM semanticStringLiteral

/-! ## TypedDict classes -/

def isTypedDictBaseName (base : String) : Bool :=
  String.ofList (trim base.toList) ∈
    ["TypedDict", "typing.TypedDict", "typing_extensions.TypedDict"]

section

variable (nodes : List ModuleNode)

def isTypedDictClassWithVisited : RememberingSearch ClassRef ClassKey Unit Unit where
  key := ClassRef.key
  atOnce := fun _ => none
  enter := fun cls _ => (if isTypedDictBaseName cls.2.name then some () else none, ())
  next := fun cls => cls.2.renderedClassBases.filterMap fun base =>
    if isTypedDictBaseName base then some (.inl ())
    else (resolveDirectBase nodes cls.1 base).map .inr

def isTypedDictClass (cls : ClassRef) : Bool :=
  (((isTypedDictClassWithVisited nodes).run (classFuel nodes cls.1) cls ([], ())).bind
    Prod.fst).isSome

/-- The bases that fields are collected from. -/
def typedDictBases (cls : ClassRef) : List ClassRef :=
  (baseClasses nodes cls.1 cls.2).filter (isTypedDictClass nodes)

variable (typedDictTotal : ModuleNode → String → Option Bool)

/-- The fields of the body of a class; `typedDictTotal` is what the class says of `total`. -/
def declaredFields (cls : ClassRef) : List (String × TypedDictFieldShape) :=
  (cls.1.declarations.filter fun declaration =>
    declaration.kind = .value && isOwnedBy cls.2.name declaration).filterMap fun declaration =>
      ( declaration.valueAnnotation).map fun bound =>
        (declaration.name, parseTypedDictFieldShape bound.expr
          ((typedDictTotal cls.1 cls.2.name).getD true))

/-- Every class is entered once, and its own fields are put in after those of its bases. -/
def collectTypedDictFields :
    LeavingWalk ClassRef ClassKey (ExtTreeMap String TypedDictFieldShape) where
  key := ClassRef.key
  next := typedDictBases nodes
  leave := fun fields cls =>
    (declaredFields typedDictTotal cls).foldl (fun fields field => fields.insert field.1 field.2)
      fields

def resolveKnownTypedDictShape (node : ModuleNode) (typeName : String) : Option TypedDictShape :=
  (resolveDirectBase nodes node typeName).bind fun cls =>
    if isTypedDictClass nodes cls then
      some {
        name := cls.2.name
        fields := ((collectTypedDictFields nodes typedDictTotal).run (classFuel nodes cls.1)
          ([], ∅) cls).2 }
    else none

/-! ## Aliases -/

variable (classShape : ModuleNode → String → Option Shape)

/-- The shape a name stands for; `classShape` has those of the classes that are no TypedDicts. -/
def resolveKnownShape (node : ModuleNode) (owner : String) : Option Shape :=
  ((resolveKnownTypedDictShape nodes typedDictTotal node owner).map Shape.fromTypedDictShape).or
    (classShape node owner)

def shapeTransforms : List String :=
  ["Partial", "Required_", "Readonly", "Mutable", "Pick", "Omit", "MapValues"]

def applyShapeTransform (head : String) (keyArgs : List SemanticType) (shape : Shape) :
    Option Shape :=
  match head with
  | "Partial" => some shape.partialFields
  | "Required_" => some shape.requiredFields
  | "Readonly" => some shape.readonlyFields
  | "Mutable" => some shape.mutableFields
  | "Pick" => (semanticTransformKeys keyArgs).map shape.pick
  | "Omit" => (semanticTransformKeys keyArgs).map shape.omitFields
  | "MapValues" => keyArgs.head?.bind fun wrapper => shape.mapValues (renderSemanticType wrapper)
  | _ => none

def resolveShapeFromSemanticType (node : ModuleNode) : SemanticType → Option Shape
  | .annotated value _ => resolveShapeFromSemanticType node value
  | .generic head (base :: keyArgs) =>
    if head ∈ shapeTransforms then
      (resolveShapeFromSemanticType node base).bind (applyShapeTransform head keyArgs)
    else resolveKnownShape nodes typedDictTotal classShape node head
  | .generic head [] =>
    if head ∈ shapeTransforms then none
    else resolveKnownShape nodes typedDictTotal classShape node head
  | .name name => resolveKnownShape nodes typedDictTotal classShape node name
  | _ => none

def resolveKnownShapeFromTypeAlias (node : ModuleNode) (typeName : String) : Option Shape := do
  let (aliasNode, aliasDecl) ← resolveDirectTypeAlias nodes node typeName
  let semantics ← (declarationSemanticFacts aliasDecl).typeAlias
  let shape ← resolveShapeFromSemanticType nodes typedDictTotal classShape aliasNode semantics.body
  return { shape with name := typeName }

end

end TypePython.Checking.Shapes
