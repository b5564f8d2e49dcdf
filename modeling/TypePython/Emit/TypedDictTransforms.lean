import TypePython.Lib.KeyedLists
import TypePython.Lib.LastEntry
import TypePython.Syntax.ShapeProjection

/-!
# TypedDict transforms

How the lowering reads an alias whose value is a transform of a TypedDict. The fields of a class
are merged base by base, each base with all it inherits, and the type parameters of a base are
replaced by the arguments it is listed with.
-/

namespace TypePython.Emit

open TypePython.Lib
open TypePython.Lib.Text
open TypePython.Syntax

/-! ## Splitting a subscript -/

/-- The text before the bracket that closes a subscript. -/
def takeToMatchingBracket : Nat → Option Char → Chars → Option Chars
  | _, _, [] => none
  | depth, some quote, c :: rest =>
    if c = '\\' && !rest.isEmpty then
      (takeToMatchingBracket depth (some quote) rest).map (c :: ·)
    else
      (takeToMatchingBracket depth (if c = quote then none else some quote) rest).map (c :: ·)
  | depth, none, c :: rest =>
    if c = '"' || c = '\'' then (takeToMatchingBracket depth (some c) rest).map (c :: ·)
    else if c = '[' then (takeToMatchingBracket (depth + 1) none rest).map (c :: ·)
    else if c = ']' then
      if depth = 0 then some []
      else (takeToMatchingBracket (depth - 1) none rest).map (c :: ·)
    else (takeToMatchingBracket depth none rest).map (c :: ·)

/-- The parts between commas outside of brackets and strings; `current` is the part that is read. -/
def splitTransformArgs : Nat → Option Char → Chars → Chars → List Chars
  | _, _, current, [] => [trim current]
  | depth, some quote, current, c :: rest =>
    if c = quote && current.getLast? ≠ some '\\' then
      splitTransformArgs depth none (current ++ [c]) rest
    else splitTransformArgs depth (some quote) (current ++ [c]) rest
  | depth, none, current, c :: rest =>
    if c = '"' || c = '\'' then splitTransformArgs depth (some c) (current ++ [c]) rest
    else if c = '[' || c = '<' || c = '(' then
      splitTransformArgs (depth + 1) none (current ++ [c]) rest
    else if c = ']' || c = '>' || c = ')' then
      splitTransformArgs (depth - 1) none (current ++ [c]) rest
    else if c = ',' && depth = 0 then trim current :: splitTransformArgs 0 none [] rest
    else splitTransformArgs depth none (current ++ [c]) rest

/-- The head of a subscript and its arguments. -/
def parseTransformExpr (value : String) : Option (String × List String) := do
  let (transform, rest) ← splitOnce '[' (trim value.toList)
  let inner ← takeToMatchingBracket 0 none rest
  return (String.ofList (trim transform),
    (splitTransformArgs 0 none [] inner).map String.ofList)

/-! ## Keys -/

def trimMatches (c : Char) (text : Chars) : Chars :=
  ((text.dropWhile (· = c)).reverse.dropWhile (· = c)).reverse

def trimEndMatches (c : Char) (text : Chars) : Chars := (text.reverse.dropWhile (· = c)).reverse

def transformKeyName (key : String) : String :=
  String.ofList (trimEndMatches '>' (trimEndMatches ')' (trimEndMatches ']'
    (trimMatches '\'' (trimMatches '"' key.toList)))))

def isLiteralTransformHead (head : String) : Bool :=
  head ∈ ["Literal", "typing.Literal", "typing_extensions.Literal"]

def transformKeyNames (key : String) : List String :=
  match parseTransformExpr key with
  | some (head, args) =>
    if isLiteralTransformHead head then args.map transformKeyName else [transformKeyName key]
  | none => [transformKeyName key]

/-! ## Class hierarchies -/

def isTypedDictBase (base : String) : Bool :=
  String.ofList (trim base.toList) ∈
    ["TypedDict", "typing.TypedDict", "typing_extensions.TypedDict"]

def localBaseName (base : String) : String :=
  match splitOnce '[' (trim base.toList) with
  | some (head, _) => String.ofList (trim head)
  | none => String.ofList (trim base.toList)

def isTypedDictSupportBase (base : String) : Bool :=
  localBaseName base ∈ ["Generic", "typing.Generic", "typing_extensions.Generic", "object"]

inductive TypedDictInheritanceError where
  | unknownBase (owner base : String)
  | cycle (classes : List String)

def TypedDictInheritanceError.text : TypedDictInheritanceError → String
  | .unknownBase owner base => "class \x60" ++ owner ++ "\x60 has unknown base \x60" ++ base ++ "\x60"
  | .cycle classes => "cyclic TypedDict inheritance: " ++ join " -> " classes

mutual

def substituteTypeExpr (substitutions : List (String × TypeExpr)) : TypeExpr → TypeExpr
  | .name name => (lastEntry substitutions name).getD (.name name)
  | .generic head args => .generic head (substituteTypeExprs substitutions args)
  | .callable params returnType =>
    .callable (substituteCallableParamExpr substitutions params)
      (substituteTypeExpr substitutions returnType)
  | .union branches style => .union (substituteTypeExprs substitutions branches) style
  | .annotated value metadata => .annotated (substituteTypeExpr substitutions value) metadata
  | .unpack inner => .unpack (substituteTypeExpr substitutions inner)

def substituteCallableParamExpr (substitutions : List (String × TypeExpr)) :
    CallableParamExpr → CallableParamExpr
  | .ellipsis => .ellipsis
  | .paramList types => .paramList (substituteTypeExprs substitutions types)
  | .concatenate types => .concatenate (substituteTypeExprs substitutions types)
  | .single expr => .single (substituteTypeExpr substitutions expr)

def substituteTypeExprs (substitutions : List (String × TypeExpr)) : List TypeExpr → List TypeExpr
  | [] => []
  | expr :: rest =>
    substituteTypeExpr substitutions expr :: substituteTypeExprs substitutions rest

end

/-- What the type parameters of a base stand for where it is listed. -/
def baseSubstitutions (base : String) (baseBlock : NamedBlockStatement) :
    List (String × TypeExpr) :=
  match parseTransformExpr base with
  | some (_, args) =>
    (baseBlock.typeParams.zip args).filterMap fun (parameter, argument) =>
      (TypeExpr.parse argument).map fun expr => (parameter.name, expr)
  | none => []

/-- A field as the class that lists the base has it. -/
def substituteProjectionFieldType (base : String) (baseBlock : NamedBlockStatement)
    (field : ShapeProjectionField) : ShapeProjectionField :=
  { field with
    annotation := ( field.annotation).map (substituteTypeExpr (baseSubstitutions base baseBlock)) }

def mergeProjectionFields (fields incoming : List ShapeProjectionField) :
    List ShapeProjectionField :=
  incoming.foldl (setItem ShapeProjectionField.name) fields

/-- What is known of a class while its bases are gone through. -/
structure InheritedShape where
  fields : List ShapeProjectionField
  isTypedDict : Bool

section

variable (classes : List NamedBlockStatement)

def blockNamed (name : String) : Option NamedBlockStatement :=
  classes.find? fun block => block.name = name

def addBase (resolve : String → Except TypedDictInheritanceError (Option ShapeProjection))
    (block : NamedBlockStatement) (inherited : InheritedShape) (base : String) :
    Except TypedDictInheritanceError InheritedShape :=
  if isTypedDictBase base || isTypedDictSupportBase base then .ok inherited
  else
    match blockNamed classes (localBaseName base) with
    | none => .error (.unknownBase block.name (String.ofList (trim base.toList)))
    | some baseBlock => do
      match ← resolve (localBaseName base) with
      | none => return inherited
      | some baseShape =>
        return {
          fields := mergeProjectionFields inherited.fields
            (baseShape.fields.map (substituteProjectionFieldType base baseBlock))
          isTypedDict := true }

/-- The shape of a class, once its bases are gone through. -/
def InheritedShape.complete (block : NamedBlockStatement) (inherited : InheritedShape) :
    Option ShapeProjection :=
  if inherited.isTypedDict then
    some {
      name := block.name
      sourceKind := .typedDict
      fields := mergeProjectionFields inherited.fields
        (ShapeProjection.fromTypedDictBlock block).fields }
  else none

/-- `stack` has the classes on the way. The fuel is more than there are classes. -/
def resolveLocalTypedDictShapeInner :
    Nat → List String → String → Except TypedDictInheritanceError (Option ShapeProjection)
  | 0, _, _ => .ok none
  | fuel + 1, stack, name =>
    if name ∈ stack then .error (.cycle (stack.dropWhile (· ≠ name) ++ [name]))
    else
      match blockNamed classes name with
      | none => .ok none
      | some block =>
        (block.bases.foldlM
          (addBase classes (resolveLocalTypedDictShapeInner fuel (stack ++ [name])) block)
          { fields := [], isTypedDict := block.bases.any isTypedDictBase }).map
            (InheritedShape.complete block)

def resolveLocalTypedDictShape (name : String) :
    Except TypedDictInheritanceError (Option ShapeProjection) :=
  resolveLocalTypedDictShapeInner classes (classes.length + 1) [] name

end

/-! ## Transforms -/

def typedDictTransforms : List String :=
  ["Partial", "Required_", "Readonly", "Mutable", "Pick", "Omit", "MapValues"]

def mapValuesWrapperSupported (keyArgs : List String) : Bool :=
  (keyArgs.head?.map fun wrapper => String.ofList (trim wrapper.toList)) ∈
    [some "Optional", some "Readonly"]

def applyTransformToShape (transform : String) (shape : ShapeProjection) (keyArgs : List String) :
    ShapeProjection :=
  match transform with
  | "Partial" => shape.partialFields
  | "Required_" => shape.requiredFields
  | "Readonly" => shape.readonlyFields
  | "Mutable" => shape.mutableFields
  | "Pick" => shape.pick (keyArgs.flatMap transformKeyNames)
  | "Omit" => shape.omitFields (keyArgs.flatMap transformKeyNames)
  | "MapValues" => shape.mapValues (keyArgs.headD "")
  | _ => shape

section

variable (classes dataClasses : List NamedBlockStatement) (experimentalShapeTransforms : Bool)

def resolveTransformTarget (name : String) :
    Except TypedDictInheritanceError (Option ShapeProjection) :=
  if (blockNamed classes name).isSome then resolveLocalTypedDictShape classes name
  else if experimentalShapeTransforms then
    .ok ((blockNamed dataClasses name).map fun target => .fromNamedBlock target .dataClass)
  else .ok none

def resolveTransformShape : TypeExpr → Except TypedDictInheritanceError (Option ShapeProjection)
  | .name name => resolveTransformTarget classes dataClasses experimentalShapeTransforms name
  | .generic transform (target :: keyArgs) =>
    if transform ∈ typedDictTransforms then
      if transform = "MapValues" && !mapValuesWrapperSupported (renderAll keyArgs) then .ok none
      else
        (resolveTransformShape target).map fun baseShape =>
          baseShape.map fun shape => applyTransformToShape transform shape (renderAll keyArgs)
    else
      resolveTransformTarget classes dataClasses experimentalShapeTransforms
        (TypeExpr.generic transform (target :: keyArgs)).render
  | value =>
    resolveTransformTarget classes dataClasses experimentalShapeTransforms value.render

/-- What is reported of an alias. -/
def collectTypedDictTransformDiagnostics (value : TypeExpr) : List String :=
  match value with
  | .generic transform (target :: keyArgs) =>
    if transform ∉ typedDictTransforms then []
    else
      match resolveTransformShape classes dataClasses experimentalShapeTransforms target with
      | .ok none =>
        ["type transform \x60" ++ transform ++ "\x60 targets \x60" ++ target.render
          ++ "\x60 which is not a known TypedDict or experimental shape source"]
      | .error error =>
        ["type transform \x60" ++ transform ++ "\x60 cannot resolve its TypedDict target: "
          ++ error.text]
      | .ok (some shape) =>
        if transform ∈ ["Pick", "Omit"] then
          (((renderAll keyArgs).flatMap transformKeyNames).filter fun key =>
            !shape.fields.any fun field => key = field.name || key = field.publicAlias).map
              fun key =>
                "type transform \x60" ++ transform ++ "\x60 references unknown key \x60" ++ key
                  ++ "\x60 on shape source \x60" ++ shape.name ++ "\x60"
        else []
  | _ => []

/-- The lowering reports nothing and finds a shape. -/
structure LoweringAccepts (value : TypeExpr) (shape : ShapeProjection) : Prop where
  quiet : collectTypedDictTransformDiagnostics classes dataClasses experimentalShapeTransforms value
    = []
  resolved : resolveTransformShape classes dataClasses experimentalShapeTransforms value
    = .ok (some shape)

end

end TypePython.Emit
