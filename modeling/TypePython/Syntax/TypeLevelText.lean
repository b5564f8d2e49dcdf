import TypePython.Lib.PartialMaps
import TypePython.Lib.SortDedup
import TypePython.Syntax.ReadBack

/-!
# Type-level forms in texts

How the lowering reduces the text of an alias: it decides `TypeIf[IsSubtype[S, T], A, B]` by rules
of its own and writes the branch out again, until no type-level form is left.
-/

namespace TypePython.Syntax

open TypePython.Lib
open TypePython.Lib.Text

/-! ## Assignability of texts -/

/-- Every nested call is on a shorter text. -/
def unionBranchesFrom : Nat → String → Option (List String)
  | 0, _ => none
  | fuel + 1, text =>
    match TypeExpr.parse text with
    | some (.annotated value _) =>
      (unionBranchesFrom fuel value.render).or (some [value.render])
    | some (.generic "Optional" [arg]) => some [arg.render, "None"]
    | some (.union branches _) => some (branches.map TypeExpr.render)
    | _ => none

def unionBranches (text : String) : Option (List String) :=
  unionBranchesFrom (text.length + 1) text

/-- The arguments of generics are compared as texts. -/
def sameGeneric (expected actual : String) : Bool :=
  match TypeExpr.parse expected, TypeExpr.parse actual with
  | some (.generic expectedHead expectedArgs), some (.generic actualHead actualArgs) =>
    normalizeTypeHead expectedHead.toList = normalizeTypeHead actualHead.toList
      && expectedArgs.length = actualArgs.length
      && (expectedArgs.zip actualArgs).all fun (expectedArg, actualArg) =>
        expectedArg.render = actualArg.render
  | _, _ => false

def typeExprIsAssignableNormalized : Nat → String → String → Bool
  | 0, _, _ => false
  | fuel + 1, expected, actual =>
    if expected = actual || expected = "Any" || expected = "object" || actual = "Any" then true
    else if expected = "float" && actual = "int" then true
    else
      match unionBranches expected, unionBranches actual with
      | some expectedBranches, some actualBranches =>
        actualBranches.all fun actualBranch => expectedBranches.any fun expectedBranch =>
          typeExprIsAssignableNormalized fuel expectedBranch actualBranch
      | some expectedBranches, none =>
        expectedBranches.any fun expectedBranch =>
          typeExprIsAssignableNormalized fuel expectedBranch actual
      | none, some actualBranches =>
        actualBranches.all fun actualBranch =>
          typeExprIsAssignableNormalized fuel expected actualBranch
      | none, none => sameGeneric expected actual

/-- The text of what a text parses to. -/
def renderedText (text : String) : String :=
  ((TypeExpr.parse text).map TypeExpr.render).getD (normalizeTypeText text)

/-- The fuel allows a call for each character. -/
def typeExprIsAssignableText (expected actual : String) : Bool :=
  let expected := renderedText expected
  let actual := renderedText actual
  typeExprIsAssignableNormalized (expected.length + actual.length + 1) expected actual

/-! ## Reductions -/

def reduceTypeifIsSubtypeText (value : String) : Option String :=
  match TypeExpr.parse (String.ofList (trim value.toList)) with
  | some (.generic "TypeIf" [.generic "IsSubtype" [subtype, supertype], thenType, elseType]) =>
    some (if typeExprIsAssignableText supertype.render subtype.render then thenType.render
      else elseType.render)
  | _ => none

/-- A field of a class that a key set may be taken of. -/
structure TypeLevelShapeField where
  owner : String
  name : String
  required : Bool

def keySetHeads : List String := ["KeyOf", "RequiredKeys", "OptionalKeys"]

def reduceKeySetAliasText (value : String) (fields : List TypeLevelShapeField) :
    Option (List String) :=
  match TypeExpr.parse (String.ofList (trim value.toList)) with
  | some (.generic head [arg]) =>
    if head ∈ keySetHeads then
      let owner := arg.render
      let selected := fields.filter fun field => field.owner = owner
        && (if head = "RequiredKeys" then field.required
          else if head = "OptionalKeys" then !field.required else true)
      if selected = [] then none else some (sortBy id (selected.map TypeLevelShapeField.name))
    else none
  | _ => none

def typeLevelHeads : List String :=
  ["TypeIf", "IsSubtype", "KeyOf", "Pick", "Omit", "RequiredKeys", "OptionalKeys", "MapValues"]

mutual

def TypeExpr.containsRestrictedTypeLevelForm : TypeExpr → Bool
  | .name _ => false
  | .generic head args => head ∈ typeLevelHeads || anyContainsRestrictedTypeLevelForm args
  | .callable params returnType =>
    params.containsRestrictedTypeLevelForm || returnType.containsRestrictedTypeLevelForm
  | .union branches _ => anyContainsRestrictedTypeLevelForm branches
  | .annotated value _ => value.containsRestrictedTypeLevelForm
  | .unpack inner => inner.containsRestrictedTypeLevelForm

def CallableParamExpr.containsRestrictedTypeLevelForm : CallableParamExpr → Bool
  | .ellipsis => false
  | .paramList types => anyContainsRestrictedTypeLevelForm types
  | .concatenate types => anyContainsRestrictedTypeLevelForm types
  | .single expr => expr.containsRestrictedTypeLevelForm

def anyContainsRestrictedTypeLevelForm : List TypeExpr → Bool
  | [] => false
  | expr :: rest =>
    expr.containsRestrictedTypeLevelForm || anyContainsRestrictedTypeLevelForm rest

end

def containsRestrictedTypeLevelAliasText (value : String) : Bool :=
  (TypeExpr.parse (String.ofList (trim value.toList))).any
    TypeExpr.containsRestrictedTypeLevelForm

def renderLiteralKeySet (keys : List String) : String :=
  "Literal[" ++ join ", " (keys.map fun key => "\"" ++ key ++ "\"") ++ "]"

def restrictedTypeLevelReductionBudget : Nat := 64

/-- The loop of `reduce_restricted_type_level_alias_text_with_fields`. -/
def reduceRestrictedFrom (fields : List TypeLevelShapeField) : Nat → String → Option String
  | 0, _ => none
  | budget + 1, current =>
    match reduceKeySetAliasText current fields with
    | some keys => some (renderLiteralKeySet keys)
    | none =>
      match reduceTypeifIsSubtypeText current with
      | none => none
      | some reduced =>
        if containsRestrictedTypeLevelAliasText reduced then
          reduceRestrictedFrom fields budget reduced
        else some reduced

def reduceRestrictedTypeLevelAliasTextWithFields (value : String)
    (fields : List TypeLevelShapeField) : Option String :=
  reduceRestrictedFrom fields restrictedTypeLevelReductionBudget
    (String.ofList (trim value.toList))

/-! ## Plain expressions -/

theorem trim_render {expr : TypeExpr} (h : expr.isPlain = true) :
    String.ofList (trim expr.render.toList) = expr.render := by
  rw [(readable_render expr h).1.solid.trim_eq, String.ofList_toList]

end TypePython.Syntax
