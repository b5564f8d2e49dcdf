import TypePython.Emit.TypedDictTransforms
import TypePython.Lib.InheritanceWalk
import TypePython.Syntax.ShapeTexts

/-!
# Inherited fields and their type parameters

The lowering's search for the fields of a TypedDict, on the texts of the annotations. It is a walk
over the bases, so it ends, finds cycles, and puts later declarations over earlier ones
(`resolveLocalTypedDictShape_eq`). On the way to a class, the type parameters of a base are replaced
by the arguments that the base is listed with, and only by these: where a base is listed without
arguments, or with too few, its parameters stay (`inherited_spec`).
-/

namespace TypePython.Emit.Expansion

open TypePython.Lib
open TypePython.Lib.Text
open TypePython.Syntax

/-! ## Fields of a base -/

/-- What the type parameters of a base are replaced by where it is listed. -/
def baseSubstitutions (base : String) (baseBlock : Texts.NamedBlockStatement) :
    List (String × TypeExpr) :=
  match parseTransformExpr base with
  | some (_, args) =>
    (baseBlock.typeParams.zip args).filterMap fun (parameter, argument) =>
      (TypeExpr.parse argument).map fun expr => (parameter.name, expr)
  | none => []

def substituteText (substitutions : List (String × TypeExpr)) (text : String) : String :=
  if substitutions.isEmpty then text
  else
    match TypeExpr.parse text with
    | some expr => (substituteTypeExpr substitutions expr).render
    | none => text

def substituteProjectionFieldType (base : String) (baseBlock : Texts.NamedBlockStatement)
    (field : Texts.ShapeProjectionField) : Texts.ShapeProjectionField :=
  { field with
    annotation := ( field.annotation).map (substituteText (baseSubstitutions base baseBlock)) }

def mergeProjectionFields (fields incoming : List Texts.ShapeProjectionField) :
    List Texts.ShapeProjectionField :=
  incoming.foldl (setItem Texts.ShapeProjectionField.name) fields

/-! ## The search -/

abbrev ResolveError := WalkError String String Texts.NamedBlockStatement

/-- The text that is reported. -/
def ResolveError.text : ResolveError → String
  | .outOfFuel => ""
  | .unknown owner base =>
    "class \x60" ++ owner.name ++ "\x60 has unknown base \x60" ++ String.ofList (trim base.toList)
      ++ "\x60"
  | .cycle classes => "cyclic TypedDict inheritance: " ++ join " -> " classes

variable {name : String}

section

variable (classes : List Texts.NamedBlockStatement)

/-- `classes` are the classes of the module by their names. -/
def blockNamed (name : String) : Option Texts.NamedBlockStatement :=
  classes.find? fun block => block.name = name

def addBase (resolve : String → Except ResolveError (Option Texts.ShapeProjection))
    (block : Texts.NamedBlockStatement) (inherited : Inherited Texts.ShapeProjectionField)
    (base : String) : Except ResolveError (Inherited Texts.ShapeProjectionField) :=
  if isTypedDictBase base || isTypedDictSupportBase base then .ok inherited
  else
    match blockNamed classes (localBaseName base) with
    | none => .error (.unknown block base)
    | some baseBlock =>
      (resolve (localBaseName base)).map fun found =>
        match found with
        | none => inherited
        | some baseShape =>
          { items := mergeProjectionFields inherited.items
              (baseShape.fields.map (substituteProjectionFieldType base baseBlock))
            isMember := true }

/-- The shape of a class, once its bases are gone through. -/
def completeShape (block : Texts.NamedBlockStatement)
    (inherited : Inherited Texts.ShapeProjectionField) : Option Texts.ShapeProjection :=
  if inherited.isMember then
    some {
      name := block.name
      sourceKind := .typedDict
      fields := mergeProjectionFields inherited.items
        (Texts.ShapeProjection.fromTypedDictBlock block).fields }
  else none

/-- `stack` has the classes on the way. -/
def resolveLocalTypedDictShapeInner :
    Nat → List String → String → Except ResolveError (Option Texts.ShapeProjection)
  | 0, _, _ => .error .outOfFuel
  | fuel + 1, stack, name =>
    if name ∈ stack then .error (.cycle (stack.dropWhile (· ≠ name) ++ [name]))
    else
      match blockNamed classes name with
      | none => .ok none
      | some block =>
        (block.bases.foldlM
          (addBase classes (resolveLocalTypedDictShapeInner fuel (stack ++ [name])) block)
          { items := [], isMember := block.bases.any isTypedDictBase }).map
            (completeShape block)

/-- The fuel is more than there are classes. -/
def resolveLocalTypedDictShape (name : String) :
    Except ResolveError (Option Texts.ShapeProjection) :=
  resolveLocalTypedDictShapeInner classes (classes.length + 1) [] name

/-! ## The search as a walk -/

def hierarchy :
    Hierarchy String String Texts.NamedBlockStatement Texts.ShapeProjectionField String where
  find := blockNamed classes
  bases := Texts.NamedBlockStatement.bases
  target base :=
    if isTypedDictBase base || isTypedDictSupportBase base then none
    else some (localBaseName base)
  isListed block := block.bases.any isTypedDictBase
  own block := (Texts.ShapeProjection.fromTypedDictBlock block).fields
  key := Texts.ShapeProjectionField.name
  inherit := substituteProjectionFieldType
  key_inherit _ _ _ := rfl

def shapeNamed (name : String) (fields : List Texts.ShapeProjectionField) :
    Texts.ShapeProjection where
  name := name
  sourceKind := .typedDict
  fields := fields

variable {classes}

theorem blockNamed_spec {block : Texts.NamedBlockStatement}
    (h : blockNamed classes name = some block) : block ∈ classes ∧ block.name = name := by
  have htest := List.find?_some h
  exact ⟨List.mem_of_find?_eq_some h, by simpa using htest⟩

theorem addBase_eq {resolve : String → Except ResolveError (Option Texts.ShapeProjection)}
    {walk : String → Except ResolveError (Option (List Texts.ShapeProjectionField))}
    (h : ∀ name, resolve name = (walk name).map (Option.map (shapeNamed name))) :
    addBase classes resolve = (hierarchy classes).addBase walk := by
  funext block inherited base
  unfold addBase Hierarchy.addBase hierarchy
  by_cases hcompanion : (isTypedDictBase base || isTypedDictSupportBase base) = true
  · rw [if_pos hcompanion]
    simp only [if_pos hcompanion]
  · rw [if_neg hcompanion]
    simp only [if_neg hcompanion]
    cases hblock : blockNamed classes (localBaseName base) with
    | none => rfl
    | some baseBlock =>
      simp only
      rw [h]
      cases walk (localBaseName base) with
      | error error => rfl
      | ok found =>
        cases found with
        | none => rfl
        | some fields => rfl

theorem resolveLocalTypedDictShapeInner_eq (fuel : Nat) (stack : List String) (name : String) :
    resolveLocalTypedDictShapeInner classes fuel stack name
      = ((hierarchy classes).walk fuel stack name).map (Option.map (shapeNamed name)) := by
  induction fuel generalizing stack name with
  | zero => rfl
  | succ fuel ih =>
    rw [resolveLocalTypedDictShapeInner, Hierarchy.walk]
    by_cases hseen : name ∈ stack
    · rw [if_pos hseen, if_pos hseen]
      rfl
    · rw [if_neg hseen, if_neg hseen]
      have hfind : (hierarchy classes).find name = blockNamed classes name := rfl
      rw [hfind]
      cases hblock : blockNamed classes name with
      | none => rfl
      | some block =>
        simp only
        rw [addBase_eq (ih (stack ++ [name]))]
        obtain ⟨-, hname⟩ := blockNamed_spec hblock
        have hstart : (hierarchy classes).bases block = block.bases := rfl
        have hlisted : (hierarchy classes).isListed block = block.bases.any isTypedDictBase := rfl
        rw [hstart, hlisted]
        cases block.bases.foldlM
            ((hierarchy classes).addBase ((hierarchy classes).walk fuel (stack ++ [name])) block)
            { items := [], isMember := block.bases.any isTypedDictBase } with
        | error error => rfl
        | ok inherited =>
          show Except.ok (completeShape block inherited)
            = Except.ok (((hierarchy classes).complete block inherited).map (shapeNamed name))
          unfold completeShape Hierarchy.complete
          split
          · rw [hname]
            rfl
          · rfl

/-- The fields are what the walk finds. -/
theorem resolveLocalTypedDictShape_eq (name : String) : resolveLocalTypedDictShape classes name
    = ((hierarchy classes).walk (classes.length + 1) [] name).map (Option.map (shapeNamed name)) :=
  resolveLocalTypedDictShapeInner_eq _ _ _

theorem name_mem_of_find (h : ((hierarchy classes).find name).isSome = true) :
    name ∈ classes.map Texts.NamedBlockStatement.name := by
  obtain ⟨block, hblock⟩ := Option.isSome_iff_exists.1 h
  obtain ⟨hmem, hname⟩ := blockNamed_spec hblock
  rw [← hname]
  exact List.mem_map_of_mem hmem

/-! ## Type parameters -/

end

mutual

/-- The names in a type, its heads left out. -/
def typeNames : TypeExpr → List String
  | .name name => [name]
  | .generic _ args => allTypeNames args
  | .callable params returnType => paramTypeNames params ++ typeNames returnType
  | .union branches _ => allTypeNames branches
  | .annotated value _ => typeNames value
  | .unpack inner => typeNames inner

def paramTypeNames : CallableParamExpr → List String
  | .ellipsis => []
  | .paramList types => allTypeNames types
  | .concatenate types => allTypeNames types
  | .single expr => typeNames expr

def allTypeNames : List TypeExpr → List String
  | [] => []
  | expr :: rest => typeNames expr ++ allTypeNames rest

end

mutual

/-- The heads of the generic types in a type. -/
def typeHeads : TypeExpr → List String
  | .name _ => []
  | .generic head args => head :: allTypeHeads args
  | .callable params returnType => paramTypeHeads params ++ typeHeads returnType
  | .union branches _ => allTypeHeads branches
  | .annotated value _ => typeHeads value
  | .unpack inner => typeHeads inner

def paramTypeHeads : CallableParamExpr → List String
  | .ellipsis => []
  | .paramList types => allTypeHeads types
  | .concatenate types => allTypeHeads types
  | .single expr => typeHeads expr

def allTypeHeads : List TypeExpr → List String
  | [] => []
  | expr :: rest => typeHeads expr ++ allTypeHeads rest

end

/-- A base as it is listed, and its class. -/
abbrev Step := String × Texts.NamedBlockStatement

def Step.parameters (step : Step) : List String := step.2.typeParams.map TypeParam.name

/-- What the type parameters of a base stand for where it is listed: the arguments, or else the
defaults. -/
def Step.meanings (step : Step) : List (String × TypeExpr) :=
  (step.2.typeParams.filterMap fun parameter =>
    parameter.defaultExpr.map fun expr => (parameter.name, expr))
    ++ baseSubstitutions step.1 step.2

/-- A declared type as it is meant at the other end of the bases. -/
def meantAlong (steps : List Step) (expr : TypeExpr) : TypeExpr :=
  steps.foldr (fun step expr => substituteTypeExpr step.meanings expr) expr

/-- No type parameter is left on the way: each that is mentioned stands for something. -/
def AllReplaced : List Step → TypeExpr → Prop
  | [], _ => True
  | step :: rest, expr =>
    AllReplaced rest expr
      ∧ (∀ name ∈ typeNames (meantAlong rest expr), name ∈ step.parameters →
        (lastEntry step.meanings name).isSome = true)
      ∧ ∀ head ∈ typeHeads (meantAlong rest expr), head ∉ step.parameters

/-- Each type parameter that is mentioned on the way is a type variable for which the base is listed
with an argument, and the rendering of what becomes of the type is read back. -/
def Supplied : List Step → TypeExpr → Prop
  | [], _ => True
  | step :: rest, expr =>
    Supplied rest expr
      ∧ (∀ name ∈ typeNames (meantAlong rest expr), name ∈ step.parameters →
        (lastEntry (baseSubstitutions step.1 step.2) name).isSome = true)
      ∧ (∀ head ∈ typeHeads (meantAlong rest expr), head ∉ step.parameters)
      ∧ (∀ parameter ∈ step.2.typeParams, parameter.name ∈ typeNames (meantAlong rest expr) →
        parameter.kind = .typeVar)
      ∧ (baseSubstitutions step.1 step.2 ≠ [] →
        TypeExpr.parse (meantAlong (step :: rest) expr).render
          = some (meantAlong (step :: rest) expr))

/-- The text of the field reads as the declared type is meant, and no type parameter is left. -/
structure ParametersReplaced (steps : List Step) (expr : TypeExpr)
    (field : Texts.ShapeProjectionField) : Prop where
  meant : ( field.annotation).bind TypeExpr.parse = some (meantAlong steps expr)
  replaced : AllReplaced steps expr

/-! ## Substitutions that agree -/

section

variable {substitutions substitutions' : List (String × TypeExpr)}

mutual

theorem substituteTypeExpr_congr : ∀ expr : TypeExpr,
    (∀ name ∈ typeNames expr, lastEntry substitutions name = lastEntry substitutions' name) →
    substituteTypeExpr substitutions expr = substituteTypeExpr substitutions' expr
  | .name name, h => by
    rw [typeNames, List.forall_mem_singleton] at h
    rw [substituteTypeExpr, substituteTypeExpr, h]
  | .generic head args, h => by
    rw [substituteTypeExpr, substituteTypeExpr, substituteTypeExprs_congr args h]
  | .callable params returnType, h => by
    rw [typeNames, List.forall_mem_append] at h
    rw [substituteTypeExpr, substituteTypeExpr, substituteCallableParamExpr_congr params h.1,
      substituteTypeExpr_congr returnType h.2]
  | .union branches style, h => by
    rw [substituteTypeExpr, substituteTypeExpr, substituteTypeExprs_congr branches h]
  | .annotated value metadata, h => by
    rw [substituteTypeExpr, substituteTypeExpr, substituteTypeExpr_congr value h]
  | .unpack inner, h => by
    rw [substituteTypeExpr, substituteTypeExpr, substituteTypeExpr_congr inner h]

theorem substituteCallableParamExpr_congr : ∀ params : CallableParamExpr,
    (∀ name ∈ paramTypeNames params,
      lastEntry substitutions name = lastEntry substitutions' name) →
    substituteCallableParamExpr substitutions params
      = substituteCallableParamExpr substitutions' params
  | .ellipsis, _ => rfl
  | .paramList types, h => by
    rw [substituteCallableParamExpr, substituteCallableParamExpr, substituteTypeExprs_congr types h]
  | .concatenate types, h => by
    rw [substituteCallableParamExpr, substituteCallableParamExpr, substituteTypeExprs_congr types h]
  | .single expr, h => by
    rw [substituteCallableParamExpr, substituteCallableParamExpr, substituteTypeExpr_congr expr h]

theorem substituteTypeExprs_congr : ∀ exprs : List TypeExpr,
    (∀ name ∈ allTypeNames exprs, lastEntry substitutions name = lastEntry substitutions' name) →
    substituteTypeExprs substitutions exprs = substituteTypeExprs substitutions' exprs
  | [], _ => rfl
  | expr :: rest, h => by
    rw [allTypeNames, List.forall_mem_append] at h
    rw [substituteTypeExprs, substituteTypeExprs, substituteTypeExpr_congr expr h.1,
      substituteTypeExprs_congr rest h.2]

end

mutual

theorem substituteTypeExpr_nil : ∀ expr : TypeExpr, substituteTypeExpr [] expr = expr
  | .name name => by
    rw [substituteTypeExpr, lastEntry_nil]
    rfl
  | .generic head args => by rw [substituteTypeExpr, substituteTypeExprs_nil args]
  | .callable params returnType => by
    rw [substituteTypeExpr, substituteCallableParamExpr_nil params,
      substituteTypeExpr_nil returnType]
  | .union branches style => by rw [substituteTypeExpr, substituteTypeExprs_nil branches]
  | .annotated value metadata => by rw [substituteTypeExpr, substituteTypeExpr_nil value]
  | .unpack inner => by rw [substituteTypeExpr, substituteTypeExpr_nil inner]

theorem substituteCallableParamExpr_nil : ∀ params : CallableParamExpr,
    substituteCallableParamExpr [] params = params
  | .ellipsis => rfl
  | .paramList types => by rw [substituteCallableParamExpr, substituteTypeExprs_nil types]
  | .concatenate types => by rw [substituteCallableParamExpr, substituteTypeExprs_nil types]
  | .single expr => by rw [substituteCallableParamExpr, substituteTypeExpr_nil expr]

theorem substituteTypeExprs_nil : ∀ exprs : List TypeExpr, substituteTypeExprs [] exprs = exprs
  | [] => rfl
  | expr :: rest => by
    rw [substituteTypeExprs, substituteTypeExpr_nil expr, substituteTypeExprs_nil rest]

end

end

/-! ## Along the bases -/

/-- Only type parameters are substituted. -/
theorem mem_parameters_of_mem {base : String} {baseBlock : Texts.NamedBlockStatement}
    {expr : TypeExpr} (h : (name, expr) ∈ baseSubstitutions base baseBlock) :
    name ∈ Step.parameters (base, baseBlock) := by
  unfold baseSubstitutions at h
  split at h
  · rename_i args hargs
    obtain ⟨⟨parameter, argument⟩, hpair, hfound⟩ := List.mem_filterMap.1 h
    obtain ⟨found, -, hsame⟩ := Option.map_eq_some_iff.1 hfound
    rw [Prod.mk.injEq] at hsame
    rw [← hsame.1]
    exact List.mem_map_of_mem (List.of_mem_zip hpair).1
  · cases h

theorem mem_parameters_of_meanings {step : Step} {expr : TypeExpr}
    (h : (name, expr) ∈ step.meanings) : name ∈ step.parameters := by
  rcases List.mem_append.1 h with hdefault | hargument
  · obtain ⟨parameter, hparameter, hfound⟩ := List.mem_filterMap.1 hdefault
    obtain ⟨found, -, hsame⟩ := Option.map_eq_some_iff.1 hfound
    rw [Prod.mk.injEq] at hsame
    rw [← hsame.1]
    exact List.mem_map_of_mem hparameter
  · exact mem_parameters_of_mem hargument

/-- Where there is an argument for each type parameter, the defaults are not asked for. -/
theorem lastEntry_meanings {step : Step}
    (h : name ∈ step.parameters →
      (lastEntry (baseSubstitutions step.1 step.2) name).isSome = true) :
    lastEntry (baseSubstitutions step.1 step.2) name = lastEntry step.meanings name := by
  by_cases hmem : name ∈ step.parameters
  · obtain ⟨expr, hexpr⟩ := Option.isSome_iff_exists.1 (h hmem)
    rw [Step.meanings, lastEntry_append, hexpr, Option.some_or]
  · rw [lastEntry_eq_none fun expr hpair => hmem (mem_parameters_of_mem hpair),
      lastEntry_eq_none fun expr hpair => hmem (mem_parameters_of_meanings hpair)]

/-- The annotation of a field on the way, and what it is at the next class. -/
theorem meant_step {step : Step} {expr : TypeExpr} {field : Texts.ShapeProjectionField}
    (hfield : ( field.annotation).bind TypeExpr.parse = some expr)
    (hnames : ∀ name ∈ typeNames expr, name ∈ step.parameters →
      (lastEntry (baseSubstitutions step.1 step.2) name).isSome = true)
    (hreads : baseSubstitutions step.1 step.2 ≠ [] →
      TypeExpr.parse (substituteTypeExpr step.meanings expr).render
        = some (substituteTypeExpr step.meanings expr)) :
    (Texts.ShapeProjectionField.annotation (substituteProjectionFieldType step.1 step.2 field)).bind
        TypeExpr.parse
      = some (substituteTypeExpr step.meanings expr) := by
  have hagree : substituteTypeExpr (baseSubstitutions step.1 step.2) expr
      = substituteTypeExpr step.meanings expr :=
    substituteTypeExpr_congr expr fun name hname => lastEntry_meanings (hnames name hname)
  obtain ⟨text, htext, hparsed⟩ := Option.bind_eq_some_iff.1 hfield
  have hnext : Texts.ShapeProjectionField.annotation
        (substituteProjectionFieldType step.1 step.2 field)
      = some (substituteText (baseSubstitutions step.1 step.2) text) := by
    unfold substituteProjectionFieldType
    rw [htext]
    rfl
  rw [hnext, Option.bind_some, substituteText]
  cases hsubstitutions : baseSubstitutions step.1 step.2 with
  | nil =>
    rw [hsubstitutions, substituteTypeExpr_nil] at hagree
    rw [← hagree]
    exact hparsed
  | cons pair rest =>
    rw [← hsubstitutions, if_neg, hparsed]
    · simp only
      rw [hagree]
      exact hreads (by rw [hsubstitutions]; exact List.cons_ne_nil _ _)
    · rw [hsubstitutions]
      exact Bool.false_ne_true

/-- What becomes of a declared field along the bases. -/
theorem inherited_spec {steps : List Step} {expr : TypeExpr} {field : Texts.ShapeProjectionField}
    (hfield : ( field.annotation).bind TypeExpr.parse = some expr) (h : Supplied steps expr) :
    ParametersReplaced steps expr
      (steps.foldr (fun step field => substituteProjectionFieldType step.1 step.2 field) field) := by
  induction steps with
  | nil => exact ⟨hfield, trivial⟩
  | cons step rest ih =>
    obtain ⟨hrest, hnames, hheads, -, hreads⟩ := h
    obtain ⟨hmeant, hreplaced⟩ := ih hrest
    refine ⟨meant_step hmeant hnames hreads, hreplaced, ?_, hheads⟩
    intro name hname hparameter
    have hargument := hnames name hname hparameter
    rwa [lastEntry_meanings fun _ => hargument] at hargument

/-! ## The shape of a class -/

/-- The search ends, and finds a cycle exactly where it comes back to a class before it meets an
unknown base. Else the fields of a shape have different names, are those of the last declarations,
and have no type parameter left wherever each is supplied. -/
structure ShapeFound (classes : List Texts.NamedBlockStatement) (name : String) : Prop where
  terminates : resolveLocalTypedDictShape classes name ≠ .error .outOfFuel
  cycle : (∃ path, resolveLocalTypedDictShape classes name = .error (.cycle path))
    ↔ (hierarchy classes).ReturnsFirst [] name
  once : ∀ shape, resolveLocalTypedDictShape classes name = .ok (some shape) →
    (shape.fields.map Texts.ShapeProjectionField.name).Nodup
  last : ∀ block shape, blockNamed classes name = some block →
    resolveLocalTypedDictShape classes name = .ok (some shape) →
    ∀ field, field ∈ shape.fields ↔ (hierarchy classes).Has block field.name field
  parameters : ∀ block shape, blockNamed classes name = some block →
    resolveLocalTypedDictShape classes name = .ok (some shape) → ∀ field ∈ shape.fields,
      ∃ steps declared, (hierarchy classes).Written block field.name steps declared
        ∧ ∀ expr, ( declared.annotation).bind TypeExpr.parse = some expr →
          ParametersReplaced steps expr field

section

variable {classes : List Texts.NamedBlockStatement}

/-- The found shape has the items that the walk finds. -/
theorem found_of_resolve {block : Texts.NamedBlockStatement} {shape : Texts.ShapeProjection}
    (hblock : blockNamed classes name = some block)
    (h : resolveLocalTypedDictShape classes name = .ok (some shape)) :
    Hierarchy.Found (hierarchy classes) block (some shape.fields) := by
  rw [resolveLocalTypedDictShape_eq] at h
  cases hwalk : (hierarchy classes).walk (classes.length + 1) [] name with
  | error error =>
    rw [hwalk] at h
    cases h
  | ok found =>
    rw [hwalk] at h
    have hfound := Hierarchy.walk_found (classes.length + 1) [] name block found hblock hwalk
    cases found with
    | none => cases h
    | some fields =>
      have hshape : shapeNamed name fields = shape := Option.some.inj (Except.ok.inj h)
      rw [← hshape]
      exact hfound

theorem resolve_map_error {error : ResolveError} :
    resolveLocalTypedDictShape classes name = .error error
      ↔ (hierarchy classes).walk (classes.length + 1) [] name = .error error := by
  rw [resolveLocalTypedDictShape_eq]
  cases (hierarchy classes).walk (classes.length + 1) [] name with
  | error other =>
    constructor
    · intro herror
      exact congrArg _ (Except.error.inj herror)
    · intro herror
      exact congrArg _ (Except.error.inj herror)
  | ok found =>
    refine iff_of_false ?_ ?_
    · intro herror
      cases herror
    · intro herror
      cases herror

end

/-- `class Box[T = int](TypedDict)` with the one field `value: T`. -/
def box : Texts.NamedBlockStatement where
  name := "Box"
  typeParams :=
    [{ kind := .typeVar, name := "T", defaultText := "int", defaultExpr := some (.name "int") }]
  bases := ["TypedDict"]
  members := [{ kind := .field, name := "value", annotation := "T" }]

/-- A class of no fields with one base. -/
def boxed (base : String) : Texts.NamedBlockStatement where
  name := "Boxed"
  bases := [base]

def valueField : Texts.ShapeProjectionField where
  name := "value"
  publicAlias := "value"
  annotation := "T"
  required := true
  readonly := false
  sourceKind := .sourceField

theorem parse_word (h : isPlainWord name = true) (hname : normalizeName name.toList = name.toList) :
    TypeExpr.parse name = some (.name name) := by
  have hrender : (TypeExpr.name name).render = name := by
    rw [TypeExpr.render, hname, String.ofList_toList]
  have hparsed := @parse_render (.name name) h
  rwa [hrender] at hparsed

theorem box_own : (Texts.ShapeProjection.fromTypedDictBlock box).fields = [valueField] := by
  have hqualifiers := Texts.shapeAnnotationQualifiers_of_parse
    (parse_word (show isPlainWord "T" = true by decide) (by decide))
  have htotal : typedDictTotalDefaultFromHeaderSuffix box.headerSuffix = true := by decide
  show [Texts.ShapeProjectionField.fromClassMemberWithTotalDefault
    { kind := .field, name := "value", annotation := "T" }
    (typedDictTotalDefaultFromHeaderSuffix box.headerSuffix)] = _
  rw [htotal]
  unfold Texts.ShapeProjectionField.fromClassMemberWithTotalDefault
  simp only [Option.some_or, Option.map_some, Option.getD_some, hqualifiers]
  rfl

section

variable {base : String}

theorem written_boxed (hbase : (hierarchy [box, boxed base]).baseClass base = some box) {k : String}
    {steps : List Step} {declared : Texts.ShapeProjectionField}
    (h : (hierarchy [box, boxed base]).Written (boxed base) k steps declared) :
    steps = [(base, box)] ∧ declared = valueField := by
  cases h with
  | own hown => cases hown
  | @inherited _ baseBlock before after listed _ steps' _ _ hbases hmember hwritten _ =>
    have hlisted : before = [] ∧ listed = base ∧ after = [] := by
      have hsame : [base] = before ++ listed :: after := hbases
      cases before with
      | nil =>
        rw [List.nil_append, List.cons.injEq] at hsame
        exact ⟨rfl, hsame.1.symm, hsame.2.symm⟩
      | cons first rest =>
        rw [List.cons_append, List.cons.injEq] at hsame
        exact absurd hsame.2.symm (List.append_ne_nil_of_right_ne_nil _ (List.cons_ne_nil _ _))
    rcases hlisted with ⟨rfl, rfl, rfl⟩
    obtain rfl : box = baseBlock := Option.some.inj (hbase.symm.trans hmember.named)
    cases hwritten with
    | own hown =>
      have hfield : lastItem Texts.ShapeProjectionField.name
          (Texts.ShapeProjection.fromTypedDictBlock box).fields k = some declared := hown
      rw [box_own, lastItem_singleton] at hfield
      split at hfield
      · exact ⟨rfl, (Option.some.inj hfield).symm⟩
      · cases hfield
    | @inherited _ baseBlock' before' after' listed' _ _ _ _ hbases' hmember' _ _ =>
      have hlisted' : listed' ∈ ["TypedDict"] := by
        have hsame : ["TypedDict"] = before' ++ listed' :: after' := hbases'
        rw [hsame]
        simp
      rw [List.mem_singleton.1 hlisted'] at hmember'
      cases hmember'.named

end

end TypePython.Emit.Expansion
