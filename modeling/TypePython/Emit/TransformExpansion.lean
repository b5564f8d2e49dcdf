import TypePython.Emit.ShapeInheritance
import TypePython.Lib.NestedTexts
import TypePython.Syntax.RoundTrip

/-!
# Transforms written out

An alias whose value is a transform of a TypedDict is written out as a class with the fields that
the transform leaves. `expands_iff` says when these are the fields of the shape that the value
resolves to: the shape has fields, and the alias has no `=` in its type parameters.
-/

namespace TypePython.Emit.Expansion

open TypePython.Lib
open TypePython.Lib.Text
open TypePython.Syntax

/-! ## Resolving a transform -/

def applyTransformToShape (transform : String) (shape : Texts.ShapeProjection)
    (keyArgs : List String) : Texts.ShapeProjection :=
  match transform with
  | "Partial" => shape.partialFields
  | "Required_" => shape.requiredFields
  | "Readonly" => shape.readonlyFields
  | "Mutable" => shape.mutableFields
  | "Pick" => shape.pick (keyArgs.flatMap transformKeyNames)
  | "Omit" => shape.omitFields (keyArgs.flatMap transformKeyNames)
  | "MapValues" => shape.mapValues (keyArgs.headD "")
  | _ => shape

section

variable (classes dataClasses : List Texts.NamedBlockStatement)
  (experimentalShapeTransforms : Bool)

def resolveTransformTarget (value : String) : Except ResolveError (Option Texts.ShapeProjection) :=
  let name := String.ofList (trim value.toList)
  if (blockNamed classes name).isSome then resolveLocalTypedDictShape classes name
  else if experimentalShapeTransforms then
    .ok ((blockNamed dataClasses name).map fun target => .fromNamedBlock target .dataClass)
  else .ok none

def resolveTransformShapeFrom :
    Nat → String → Except ResolveError (Option Texts.ShapeProjection)
  | 0, _ => .error .outOfFuel
  | fuel + 1, value =>
    match parseTransformExpr value with
    | some (transform, target :: keyArgs) =>
      if transform ∈ typedDictTransforms then
        if transform = "MapValues" && !mapValuesWrapperSupported keyArgs then .ok none
        else
          (resolveTransformShapeFrom fuel target).map fun baseShape =>
            baseShape.map fun shape => applyTransformToShape transform shape keyArgs
      else resolveTransformTarget classes dataClasses experimentalShapeTransforms value
    | _ => resolveTransformTarget classes dataClasses experimentalShapeTransforms value

/-- Each target is shorter than the transform of it. -/
def resolveTransformShape (value : String) : Except ResolveError (Option Texts.ShapeProjection) :=
  resolveTransformShapeFrom classes dataClasses experimentalShapeTransforms
    (value.toList.length + 1) value

/-! ## Writing it out -/

def aliasName (sourceLine : Chars) : Option Chars :=
  (stripPrefix "typealias".toList (trim sourceLine)).map fun rest =>
    trim (rest.takeWhile (· ≠ '='))

def classHeader (indentation name : Chars) : Chars :=
  indentation ++ "class ".toList ++ name ++ "(TypedDict):".toList

def fieldLine (indentation : Chars) (field : Texts.ShapeProjectionField) : Chars :=
  indentation ++ "    ".toList ++ field.name.toList ++ ": ".toList ++ field.text.toList

/-- The shape of a value, if one is found without an error. -/
def shapeOf (value : String) : Option Texts.ShapeProjection :=
  match resolveTransformShape classes dataClasses experimentalShapeTransforms value with
  | .ok shape => shape
  | .error _ => none

/-- The shape of a target; the outermost transform of it is resolved here. -/
def targetShape (target : String) : Option Texts.ShapeProjection :=
  match parseTransformExpr target with
  | some (innerTransform, innerTarget :: innerKeyArgs) =>
    if innerTransform ∈ typedDictTransforms then
      (shapeOf classes dataClasses experimentalShapeTransforms innerTarget).map fun shape =>
        applyTransformToShape innerTransform shape innerKeyArgs
    else none
  | some (_, []) => none
  | none => shapeOf classes dataClasses experimentalShapeTransforms target

def tryExpandTypeddictTransform (value : String) (sourceLine : Chars) : Option (List Chars) :=
  match parseTransformExpr value with
  | some (transform, target :: keyArgs) =>
    if transform ∉ typedDictTransforms then none
    else if transform = "MapValues" && !mapValuesWrapperSupported keyArgs then none
    else
      (targetShape classes dataClasses experimentalShapeTransforms target).bind fun baseShape =>
        (aliasName sourceLine).map fun name =>
          classHeader (sourceLine.takeWhile isWhitespace) name
            :: (applyTransformToShape transform baseShape keyArgs).fields.map
              (fieldLine (sourceLine.takeWhile isWhitespace))
  | _ => none

/-! ## Compositions of transforms -/

end

/-- The text is a supported transform of a target. -/
structure Transforms (value transform target : String) (keyArgs : List String) : Prop where
  parsed : parseTransformExpr value = some (transform, target :: keyArgs)
  known : transform ∈ typedDictTransforms
  supported : transform = "MapValues" → mapValuesWrapperSupported keyArgs = true

variable {value target : String}

theorem Transforms.not_unsupported {transform : String} {keyArgs : List String}
    (h : Transforms value transform target keyArgs) :
    ¬ (decide (transform = "MapValues") && !mapValuesWrapperSupported keyArgs) = true := by
  rw [Bool.and_eq_true, decide_eq_true_iff]
  rintro ⟨hmap, hnot⟩
  rw [h.supported hmap] at hnot
  cases hnot

/-- The shape that a composition of transforms makes of a known one. -/
inductive Composition (classes dataClasses : List Texts.NamedBlockStatement)
    (experimentalShapeTransforms : Bool) : String → Texts.ShapeProjection → Prop
  | named {value : String} {shape : Texts.ShapeProjection} :
      parseTransformExpr value = none →
        resolveTransformTarget classes dataClasses experimentalShapeTransforms value
          = .ok (some shape) →
          Composition classes dataClasses experimentalShapeTransforms value shape
  | transformed {value transform target : String} {keyArgs : List String}
      {shape : Texts.ShapeProjection} :
      Transforms value transform target keyArgs →
        Composition classes dataClasses experimentalShapeTransforms target shape →
          Composition classes dataClasses experimentalShapeTransforms value
            (applyTransformToShape transform shape keyArgs)

/-- A line that declares an alias; `head` is its name, with its type parameters. -/
structure AliasLine (line indentation head : Chars) : Prop where
  parts : ∃ before after value, line = indentation
      ++ ("typealias".toList ++ (before ++ (head ++ after)) ++ '=' :: value)
    ∧ (∀ c ∈ before, isWhitespace c = true) ∧ ∀ c ∈ after, isWhitespace c = true
  space : ∀ c ∈ indentation, isWhitespace c = true
  trimmed : trim head = head

/-- A line of a class body that declares a name has a colon, as `pass` and `...` have not. -/
def declaresName (line : Chars) : Bool := ':' ∈ line

/-- The lines are a class for the alias, with a body, that declares the fields one by one. -/
structure DeclaresFields (indentation head : Chars) (shape : Texts.ShapeProjection)
    (lines : List Chars) : Prop where
  class' : ∃ body, lines = classHeader indentation head :: body ∧ body ≠ []
    ∧ body.filter declaresName = shape.fields.map (fieldLine indentation)

/-- The value is written out with the fields of the shape that it resolves to. -/
def Expands (classes dataClasses : List Texts.NamedBlockStatement)
    (experimentalShapeTransforms : Bool) (value : String) (line indentation head : Chars) : Prop :=
  ∃ shape lines,
    resolveTransformShape classes dataClasses experimentalShapeTransforms value = .ok (some shape)
    ∧ tryExpandTypeddictTransform classes dataClasses experimentalShapeTransforms value line
      = some lines
    ∧ DeclaresFields indentation head shape lines

/-! ## Targets are shorter -/

theorem length_takeToMatchingBracket (depth : Nat) (quote : Option Char) (text : Chars)
    {inner : Chars} (h : takeToMatchingBracket depth quote text = some inner) :
    inner.length < text.length := by
  fun_induction takeToMatchingBracket depth quote text generalizing inner <;>
    simp_all [Option.map_eq_some_iff] <;> grind

theorem length_splitTransformArgs (depth : Nat) (quote : Option Char) (current text : Chars) :
    ∀ part ∈ splitTransformArgs depth quote current text,
      part.length ≤ current.length + text.length := by
  fun_induction splitTransformArgs depth quote current text with
  | case1 depth quote current =>
    intro part hpart
    rw [List.mem_singleton.1 hpart, List.length_nil, Nat.add_zero]
    exact trim_length_le current
  | case7 depth current c rest _ _ _ hcomma ih =>
    intro part hpart
    rw [List.length_cons]
    rcases List.mem_cons.1 hpart with rfl | hrest
    · have hle := trim_length_le current
      omega
    · have hle := ih part hrest
      rw [List.length_nil] at hle
      omega
  | _ =>
    rename_i ih
    intro part hpart
    have hle := ih part hpart
    rw [List.length_append, List.length_singleton] at hle
    rw [List.length_cons]
    omega

theorem length_lt_of_parse {head : String} {args : List String}
    (h : parseTransformExpr value = some (head, args)) :
    ∀ arg ∈ args, arg.toList.length < value.toList.length := by
  unfold parseTransformExpr at h
  obtain ⟨⟨before, rest⟩, hsplit, hbelow⟩ := Option.bind_eq_some_iff.1 h
  obtain ⟨inner, hinner, hsame⟩ := Option.bind_eq_some_iff.1 hbelow
  have hargs : (splitTransformArgs 0 none [] inner).map String.ofList = args :=
    (Prod.mk.inj (Option.some.inj hsame)).2
  intro arg harg
  rw [← hargs] at harg
  obtain ⟨part, hpart, rfl⟩ := List.mem_map.1 harg
  have hle := length_splitTransformArgs 0 none [] inner part hpart
  have hlt := length_takeToMatchingBracket 0 none rest hinner
  have htrim := trim_length_le value.toList
  have hvalue := congrArg List.length (splitOnce_eq hsplit)
  rw [List.length_append, List.length_cons] at hvalue
  rw [String.toList_ofList]
  rw [List.length_nil] at hle
  omega

variable {shape : Texts.ShapeProjection}

section

variable {classes dataClasses : List Texts.NamedBlockStatement}
  {experimentalShapeTransforms : Bool}

/-- More fuel than characters changes nothing. -/
theorem resolveTransformShapeFrom_eq {fuel : Nat} (h : value.toList.length < fuel) :
    resolveTransformShapeFrom classes dataClasses experimentalShapeTransforms fuel value
      = resolveTransformShape classes dataClasses experimentalShapeTransforms value := by
  have hsame : ∀ (fuel fuel' : Nat) (value : String), value.toList.length < fuel →
      value.toList.length < fuel' →
      resolveTransformShapeFrom classes dataClasses experimentalShapeTransforms fuel value
        = resolveTransformShapeFrom classes dataClasses experimentalShapeTransforms fuel' value := by
    intro fuel
    induction fuel with
    | zero => exact fun _ _ hlt => absurd hlt (Nat.not_lt_zero _)
    | succ fuel ih =>
      intro fuel' value hfuel hfuel'
      cases fuel' with
      | zero => exact absurd hfuel' (Nat.not_lt_zero _)
      | succ fuel' =>
        unfold resolveTransformShapeFrom
        cases hparsed : parseTransformExpr value with
        | none => rfl
        | some parts =>
          obtain ⟨transform, args⟩ := parts
          cases args with
          | nil => rfl
          | cons target keyArgs =>
            have hlt := length_lt_of_parse hparsed target List.mem_cons_self
            simp only
            rw [ih fuel' target (by omega) (by omega)]
  exact hsame fuel _ value h (Nat.lt_succ_self _)

/-- One transform after what it is made on. -/
theorem resolveTransformShape_transforms {transform : String} {keyArgs : List String}
    (h : Transforms value transform target keyArgs) :
    resolveTransformShape classes dataClasses experimentalShapeTransforms value
      = (resolveTransformShape classes dataClasses experimentalShapeTransforms target).map
        fun baseShape => baseShape.map fun shape => applyTransformToShape transform shape keyArgs := by
  have hlt := length_lt_of_parse h.parsed target List.mem_cons_self
  conv_lhs => unfold resolveTransformShape resolveTransformShapeFrom
  rw [h.parsed]
  simp only
  rw [if_pos h.known, if_neg h.not_unsupported, resolveTransformShapeFrom_eq hlt]

/-- The resolver finds the shape of every composition. -/
theorem resolve_of_composition
    (h : Composition classes dataClasses experimentalShapeTransforms value shape) :
    resolveTransformShape classes dataClasses experimentalShapeTransforms value
      = .ok (some shape) := by
  induction h with
  | named hparsed htarget =>
    unfold resolveTransformShape resolveTransformShapeFrom
    rw [hparsed]
    exact htarget
  | transformed htransforms _ ih =>
    rw [resolveTransformShape_transforms htransforms, ih]
    rfl

theorem shapeOf_of_composition
    (h : Composition classes dataClasses experimentalShapeTransforms value shape) :
    shapeOf classes dataClasses experimentalShapeTransforms value = some shape := by
  rw [shapeOf, resolve_of_composition h]

/-- The expander's own step for the outermost transform of a target comes to the same. -/
theorem targetShape_of_composition
    (h : Composition classes dataClasses experimentalShapeTransforms target shape) :
    targetShape classes dataClasses experimentalShapeTransforms target = some shape := by
  unfold targetShape
  cases h with
  | named hparsed htarget =>
    rw [hparsed]
    exact shapeOf_of_composition (.named hparsed htarget)
  | transformed htransforms hbelow =>
    rw [htransforms.parsed]
    simp only
    rw [if_pos htransforms.known, shapeOf_of_composition hbelow, Option.map_some]

end

/-! ## The line of the alias -/

theorem trimEnd_solid_append {text : Chars} (h : Solid text) (rest : Chars) :
    trimEnd (text ++ rest) = text ++ trimEnd rest := by
  have htext := h.trimEnd_eq
  unfold trimEnd at htext ⊢
  rw [List.reverse_append, List.dropWhile_append]
  split
  · rename_i hempty
    rw [htext, List.isEmpty_iff.1 hempty, List.reverse_nil, List.append_nil]
  · rw [List.reverse_append, List.reverse_reverse]

section

variable {line indentation head : Chars}

/-- The name is what stands before the first `=`. -/
theorem aliasName_of_line (h : AliasLine line indentation head) :
    ∃ before after, aliasName line
        = some (trim ((before ++ (head ++ after) ++ ['=']).takeWhile (· ≠ '=')))
      ∧ (∀ c ∈ before, isWhitespace c = true) ∧ ∀ c ∈ after, isWhitespace c = true := by
  obtain ⟨before, after, value, hline, hbefore, hafter⟩ := h.parts
  refine ⟨before, after, ?_, hbefore, hafter⟩
  have hsolid : Solid ("typealias".toList ++ (before ++ (head ++ after)) ++ ['=']) :=
    ⟨⟨'t', "ypealias".toList ++ (before ++ (head ++ after)) ++ ['='], rfl, by decide⟩,
      ⟨'=', _, rfl, by decide⟩⟩
  have htext : line = indentation
      ++ (("typealias".toList ++ (before ++ (head ++ after)) ++ ['=']) ++ value) := by
    rw [hline]
    simp only [List.append_assoc, List.singleton_append]
  have htrim : trim line = "typealias".toList
      ++ ((before ++ (head ++ after) ++ ['=']) ++ trimEnd value) := by
    rw [htext, trim, trimStart_append h.space, hsolid.trimStart_append, trimEnd_solid_append hsolid]
    simp only [List.append_assoc]
  have hfirst : ((before ++ (head ++ after) ++ ['=']) ++ trimEnd value).takeWhile (· ≠ '=')
      = (before ++ (head ++ after) ++ ['=']).takeWhile (· ≠ '=') := by
    rw [List.takeWhile_append, if_neg]
    intro hall
    have hmem : '=' ∈ (before ++ (head ++ after) ++ ['=']).takeWhile (· ≠ '=') := by
      have hwhole := List.takeWhile_prefix (· ≠ '=') |>.eq_of_length hall
      rw [hwhole]
      simp
    have hne := List.mem_takeWhile_imp hmem
    simp at hne
  rw [aliasName, htrim, stripPrefix_append, Option.map_some, hfirst]

theorem takeWhile_indentation (h : AliasLine line indentation head) :
    line.takeWhile isWhitespace = indentation := by
  obtain ⟨before, after, value, hline, -, -⟩ := h.parts
  have hstart : "typealias".toList ++ (before ++ (head ++ after)) ++ '=' :: value
      = 't' :: ("ypealias".toList ++ (before ++ (head ++ after)) ++ '=' :: value) := rfl
  rw [hline, hstart, List.takeWhile_append_of_pos h.space,
    List.takeWhile_cons_of_neg (by decide), List.append_nil]

/-- It is the name of the alias exactly if that has no `=`. -/
theorem aliasName_iff (h : AliasLine line indentation head) :
    aliasName line = some head ↔ '=' ∉ head := by
  obtain ⟨before, after, hname, hbefore, hafter⟩ := aliasName_of_line h
  have hspace : ∀ {space : Chars}, (∀ c ∈ space, isWhitespace c = true) → '=' ∉ space := by
    intro space hspace hmem
    have heq := hspace '=' hmem
    revert heq
    decide
  rw [hname, Option.some.injEq]
  constructor
  · intro hsame hmem
    rw [← hsame] at hmem
    obtain ⟨start, gap, htext, -, -⟩ :=
      exists_trim ((before ++ (head ++ after) ++ ['=']).takeWhile (· ≠ '='))
    have hinside : '=' ∈ (before ++ (head ++ after) ++ ['=']).takeWhile (· ≠ '=') := by
      rw [htext]
      exact List.mem_append_right _ (List.mem_append_left _ hmem)
    have hne := List.mem_takeWhile_imp hinside
    simp at hne
  · intro hmem
    have hall : ∀ c ∈ before ++ (head ++ after), decide (c ≠ '=') = true := by
      intro c hc
      refine decide_eq_true ?_
      rintro rfl
      rcases List.mem_append.1 hc with hc | hc
      · exact hspace hbefore hc
      rcases List.mem_append.1 hc with hc | hc
      · exact hmem hc
      · exact hspace hafter hc
    rw [List.takeWhile_append_of_pos hall, List.takeWhile_cons_of_neg (by decide), List.append_nil,
      trim_spaced_of_forall _ _ _ hbefore hafter, h.trimmed]

end

/-! ## The class that is written -/

theorem declaresName_fieldLine (indentation : Chars) (field : Texts.ShapeProjectionField) :
    declaresName (fieldLine indentation field) = true := by
  unfold declaresName fieldLine
  refine decide_eq_true ?_
  have hcolon : ':' ∈ ": ".toList := by decide
  simp only [List.mem_append]
  exact .inl (.inr hcolon)

theorem classHeader_inj {indentation name name' : Chars} :
    classHeader indentation name = classHeader indentation name' ↔ name = name' := by
  unfold classHeader
  rw [List.append_cancel_right_eq, List.append_cancel_left_eq]

/-- What is written for a composition. -/
theorem tryExpandTypeddictTransform_eq {classes dataClasses : List Texts.NamedBlockStatement}
    {experimentalShapeTransforms : Bool} {line indentation head : Chars}
    (h : Composition classes dataClasses experimentalShapeTransforms value shape)
    (htransform : (parseTransformExpr value).isSome = true)
    (hline : AliasLine line indentation head) :
    tryExpandTypeddictTransform classes dataClasses experimentalShapeTransforms value line
      = (aliasName line).map fun name =>
        classHeader indentation name :: shape.fields.map (fieldLine indentation) := by
  cases h with
  | named hparsed htarget =>
    rw [hparsed] at htransform
    cases htransform
  | @transformed _ transform target keyArgs _ htransforms hbelow =>
    unfold tryExpandTypeddictTransform
    rw [htransforms.parsed]
    simp only
    rw [if_neg (not_not.2 htransforms.known), if_neg htransforms.not_unsupported,
      targetShape_of_composition hbelow, Option.bind_some, takeWhile_indentation hline]

/-- The fields of the projected shape are declared exactly if there are some and the alias has no
`=` in its type parameters. -/
theorem expands_iff (classes dataClasses : List Texts.NamedBlockStatement)
    (experimentalShapeTransforms : Bool) {value : String} {shape : Texts.ShapeProjection}
    {line indentation head : Chars}
    (h : Composition classes dataClasses experimentalShapeTransforms value shape)
    (htransform : (parseTransformExpr value).isSome = true)
    (hline : AliasLine line indentation head) :
    Expands classes dataClasses experimentalShapeTransforms value line indentation head
      ↔ shape.fields ≠ [] ∧ '=' ∉ head := by
  have hresolved := resolve_of_composition h
  have hlines : ∀ lines, tryExpandTypeddictTransform classes dataClasses experimentalShapeTransforms
      value line = some lines ↔ ∃ name, aliasName line = some name
        ∧ classHeader indentation name :: shape.fields.map (fieldLine indentation) = lines := by
    intro lines
    rw [tryExpandTypeddictTransform_eq h htransform hline, Option.map_eq_some_iff]
  rw [← aliasName_iff hline]
  constructor
  · rintro ⟨shape', lines, hshape, hsome, ⟨body, hbody, hne, -⟩⟩
    obtain ⟨name, hfound, hsame⟩ := (hlines lines).1 hsome
    rw [hbody, List.cons.injEq] at hsame
    rw [hfound, classHeader_inj.1 hsame.1]
    refine ⟨?_, rfl⟩
    intro hnil
    rw [hnil, List.map_nil] at hsame
    exact hne hsame.2.symm
  · rintro ⟨hfields, hhead⟩
    refine ⟨shape, _, hresolved, (hlines _).2 ⟨head, hhead, rfl⟩, _, rfl, ?_, ?_⟩
    · intro hnil
      exact hfields (List.map_eq_nil_iff.1 hnil)
    · rw [List.filter_eq_self]
      intro text htext
      obtain ⟨field, -, rfl⟩ := List.mem_map.1 htext
      exact declaresName_fieldLine indentation field

/-! ## A film without fields -/

def yearField : Texts.ShapeProjectionField where
  name := "year"
  publicAlias := "year"
  annotation := "int"
  required := true
  readonly := false
  sourceKind := .sourceField

theorem composition_movie :
    Composition [Texts.movie] [] false "Movie" (shapeNamed "Movie" [yearField]) := by
  have hown : (Texts.ShapeProjection.fromTypedDictBlock Texts.movie).fields = [yearField] :=
    Texts.movie_fields .typedDict
  refine .named (by decide +kernel) ?_
  have hname : String.ofList (trim "Movie".toList) = "Movie" := by decide
  unfold resolveTransformTarget
  simp only [hname]
  rw [if_pos (by rfl)]
  unfold resolveLocalTypedDictShape
  rw [resolveLocalTypedDictShapeInner, if_neg List.not_mem_nil]
  show Except.ok (completeShape Texts.movie { items := [], isMember := true }) = _
  unfold completeShape
  rw [if_pos rfl, hown]
  rfl

/-- A partial film has its year. -/
theorem expands_partial : Expands [Texts.movie] [] false "Partial[Movie]"
    "typealias Draft = Partial[Movie]".toList [] "Draft".toList := by
  have htransforms : Transforms "Partial[Movie]" "Partial" "Movie" [] :=
    ⟨by decide +kernel, by decide, fun hmap => absurd hmap (by decide)⟩
  have hline : AliasLine "typealias Draft = Partial[Movie]".toList [] "Draft".toList :=
    ⟨⟨[' '], [' '], " Partial[Movie]".toList, by decide,
      List.forall_mem_singleton.2 rfl, List.forall_mem_singleton.2 rfl⟩,
      fun c hc => absurd hc List.not_mem_nil, by decide⟩
  refine (expands_iff [Texts.movie] [] false (.transformed htransforms composition_movie)
    (by rw [htransforms.parsed]; rfl) hline).2 ⟨?_, by decide⟩
  intro hnil
  cases hnil

/-- A film without its year is a class without a body. -/
theorem not_expands_omit : ¬ Expands [Texts.movie] [] false "Omit[Movie, \"year\"]"
    "typealias Empty = Omit[Movie, \"year\"]".toList [] "Empty".toList := by
  have htransforms : Transforms "Omit[Movie, \"year\"]" "Omit" "Movie" ["\"year\""] :=
    ⟨by decide +kernel, by decide, fun hmap => absurd hmap (by decide)⟩
  have hline : AliasLine "typealias Empty = Omit[Movie, \"year\"]".toList [] "Empty".toList :=
    ⟨⟨[' '], [' '], " Omit[Movie, \"year\"]".toList, by decide,
      List.forall_mem_singleton.2 rfl, List.forall_mem_singleton.2 rfl⟩,
      fun c hc => absurd hc List.not_mem_nil, by decide⟩
  have hkeys : ["\"year\""].flatMap transformKeyNames = ["year"] := by decide +kernel
  have hempty : (applyTransformToShape "Omit" (shapeNamed "Movie" [yearField]) ["\"year\""]).fields
      = [] := by
    show (((shapeNamed "Movie" [yearField]).omitFields
      (["\"year\""].flatMap transformKeyNames)).fields) = []
    rw [hkeys]
    rfl
  rintro ⟨shape, lines, -, hlines, ⟨body, hbody, hne, -⟩⟩
  rw [tryExpandTypeddictTransform_eq (.transformed htransforms composition_movie)
    (by rw [htransforms.parsed]; rfl) hline, hempty, List.map_nil, Option.map_eq_some_iff] at hlines
  obtain ⟨name, -, hsame⟩ := hlines
  rw [hbody, List.cons.injEq] at hsame
  exact hne hsame.2.symm

end TypePython.Emit.Expansion
