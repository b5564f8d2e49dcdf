import TypePython.Checking.TupleLengths
import TypePython.Checking.TypeLevel
import TypePython.Syntax.TypeLevelText

/-!
# Conditional types, checked and emitted

`TypeIf[IsSubtype[S, T], A, B]` is decided twice: by the checker with its assignability search, and
by the lowering with rules on texts. Each of the two goes down one chain of branches to a type
(`Selects`, `textLeaf`). The alias that is emitted is the type that was checked exactly where the
two tests answer alike on the way, or differ over branches that come to one type
(`aliasText_checked_iff`).
-/

namespace TypePython.Checking

open TypePython.Lib
open TypePython.Lib.Text
open TypePython.Binding
open TypePython.Syntax

/-! ## Closed conditionals -/

/-- A conditional over types, whose branches may be conditionals. -/
inductive Conditional where
  | leaf (ty : TypeExpr)
  | typeIf (subtype supertype : TypeExpr) (thenType elseType : Conditional)

variable {c : Conditional}

namespace Conditional

def expr : Conditional → TypeExpr
  | .leaf ty => ty
  | .typeIf subtype supertype thenType elseType =>
    .generic "TypeIf" [.generic "IsSubtype" [subtype, supertype], thenType.expr, elseType.expr]

/-- How deep the conditionals are nested. -/
def depth : Conditional → Nat
  | .leaf _ => 0
  | .typeIf _ _ thenType elseType => max thenType.depth elseType.depth + 1

/-- A type of names, generics, callables and unions without a type-level form. -/
def IsType (ty : TypeExpr) : Prop :=
  ty.isPlain = true ∧ ty.containsRestrictedTypeLevelForm = false

instance (ty : TypeExpr) : Decidable (IsType ty) := by
  unfold IsType
  infer_instance

/-- All types in the conditional are. -/
def Closed : Conditional → Prop
  | .leaf ty => IsType ty
  | .typeIf subtype supertype thenType elseType =>
    IsType subtype ∧ IsType supertype ∧ thenType.Closed ∧ elseType.Closed

/-- The type the rules on texts come to. -/
def textLeaf : Conditional → TypeExpr
  | .leaf ty => ty
  | .typeIf subtype supertype thenType elseType =>
    if typeExprIsAssignableText supertype.render subtype.render then thenType.textLeaf
    else elseType.textLeaf

theorem Closed.isPlain (h : c.Closed) : c.expr.isPlain = true := by
  induction c with
  | leaf ty => exact h.1
  | typeIf subtype supertype thenType elseType ihthen ihelse =>
    obtain ⟨hsubtype, hsupertype, hthen, helse⟩ := h
    have hif : isGenericHead "TypeIf" = true := by decide
    have htest : isGenericHead "IsSubtype" = true := by decide
    simp only [expr, TypeExpr.isPlain, allPlain, hif, htest, hsubtype.1, hsupertype.1,
      ihthen hthen, ihelse helse, Bool.and_self]

theorem Closed.textLeaf_isType (h : c.Closed) : IsType c.textLeaf := by
  induction c with
  | leaf ty => exact h
  | typeIf subtype supertype thenType elseType ihthen ihelse =>
    rw [textLeaf]
    split
    · exact ihthen h.2.2.1
    · exact ihelse h.2.2.2

end Conditional

/-! ## The alias text -/

variable {current : String} {thenType elseType : Conditional}

section

open Conditional

/-- One reduction takes the branch that the rules on texts take. -/
theorem reduceTypeifIsSubtypeText_conditional {subtype supertype : TypeExpr}
    (hcurrent : TypeExpr.parse (String.ofList (trim current.toList))
      = some (typeIf subtype supertype thenType elseType).expr) : reduceTypeifIsSubtypeText current
      = some (if typeExprIsAssignableText supertype.render subtype.render then thenType
        else elseType).expr.render := by
  unfold reduceTypeifIsSubtypeText
  rw [hcurrent]
  simp only [expr]
  split <;> rfl

theorem reduceKeySetAliasText_conditional {subtype supertype : TypeExpr}
    (fields : List TypeLevelShapeField)
    (hcurrent : TypeExpr.parse (String.ofList (trim current.toList))
      = some (typeIf subtype supertype thenType elseType).expr) :
    reduceKeySetAliasText current fields = none := by
  unfold reduceKeySetAliasText
  rw [hcurrent]
  rfl

theorem containsRestrictedTypeLevelAliasText_render (h : c.Closed) :
    containsRestrictedTypeLevelAliasText c.expr.render
      = c.expr.containsRestrictedTypeLevelForm := by
  rw [containsRestrictedTypeLevelAliasText, trim_render h.isPlain, parse_render h.isPlain]
  rfl

/-- A branch without a type-level form is what the loop comes to; it goes on with another. -/
theorem reduced_branch {branch : Conditional} (hclosed : branch.Closed) {rest : Option String}
    (hloop : 0 < branch.depth → rest = some branch.textLeaf.render) :
    (if containsRestrictedTypeLevelAliasText branch.expr.render then rest
      else some branch.expr.render) = some branch.textLeaf.render := by
  rw [containsRestrictedTypeLevelAliasText_render hclosed]
  cases branch with
  | leaf ty =>
    rw [expr, hclosed.2]
    rfl
  | typeIf subtype supertype thenType elseType => exact hloop (Nat.succ_pos _)

/-- One round of the loop goes to the branch. -/
theorem reduceRestrictedFrom_succ {fields : List TypeLevelShapeField} {budget : Nat}
    {branch : TypeExpr} (hkeys : reduceKeySetAliasText current fields = none)
    (hreduced : reduceTypeifIsSubtypeText current = some branch.render) :
    reduceRestrictedFrom fields (budget + 1) current
      = if containsRestrictedTypeLevelAliasText branch.render then
          reduceRestrictedFrom fields budget branch.render
        else some branch.render := by
  conv_lhs => unfold reduceRestrictedFrom
  rw [hkeys]
  simp only
  rw [hreduced]

/-- The loop goes down the branches until no conditional is left. -/
theorem reduceRestrictedFrom_conditional {fields : List TypeLevelShapeField} {budget : Nat}
    (hclosed : c.Closed) (hpositive : 0 < c.depth) (hdepth : c.depth ≤ budget)
    (hcurrent : TypeExpr.parse (String.ofList (trim current.toList)) = some c.expr) :
    reduceRestrictedFrom fields budget current = some c.textLeaf.render := by
  induction c generalizing budget current with
  | leaf ty => exact absurd hpositive (Nat.lt_irrefl 0)
  | typeIf subtype supertype thenType elseType ihthen ihelse =>
    obtain ⟨hsubtype, hsupertype, hthen, helse⟩ := hclosed
    rw [depth] at hdepth
    cases budget with
    | zero => omega
    | succ budget =>
      have hreduced := reduceTypeifIsSubtypeText_conditional hcurrent
      have hkeys := reduceKeySetAliasText_conditional fields hcurrent
      rw [reduceRestrictedFrom_succ hkeys hreduced, textLeaf]
      -- the text of a branch reads as the branch
      have hread : ∀ branch : Conditional, branch.Closed →
          TypeExpr.parse (String.ofList (trim branch.expr.render.toList))
            = some branch.expr := by
        intro branch hbranch
        rw [trim_render hbranch.isPlain, parse_render hbranch.isPlain]
      split
      · exact reduced_branch hthen
          fun hpos => ihthen hthen hpos (by omega) (hread thenType hthen)
      · exact reduced_branch helse
          fun hpos => ihelse helse hpos (by omega) (hread elseType helse)

end

/-! ## The checked type -/

/-- No type-level form, and what the evaluator leaves as it is. -/
def isFormless : SemanticType → Bool
  | .generic head _ => head ∉ typeLevelHeads
  | .annotated _ _ => false
  | _ => true

theorem isFormless_lower {ty : TypeExpr} (h : Conditional.IsType ty) :
    isFormless (lowerTypeExpr ty) = true := by
  cases ty with
  | generic head args =>
    have hform := h.2
    rw [TypeExpr.containsRestrictedTypeLevelForm, Bool.or_eq_false_iff] at hform
    rw [lowerTypeExpr, isFormless, decide_not, hform.1]
    rfl
  | annotated value metadata => cases h.1
  | _ => rfl

section

variable {shapeOf : String → Option (List ShapeField)} {node : ModuleNode}

theorem evaluateTypeFrom_formless {ty : SemanticType} (h : isFormless ty = true)
    (depth steps : Nat) :
    evaluateTypeFrom shapeOf node (depth + 1) ty (steps + 1) = pure (.ok (.type ty, steps)) := by
  cases ty with
  | generic head args =>
    have hhead : head ∉ typeLevelHeads := by
      intro hmem
      rw [isFormless, decide_eq_true_eq] at h
      exact h hmem
    -- the branches of the match are the heads in the list
    simp only [typeLevelHeads, List.mem_cons, List.not_mem_nil, or_false, not_or] at hhead
    unfold evaluateTypeFrom
    simp only [SemanticType.stripAnnotated]
    split
    all_goals first | (rename_i heq; cases heq; simp at hhead) | rfl
  | annotated value metadata => cases h
  | _ => rfl

theorem expectType_formless {ty : SemanticType} (h : isFormless ty = true) (depth steps : Nat) :
    expectType (evaluateTypeFrom shapeOf node (depth + 1)) ty (steps + 1)
      = pure (.ok (ty, steps)) := by
  show evaluateTypeFrom shapeOf node (depth + 1) ty (steps + 1) >>= _ = _
  rw [evaluateTypeFrom_formless h]
  rfl

/-- A conditional spends a step on itself, one on its test, and one on each of the two types. -/
theorem evaluateTypeFrom_conditional {subtype supertype : SemanticType}
    (hsubtype : isFormless subtype = true) (hsupertype : isFormless supertype = true)
    (thenType elseType : SemanticType) (depth steps : Nat) :
    evaluateTypeFrom shapeOf node (depth + 3)
        (.generic "TypeIf" [.generic "IsSubtype" [subtype, supertype], thenType, elseType])
        (steps + 4)
      = Search.isAssignable node supertype subtype [] >>= fun holds =>
          evaluateTypeFrom shapeOf node (depth + 2) (if holds then thenType else elseType)
            steps := by
  have htest : evaluateTypeFrom shapeOf node (depth + 2)
      (.generic "IsSubtype" [subtype, supertype]) (steps + 3)
      = Search.isAssignable node supertype subtype [] >>= fun holds =>
          pure (.ok (.bool holds, steps)) := by
    show expectType (evaluateTypeFrom shapeOf node (depth + 1)) subtype (steps + 2) >>= _ = _
    rw [expectType_formless hsubtype]
    show expectType (evaluateTypeFrom shapeOf node (depth + 1)) supertype (steps + 1) >>= _ = _
    rw [expectType_formless hsupertype]
    rfl
  show evaluateTypeFrom shapeOf node (depth + 2)
      (.generic "IsSubtype" [subtype, supertype]) (steps + 3) >>= _ = _
  rw [htest]
  rfl

end

section

variable (nodes : List ModuleNode) (options : AssignabilityOptions) (node : ModuleNode)

/-- The chain of branches that assignability takes: the type at its end, and its length. -/
inductive Selects : Conditional → TypeExpr → Nat → Prop
  | leaf (ty : TypeExpr) : Selects (.leaf ty) ty 0
  | branch {subtype supertype ty : TypeExpr} {thenType elseType : Conditional} {holds : Bool}
      {links : Nat}
      (htest : IsAssignable nodes options node (lowerTypeExpr supertype) (lowerTypeExpr subtype)
        holds)
      (hbranch : Selects (if holds then thenType else elseType) ty links) :
      Selects (.typeIf subtype supertype thenType elseType) ty (links + 1)

/-- The tests answer alike on the way down. Where they first differ, the branch that assignability
takes comes to the type that the other branch comes to by the rules on texts. -/
def Agrees : Conditional → Prop
  | .leaf _ => True
  | .typeIf subtype supertype thenType elseType =>
    ∃ holds, IsAssignable nodes options node (lowerTypeExpr supertype) (lowerTypeExpr subtype)
        holds
      ∧ if holds = typeExprIsAssignableText supertype.render subtype.render then
          if holds then Agrees thenType else Agrees elseType
        else ∃ ty links, Selects nodes options node (if holds then thenType else elseType) ty links
          ∧ lowerTypeExpr ty = lowerTypeExpr (if holds then elseType else thenType).textLeaf

end

section

variable {nodes : List ModuleNode} {options : AssignabilityOptions} {node : ModuleNode}

theorem selects_typeIf_iff {subtype supertype ty : TypeExpr} {links : Nat} :
    Selects nodes options node (.typeIf subtype supertype thenType elseType) ty links
      ↔ ∃ holds rest, links = rest + 1
        ∧ IsAssignable nodes options node (lowerTypeExpr supertype) (lowerTypeExpr subtype) holds
        ∧ Selects nodes options node (if holds then thenType else elseType) ty rest := by
  constructor
  · intro h
    cases h with
    | @branch _ _ _ _ _ holds rest htest hbranch => exact ⟨holds, rest, rfl, htest, hbranch⟩
  · rintro ⟨holds, rest, rfl, htest, hbranch⟩
    exact .branch htest hbranch

/-- The evaluator comes to the end of the chain. -/
theorem evaluateTypeFrom_yields_iff {shapeOf : String → Option (List ShapeField)}
    (hclosed : c.Closed) {depth steps : Nat} (hdepth : 4 * c.depth < depth)
    (hsteps : 4 * c.depth < steps) {result : Except TypeLevelEvalError (TypeLevelValue × Nat)} :
    (evaluateTypeFrom shapeOf node depth (lowerTypeExpr c.expr) steps).Yields
        (Answers (Question.body nodes options)) result
      ↔ ∃ ty links, Selects nodes options node c ty links
        ∧ result = .ok (.type (lowerTypeExpr ty), steps - (4 * links + 1)) := by
  induction c generalizing depth steps with
  | leaf ty =>
    obtain ⟨depth, rfl⟩ : ∃ rest, depth = rest + 1 := ⟨depth - 1, by omega⟩
    obtain ⟨steps, rfl⟩ : ∃ rest, steps = rest + 1 := ⟨steps - 1, by omega⟩
    rw [Conditional.expr, evaluateTypeFrom_formless (isFormless_lower hclosed),
      Prog.yields_pure]
    constructor
    · rintro rfl
      exact ⟨ty, 0, .leaf ty, rfl⟩
    · rintro ⟨ty', links, hselects, rfl⟩
      cases hselects
      rfl
  | typeIf subtype supertype thenType elseType ihthen ihelse =>
    obtain ⟨hsubtype, hsupertype, hthen, helse⟩ := hclosed
    rw [Conditional.depth] at hdepth hsteps
    obtain ⟨depth, rfl⟩ : ∃ rest, depth = rest + 3 := ⟨depth - 3, by omega⟩
    obtain ⟨steps, rfl⟩ : ∃ rest, steps = rest + 4 := ⟨steps - 4, by omega⟩
    have hshape : lowerTypeExpr (Conditional.typeIf subtype supertype thenType elseType).expr
        = .generic "TypeIf" [.generic "IsSubtype" [lowerTypeExpr subtype,
          lowerTypeExpr supertype], lowerTypeExpr thenType.expr, lowerTypeExpr elseType.expr] :=
      rfl
    rw [hshape, evaluateTypeFrom_conditional (isFormless_lower hsubtype)
      (isFormless_lower hsupertype), Prog.yields_bind]
    -- either branch has steps left for what is nested in it
    have hbranch : ∀ holds : Bool,
        (evaluateTypeFrom shapeOf node (depth + 2)
            (if holds then lowerTypeExpr thenType.expr else lowerTypeExpr elseType.expr)
            steps).Yields (Answers (Question.body nodes options)) result
          ↔ ∃ ty links, Selects nodes options node (if holds then thenType else elseType) ty links
            ∧ result = .ok (.type (lowerTypeExpr ty), steps - (4 * links + 1)) := by
      intro holds
      cases holds
      · exact ihelse helse (by omega) (by omega)
      · exact ihthen hthen (by omega) (by omega)
    constructor
    · rintro ⟨holds, htest, hyields⟩
      rcases (hbranch holds).1 hyields with ⟨ty, links, hselects, rfl⟩
      refine ⟨ty, links + 1, .branch ((Prog.yields_query _ _).1 htest) hselects, ?_⟩
      rw [show steps + 4 - (4 * (links + 1) + 1) = steps - (4 * links + 1) by omega]
    · rintro ⟨ty, links, hselects, rfl⟩
      rcases selects_typeIf_iff.1 hselects with ⟨holds, rest, rfl, htest, hselects⟩
      refine ⟨holds, (Prog.yields_query _ _).2 htest, (hbranch holds).2 ⟨ty, rest, hselects, ?_⟩⟩
      rw [show steps + 4 - (4 * (rest + 1) + 1) = steps - (4 * rest + 1) by omega]

/-- Assignability comes to the type that the rules on texts come to. -/
theorem agrees_iff : Agrees nodes options node c ↔ ∃ ty links, Selects nodes options node c ty links
      ∧ lowerTypeExpr ty = lowerTypeExpr c.textLeaf := by
  induction c with
  | leaf ty =>
    constructor
    · intro _
      exact ⟨ty, 0, .leaf ty, rfl⟩
    · intro _
      trivial
  | typeIf subtype supertype thenType elseType ihthen ihelse =>
    -- what either answer of the assignability search leaves to show
    have hbranch : ∀ holds : Bool,
        (if holds = typeExprIsAssignableText supertype.render subtype.render then
          if holds then Agrees nodes options node thenType
            else Agrees nodes options node elseType
        else ∃ ty links, Selects nodes options node (if holds then thenType else elseType) ty links
          ∧ lowerTypeExpr ty = lowerTypeExpr (if holds then elseType else thenType).textLeaf)
        ↔ ∃ ty links, Selects nodes options node (if holds then thenType else elseType) ty links
          ∧ lowerTypeExpr ty = lowerTypeExpr
            (Conditional.typeIf subtype supertype thenType elseType).textLeaf := by
      intro holds
      rw [Conditional.textLeaf]
      cases holds <;> cases typeExprIsAssignableText supertype.render subtype.render
      · exact ihelse
      · exact Iff.rfl
      · exact Iff.rfl
      · exact ihthen
    constructor
    · rintro ⟨holds, htest, hrest⟩
      rcases (hbranch holds).1 hrest with ⟨ty, links, hselects, hsame⟩
      exact ⟨ty, links + 1, .branch htest hselects, hsame⟩
    · rintro ⟨ty, links, hselects, hsame⟩
      rcases selects_typeIf_iff.1 hselects with ⟨holds, rest, -, htest, hselects⟩
      exact ⟨holds, htest, (hbranch holds).2 ⟨ty, rest, hselects, hsame⟩⟩

theorem lowerTypeTextOrName_render {ty : TypeExpr} (h : ty.isPlain = true) :
    lowerTypeTextOrName ty.render = lowerTypeExpr ty := by
  rw [lowerTypeTextOrName, lowerTypeText, parse_render h]
  rfl

/-- The text of the annotation that a plain type is turned into is read as that type. -/
theorem lowerTypeTextOrName_semanticType {ty : SemanticType}
    (h : (semanticTypeToTypeExpr ty).isPlain = true) :
    lowerTypeTextOrName (semanticTypeToTypeExpr ty).render = ty := by
  rw [lowerTypeTextOrName_render h, lowerTypeExpr_semanticTypeToTypeExpr]

theorem listOfInt_readBack :
    lowerTypeTextOrName (semanticTypeToTypeExpr (.generic "list" [.name "int"])).render
      = .generic "list" [.name "int"] :=
  lowerTypeTextOrName_semanticType (by decide)

/-- What the reduction writes for the text of a conditional. -/
theorem reducedAliasText {fields : List TypeLevelShapeField} {value : String} {c : Conditional}
    (hclosed : c.Closed) (hpositive : 0 < c.depth) (hdepth : c.depth ≤ 64)
    (htrimmed : trim value.toList = value.toList) (hvalue : TypeExpr.parse value = some c.expr) :
    reduceRestrictedTypeLevelAliasTextWithFields value fields = some c.textLeaf.render := by
  have hread : String.ofList (trim value.toList) = value := by
    rw [htrimmed, String.ofList_toList]
  apply reduceRestrictedFrom_conditional hclosed hpositive hdepth
  rw [hread, hread]
  exact hvalue

/-- The alias that is written is the type that is checked, exactly where the tests agree. -/
theorem aliasText_checked_iff {shapeOf : String → Option (List ShapeField)} {value : String}
    {subtype supertype : TypeExpr} {thenType elseType : Conditional}
    (hclosed : (Conditional.typeIf subtype supertype thenType elseType).Closed)
    (hbudget : 4 * (Conditional.typeIf subtype supertype thenType elseType).depth
      < defaultTypeLevelStepBudget)
    (htrimmed : trim value.toList = value.toList)
    (hvalue : TypeExpr.parse value
      = some (Conditional.typeIf subtype supertype thenType elseType).expr) :
    (∀ fields out, reduceRestrictedTypeLevelAliasTextWithFields value fields = some out →
      ∃ steps, (evaluateType shapeOf node (lowerTypeTextOrName value)).Yields
        (Answers (Question.body nodes options)) (.ok (.type (lowerTypeTextOrName out), steps)))
      ↔ Agrees nodes options node (.typeIf subtype supertype thenType elseType) := by
  have hbudget' := hbudget
  rw [defaultTypeLevelStepBudget] at hbudget'
  -- the text that is written
  have hreduces : ∀ fields, reduceRestrictedTypeLevelAliasTextWithFields value fields
      = some (Conditional.typeIf subtype supertype thenType elseType).textLeaf.render :=
    fun fields => reducedAliasText hclosed (Nat.succ_pos _) (by omega) htrimmed hvalue
  have hlower : lowerTypeTextOrName value
      = lowerTypeExpr (Conditional.typeIf subtype supertype thenType elseType).expr := by
    rw [lowerTypeTextOrName, lowerTypeText, hvalue]
    rfl
  have htext := lowerTypeTextOrName_render hclosed.textLeaf_isType.1
  rw [agrees_iff]
  constructor
  · intro hchecked
    rcases hchecked [] _ (hreduces []) with ⟨steps, hyields⟩
    rw [hlower, htext, evaluateType, evaluateTypeFrom_yields_iff hclosed hbudget hbudget]
      at hyields
    rcases hyields with ⟨ty, links, hselects, hresult⟩
    have hvalues := congrArg Prod.fst (Except.ok.inj hresult)
    exact ⟨ty, links, hselects, (TypeLevelValue.type.inj hvalues).symm⟩
  · rintro ⟨ty, links, hselects, hsame⟩ fields out hout
    rw [hreduces fields] at hout
    rw [hlower, ← Option.some.inj hout, htext, ← hsame]
    exact ⟨_, (evaluateTypeFrom_yields_iff hclosed hbudget hbudget).2 ⟨ty, links, hselects, rfl⟩⟩

end

/-! ## Two aliases -/

def tupleOf (element : String) : TypeExpr := .generic "tuple" [.name element]

/-- Every object takes a number, and no text is bytes. -/
def decidedAlike : Conditional :=
  .typeIf (.name "int") (.name "object")
    (.typeIf (.name "str") (.name "bytes") (.leaf (.name "int")) (.leaf (tupleOf "str")))
    (.leaf (.name "bytes"))

theorem decidedAlike_closed : decidedAlike.Closed := by
  have hword : ∀ name ∈ ["int", "object", "str", "bytes"], Conditional.IsType (.name name) := by
    decide
  simp only [List.forall_mem_cons] at hword
  obtain ⟨hint, hobject, hstr, hbytes, -⟩ := hword
  exact ⟨hint, hobject, ⟨hstr, hbytes, hint, by decide, by decide⟩, hbytes⟩

theorem decidedAlike_read : TypeExpr.parse
    "TypeIf[IsSubtype[int, object], TypeIf[IsSubtype[str, bytes], int, tuple[str]], bytes]"
    = some decidedAlike.expr := by
  have hrender : decidedAlike.expr.render
      = "TypeIf[IsSubtype[int, object], TypeIf[IsSubtype[str, bytes], int, tuple[str]], bytes]" := by
    decide +kernel
  rw [← hrender]
  exact parse_render decidedAlike_closed.isPlain

theorem decidedAlike_agrees : Agrees [bareModule] {} bareModule decidedAlike := by
  have htext : typeExprIsAssignableText "object" "int" = true := by decide +kernel
  have htext' : typeExprIsAssignableText "bytes" "str" = false := by decide +kernel
  have hinner : Agrees [bareModule] {} bareModule (.typeIf (.name "str") (.name "bytes")
      (.leaf (.name "int")) (.leaf (tupleOf "str"))) := by
    refine ⟨false, ⟨10, by decide +kernel⟩, ?_⟩
    show if false = typeExprIsAssignableText "bytes" "str" then _ else _
    rw [htext']
    trivial
  refine ⟨true, ⟨10, by decide +kernel⟩, ?_⟩
  show if true = typeExprIsAssignableText "object" "int" then _ else _
  rw [htext]
  exact hinner

theorem decidedAlike_checked :
    reduceRestrictedTypeLevelAliasTextWithFields
        "TypeIf[IsSubtype[int, object], TypeIf[IsSubtype[str, bytes], int, tuple[str]], bytes]" []
        = some "tuple[str]"
      ∧ ∃ steps, (evaluateType (fun _ => none) bareModule (lowerTypeTextOrName
          "TypeIf[IsSubtype[int, object], TypeIf[IsSubtype[str, bytes], int, tuple[str]], bytes]")).Yields
          (Answers (Question.body [bareModule] {}))
          (.ok (.type (lowerTypeTextOrName "tuple[str]"), steps)) := by
  have hleaf : decidedAlike.textLeaf.render = "tuple[str]" := by decide +kernel
  have hreduced : reduceRestrictedTypeLevelAliasTextWithFields
      "TypeIf[IsSubtype[int, object], TypeIf[IsSubtype[str, bytes], int, tuple[str]], bytes]" []
      = some "tuple[str]" := by
    rw [← hleaf]
    exact reducedAliasText decidedAlike_closed (by decide) (by decide) (by decide +kernel)
      decidedAlike_read
  exact ⟨hreduced, (aliasText_checked_iff decidedAlike_closed (by decide) (by decide +kernel)
    decidedAlike_read).2 decidedAlike_agrees [] _ hreduced⟩

/-- A tuple of numbers is a tuple of objects to the checker, but not to the rules on texts. -/
theorem tupleAlias_not_checked :
    reduceRestrictedTypeLevelAliasTextWithFields
        "TypeIf[IsSubtype[tuple[int], tuple[object]], str, bytes]" [] = some "bytes"
      ∧ ¬ ∃ steps, (evaluateType (fun _ => none) bareModule (lowerTypeTextOrName
          "TypeIf[IsSubtype[tuple[int], tuple[object]], str, bytes]")).Yields
        (Answers (Question.body [bareModule] {}))
        (.ok (.type (lowerTypeTextOrName "bytes"), steps)) := by
  have hclosed : (Conditional.typeIf (tupleOf "int") (tupleOf "object")
      (.leaf (.name "str")) (.leaf (.name "bytes"))).Closed :=
    ⟨by decide, by decide, (by decide : Conditional.IsType (.name "str")),
      (by decide : Conditional.IsType (.name "bytes"))⟩
  have hleaf : (Conditional.typeIf (tupleOf "int") (tupleOf "object")
      (.leaf (.name "str")) (.leaf (.name "bytes"))).textLeaf.render = "bytes" := by
    decide +kernel
  have hrender : (Conditional.typeIf (tupleOf "int") (tupleOf "object")
      (.leaf (.name "str")) (.leaf (.name "bytes"))).expr.render
        = "TypeIf[IsSubtype[tuple[int], tuple[object]], str, bytes]" := by
    decide +kernel
  have hread := parse_render hclosed.isPlain
  have hlower := lowerTypeTextOrName_render hclosed.isPlain
  rw [hrender] at hread hlower
  have hreduced := @reducedAliasText [] _ _ hclosed (by decide) (by decide) (by decide +kernel) hread
  rw [hleaf] at hreduced
  refine ⟨hreduced, ?_⟩
  rintro ⟨steps, hyields⟩
  have hbytes : lowerTypeTextOrName "bytes" = .name "bytes" := by decide
  rw [hlower, hbytes, evaluateType, evaluateTypeFrom_yields_iff hclosed (by decide) (by decide)]
    at hyields
  rcases hyields with ⟨ty, links, hselects, hresult⟩
  rcases selects_typeIf_iff.1 hselects with ⟨holds, rest, -, htest, hleaf⟩
  have htrue : IsAssignable [bareModule] {} bareModule (lowerTypeExpr (tupleOf "object"))
      (lowerTypeExpr (tupleOf "int")) true := ⟨10, by decide +kernel⟩
  cases htest.unique htrue
  cases hleaf
  have hvalues := congrArg Prod.fst (Except.ok.inj hresult)
  have hname := SemanticType.name.inj (TypeLevelValue.type.inj hvalues)
  exact absurd hname (by decide)

end TypePython.Checking
