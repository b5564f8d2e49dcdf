import Mathlib.Data.List.Infix
import TypePython.Syntax.RoundTrip

/-!
# Types only the checker knows

`unknown`, `dynamic`, `Tainted[…]` and `ValidatorWitness[…]` have no meaning to Python. What is
published names `object`, `Any`, the wrapped type and `bool` in their places.
-/

namespace TypePython.Syntax

open TypePython.Lib.Text

/-! ## The rewriting -/

mutual

def TypeExpr.normalizeCheckerOnly : TypeExpr → TypeExpr
  | .name name =>
    if name = "unknown" then .name "object"
    else if name = "dynamic" then .name "Any"
    else .name name
  | .generic head args =>
    if head = "Tainted" then (normalizeCheckerOnlyAll args).headD (.generic head [])
    else if head = "ValidatorWitness" then .name "bool"
    else .generic head (normalizeCheckerOnlyAll args)
  | .callable params returnType =>
    .callable params.normalizeCheckerOnly returnType.normalizeCheckerOnly
  | .union branches style => .union (normalizeCheckerOnlyAll branches) style
  | .annotated value metadata => .annotated value.normalizeCheckerOnly metadata
  | .unpack inner => .unpack inner.normalizeCheckerOnly

def CallableParamExpr.normalizeCheckerOnly : CallableParamExpr → CallableParamExpr
  | .ellipsis => .ellipsis
  | .paramList types => .paramList (normalizeCheckerOnlyAll types)
  | .concatenate types => .concatenate (normalizeCheckerOnlyAll types)
  | .single expr => .single expr.normalizeCheckerOnly

def normalizeCheckerOnlyAll : List TypeExpr → List TypeExpr
  | [] => []
  | expr :: rest => expr.normalizeCheckerOnly :: normalizeCheckerOnlyAll rest

end

/-- The new text of a type, when it is another one than its canonical text. -/
def normalizeCheckerOnlyTypeText (text : String) : Option String :=
  (TypeExpr.parse (String.ofList (trim text.toList))).bind fun expr =>
    let rendered := expr.normalizeCheckerOnly.render
    if rendered ≠ normalizeTypeText text then some rendered else none

/-! ## What is to be published -/

mutual

/-- Whether a type names one of the checker's own. -/
def TypeExpr.mentionsCheckerOnly : TypeExpr → Bool
  | .name name => name ∈ ["unknown", "dynamic"]
  | .generic head args =>
    head ∈ ["unknown", "dynamic", "Tainted", "ValidatorWitness"] || anyMentionsCheckerOnly args
  | .callable params returnType =>
    params.mentionsCheckerOnly || returnType.mentionsCheckerOnly
  | .union branches _ => anyMentionsCheckerOnly branches
  | .annotated value _ => value.mentionsCheckerOnly
  | .unpack inner => inner.mentionsCheckerOnly

def CallableParamExpr.mentionsCheckerOnly : CallableParamExpr → Bool
  | .ellipsis => false
  | .paramList types => anyMentionsCheckerOnly types
  | .concatenate types => anyMentionsCheckerOnly types
  | .single expr => expr.mentionsCheckerOnly

def anyMentionsCheckerOnly : List TypeExpr → Bool
  | [] => false
  | expr :: rest => expr.mentionsCheckerOnly || anyMentionsCheckerOnly rest

end

/-- The types a union written with bars has in the place of one of its branches. -/
def TypeExpr.alternatives : TypeExpr → List TypeExpr
  | .union (branch :: rest) .shorthand => branch :: rest
  | expr => [expr]

mutual

/-- The type in Python's terms. A union in the place of a branch of a union is no union of its
own: `Tainted[A | B] | C` is `A | B | C`. -/
def TypeExpr.published : TypeExpr → TypeExpr
  | .name name =>
    .name (if name = "unknown" then "object" else if name = "dynamic" then "Any" else name)
  | .generic head args =>
    if head = "ValidatorWitness" then .name "bool"
    else if head = "Tainted" then (publishedAll args).headD (.generic head [])
    else .generic head (publishedAll args)
  | .callable params returnType => .callable params.published returnType.published
  | .union branches .explicit => .union (publishedAll branches) .explicit
  | .union branches .shorthand =>
    .union ((publishedAll branches).flatMap TypeExpr.alternatives) .shorthand
  | .annotated value metadata => .annotated value.published metadata
  | .unpack inner => .unpack inner.published

def CallableParamExpr.published : CallableParamExpr → CallableParamExpr
  | .ellipsis => .ellipsis
  | .paramList types => .paramList (publishedAll types)
  | .concatenate types => .concatenate (publishedAll types)
  | .single expr => .single expr.published

def publishedAll : List TypeExpr → List TypeExpr
  | [] => []
  | expr :: rest => expr.published :: publishedAll rest

end

mutual

/-- Whether a type has the given one among its names. -/
def TypeExpr.names (wanted : String) : TypeExpr → Bool
  | .name name => name = wanted
  | .generic _ args => anyNames wanted args
  | .callable params returnType => params.names wanted || returnType.names wanted
  | .union branches _ => anyNames wanted branches
  | .annotated value _ => value.names wanted
  | .unpack inner => inner.names wanted

def CallableParamExpr.names (wanted : String) : CallableParamExpr → Bool
  | .ellipsis => false
  | .paramList types => anyNames wanted types
  | .concatenate types => anyNames wanted types
  | .single expr => expr.names wanted

def anyNames (wanted : String) : List TypeExpr → Bool
  | [] => false
  | expr :: rest => expr.names wanted || anyNames wanted rest

end

/-! ## What is rewritten -/

mutual

/-- Whether the rewriting finds something to rewrite. -/
def TypeExpr.rewritesCheckerOnly : TypeExpr → Bool
  | .name name => name ∈ ["unknown", "dynamic"]
  | .generic head args =>
    head = "ValidatorWitness" || (head = "Tainted" && args ≠ []) || anyRewritesCheckerOnly args
  | .callable params returnType => params.rewritesCheckerOnly || returnType.rewritesCheckerOnly
  | .union branches _ => anyRewritesCheckerOnly branches
  | .annotated value _ => value.rewritesCheckerOnly
  | .unpack inner => inner.rewritesCheckerOnly

def CallableParamExpr.rewritesCheckerOnly : CallableParamExpr → Bool
  | .ellipsis => false
  | .paramList types => anyRewritesCheckerOnly types
  | .concatenate types => anyRewritesCheckerOnly types
  | .single expr => expr.rewritesCheckerOnly

def anyRewritesCheckerOnly : List TypeExpr → Bool
  | [] => false
  | expr :: rest => expr.rewritesCheckerOnly || anyRewritesCheckerOnly rest

end

mutual

theorem normalizeCheckerOnly_eq : (expr : TypeExpr) → expr.rewritesCheckerOnly = false →
    expr.normalizeCheckerOnly = expr
  | .name name, h => by
    simp only [TypeExpr.rewritesCheckerOnly, decide_eq_false_iff_not, List.mem_cons,
      List.not_mem_nil, or_false, not_or] at h
    rw [TypeExpr.normalizeCheckerOnly, if_neg h.1, if_neg h.2]
  | .generic head args, h => by
    simp only [TypeExpr.rewritesCheckerOnly, Bool.or_eq_false_iff, decide_eq_false_iff_not,
      Bool.and_eq_false_iff, not_not] at h
    rw [TypeExpr.normalizeCheckerOnly]
    split
    · next htainted =>
        have hargs : args = [] := h.1.2.resolve_left fun hne => hne htainted
        rw [hargs]
        rfl
    · rw [if_neg h.1.1, normalizeCheckerOnlyAll_eq args h.2]
  | .callable params returnType, h => by
    rw [TypeExpr.rewritesCheckerOnly, Bool.or_eq_false_iff] at h
    rw [TypeExpr.normalizeCheckerOnly, normalizeCheckerOnlyParams_eq params h.1,
      normalizeCheckerOnly_eq returnType h.2]
  | .union branches style, h => by
    rw [TypeExpr.rewritesCheckerOnly] at h
    rw [TypeExpr.normalizeCheckerOnly, normalizeCheckerOnlyAll_eq branches h]
  | .annotated value metadata, h => by
    rw [TypeExpr.rewritesCheckerOnly] at h
    rw [TypeExpr.normalizeCheckerOnly, normalizeCheckerOnly_eq value h]
  | .unpack inner, h => by
    rw [TypeExpr.rewritesCheckerOnly] at h
    rw [TypeExpr.normalizeCheckerOnly, normalizeCheckerOnly_eq inner h]

theorem normalizeCheckerOnlyParams_eq : (params : CallableParamExpr) →
    params.rewritesCheckerOnly = false → params.normalizeCheckerOnly = params
  | .ellipsis, _ => rfl
  | .paramList types, h => by
    rw [CallableParamExpr.rewritesCheckerOnly] at h
    rw [CallableParamExpr.normalizeCheckerOnly, normalizeCheckerOnlyAll_eq types h]
  | .concatenate types, h => by
    rw [CallableParamExpr.rewritesCheckerOnly] at h
    rw [CallableParamExpr.normalizeCheckerOnly, normalizeCheckerOnlyAll_eq types h]
  | .single expr, h => by
    rw [CallableParamExpr.rewritesCheckerOnly] at h
    rw [CallableParamExpr.normalizeCheckerOnly, normalizeCheckerOnly_eq expr h]

theorem normalizeCheckerOnlyAll_eq : (exprs : List TypeExpr) →
    anyRewritesCheckerOnly exprs = false → normalizeCheckerOnlyAll exprs = exprs
  | [], _ => rfl
  | expr :: rest, h => by
    rw [anyRewritesCheckerOnly, Bool.or_eq_false_iff] at h
    rw [normalizeCheckerOnlyAll, normalizeCheckerOnly_eq expr h.1,
      normalizeCheckerOnlyAll_eq rest h.2]

end

/-! ## The two rewritings print the same text -/

theorem join_append (sep : String) {xs ys : List String} (hxs : xs ≠ []) (hys : ys ≠ []) :
    join sep (xs ++ ys) = join sep xs ++ sep ++ join sep ys := by
  induction xs with
  | nil => exact absurd rfl hxs
  | cons x rest ih =>
    cases rest with
    | nil =>
      obtain ⟨y, others, rfl⟩ := List.exists_cons_of_ne_nil hys
      rfl
    | cons x' others =>
      have hrest := ih (List.cons_ne_nil x' others)
      simp only [List.cons_append, join] at hrest ⊢
      rw [hrest]
      simp only [String.append_assoc]

theorem alternatives_ne_nil (expr : TypeExpr) : expr.alternatives ≠ [] := by
  unfold TypeExpr.alternatives
  split <;> exact List.cons_ne_nil _ _

theorem render_alternatives (expr : TypeExpr) :
    join " | " (renderAll expr.alternatives) = expr.render := by
  unfold TypeExpr.alternatives
  split
  · rw [TypeExpr.render]
  · rfl

theorem renderAll_append (xs ys : List TypeExpr) :
    renderAll (xs ++ ys) = renderAll xs ++ renderAll ys := by
  rw [renderAll_eq_map, renderAll_eq_map, renderAll_eq_map, List.map_append]

theorem renderAll_ne_nil {exprs : List TypeExpr} (h : exprs ≠ []) : renderAll exprs ≠ [] := by
  rw [renderAll_eq_map]
  exact fun hnil => h (List.map_eq_nil_iff.1 hnil)

/-- Branches of branches are printed like branches. -/
theorem join_alternatives (exprs : List TypeExpr) :
    join " | " (renderAll (exprs.flatMap TypeExpr.alternatives))
      = join " | " (renderAll exprs) := by
  induction exprs with
  | nil => rfl
  | cons expr rest ih =>
    rw [List.flatMap_cons]
    cases rest with
    | nil =>
      rw [List.flatMap_nil, List.append_nil]
      exact render_alternatives expr
    | cons next others =>
      have hrest : (next :: others).flatMap TypeExpr.alternatives ≠ [] := by
        rw [List.flatMap_cons]
        exact List.append_ne_nil_of_left_ne_nil (alternatives_ne_nil next) _
      rw [renderAll_append, join_append " | " (renderAll_ne_nil (alternatives_ne_nil expr))
        (renderAll_ne_nil hrest), ih, render_alternatives]
      rfl

mutual

theorem render_published : (expr : TypeExpr) →
    expr.published.render = expr.normalizeCheckerOnly.render
  | .name name => by
    rw [TypeExpr.published, TypeExpr.normalizeCheckerOnly]
    split
    · rfl
    · split <;> rfl
  | .generic head args => by
    have hargs := renderAll_published args
    rw [TypeExpr.published, TypeExpr.normalizeCheckerOnly]
    by_cases htainted : head = "Tainted"
    · have hwitness : head ≠ "ValidatorWitness" := by
        rw [htainted]
        decide
      rw [if_neg hwitness, if_pos htainted, if_pos htainted]
      cases args with
      | nil => rfl
      | cons wrapped rest => exact render_published wrapped
    · rw [if_neg htainted, if_neg htainted]
      split
      · rfl
      · rw [TypeExpr.render, TypeExpr.render, hargs]
  | .callable params returnType => by
    rw [TypeExpr.published, TypeExpr.normalizeCheckerOnly, TypeExpr.render, TypeExpr.render,
      render_publishedParams params, render_published returnType]
  | .union branches .explicit => by
    rw [TypeExpr.published, TypeExpr.normalizeCheckerOnly, TypeExpr.render, TypeExpr.render,
      renderAll_published branches]
  | .union branches .shorthand => by
    rw [TypeExpr.published, TypeExpr.normalizeCheckerOnly, TypeExpr.render, TypeExpr.render,
      join_alternatives, renderAll_published branches]
  | .annotated value metadata => by
    rw [TypeExpr.published, TypeExpr.normalizeCheckerOnly, TypeExpr.render, TypeExpr.render,
      render_published value]
  | .unpack inner => by
    rw [TypeExpr.published, TypeExpr.normalizeCheckerOnly, TypeExpr.render, TypeExpr.render,
      render_published inner]

theorem render_publishedParams : (params : CallableParamExpr) →
    params.published.render = params.normalizeCheckerOnly.render
  | .ellipsis => rfl
  | .paramList types => by
    rw [CallableParamExpr.published, CallableParamExpr.normalizeCheckerOnly,
      CallableParamExpr.render, CallableParamExpr.render, renderAll_published types]
  | .concatenate types => by
    rw [CallableParamExpr.published, CallableParamExpr.normalizeCheckerOnly,
      CallableParamExpr.render, CallableParamExpr.render, renderAll_published types]
  | .single expr => by
    rw [CallableParamExpr.published, CallableParamExpr.normalizeCheckerOnly,
      CallableParamExpr.render, CallableParamExpr.render, render_published expr]

theorem renderAll_published : (exprs : List TypeExpr) →
    renderAll (publishedAll exprs) = renderAll (normalizeCheckerOnlyAll exprs)
  | [] => rfl
  | expr :: rest => by
    rw [publishedAll, normalizeCheckerOnlyAll, renderAll, renderAll, render_published expr,
      renderAll_published rest]

end

/-! ## Where nothing is rewritten -/

theorem anyMentions_append (xs ys : List TypeExpr) :
    anyMentionsCheckerOnly (xs ++ ys)
      = (anyMentionsCheckerOnly xs || anyMentionsCheckerOnly ys) := by
  induction xs with
  | nil => rfl
  | cons expr rest ih =>
    rw [List.cons_append, anyMentionsCheckerOnly, anyMentionsCheckerOnly, ih, Bool.or_assoc]

theorem anyMentions_alternatives (expr : TypeExpr) :
    anyMentionsCheckerOnly expr.alternatives = expr.mentionsCheckerOnly := by
  unfold TypeExpr.alternatives
  split
  · rw [TypeExpr.mentionsCheckerOnly]
  · rw [anyMentionsCheckerOnly, anyMentionsCheckerOnly, Bool.or_false]

theorem anyMentions_flatMap_alternatives (exprs : List TypeExpr) :
    anyMentionsCheckerOnly (exprs.flatMap TypeExpr.alternatives)
      = anyMentionsCheckerOnly exprs := by
  induction exprs with
  | nil => rfl
  | cons expr rest ih =>
    rw [List.flatMap_cons, anyMentions_append, ih, anyMentions_alternatives,
      anyMentionsCheckerOnly]

mutual

/-- Where there is nothing to rewrite, what is published mentions what it was made from. -/
theorem mentions_published : (expr : TypeExpr) → expr.rewritesCheckerOnly = false →
    expr.published.mentionsCheckerOnly = expr.mentionsCheckerOnly
  | .name name, h => by
    simp only [TypeExpr.rewritesCheckerOnly, decide_eq_false_iff_not, List.mem_cons,
      List.not_mem_nil, or_false, not_or] at h
    rw [TypeExpr.published, if_neg h.1, if_neg h.2]
  | .generic head args, h => by
    simp only [TypeExpr.rewritesCheckerOnly, Bool.or_eq_false_iff, decide_eq_false_iff_not,
      Bool.and_eq_false_iff, not_not] at h
    rw [TypeExpr.published, if_neg h.1.1]
    split
    · next htainted =>
        have hargs : args = [] := h.1.2.resolve_left fun hne => hne htainted
        rw [hargs]
        rfl
    · rw [TypeExpr.mentionsCheckerOnly, TypeExpr.mentionsCheckerOnly,
        anyMentions_published args h.2]
  | .callable params returnType, h => by
    rw [TypeExpr.rewritesCheckerOnly, Bool.or_eq_false_iff] at h
    rw [TypeExpr.published, TypeExpr.mentionsCheckerOnly, TypeExpr.mentionsCheckerOnly,
      mentions_publishedParams params h.1, mentions_published returnType h.2]
  | .union branches .explicit, h => by
    rw [TypeExpr.rewritesCheckerOnly] at h
    rw [TypeExpr.published, TypeExpr.mentionsCheckerOnly, TypeExpr.mentionsCheckerOnly,
      anyMentions_published branches h]
  | .union branches .shorthand, h => by
    rw [TypeExpr.rewritesCheckerOnly] at h
    rw [TypeExpr.published, TypeExpr.mentionsCheckerOnly, TypeExpr.mentionsCheckerOnly,
      anyMentions_flatMap_alternatives, anyMentions_published branches h]
  | .annotated value metadata, h => by
    rw [TypeExpr.rewritesCheckerOnly] at h
    rw [TypeExpr.published, TypeExpr.mentionsCheckerOnly, TypeExpr.mentionsCheckerOnly,
      mentions_published value h]
  | .unpack inner, h => by
    rw [TypeExpr.rewritesCheckerOnly] at h
    rw [TypeExpr.published, TypeExpr.mentionsCheckerOnly, TypeExpr.mentionsCheckerOnly,
      mentions_published inner h]

theorem mentions_publishedParams : (params : CallableParamExpr) →
    params.rewritesCheckerOnly = false →
      params.published.mentionsCheckerOnly = params.mentionsCheckerOnly
  | .ellipsis, _ => rfl
  | .paramList types, h => by
    rw [CallableParamExpr.rewritesCheckerOnly] at h
    rw [CallableParamExpr.published, CallableParamExpr.mentionsCheckerOnly,
      CallableParamExpr.mentionsCheckerOnly, anyMentions_published types h]
  | .concatenate types, h => by
    rw [CallableParamExpr.rewritesCheckerOnly] at h
    rw [CallableParamExpr.published, CallableParamExpr.mentionsCheckerOnly,
      CallableParamExpr.mentionsCheckerOnly, anyMentions_published types h]
  | .single expr, h => by
    rw [CallableParamExpr.rewritesCheckerOnly] at h
    rw [CallableParamExpr.published, CallableParamExpr.mentionsCheckerOnly,
      CallableParamExpr.mentionsCheckerOnly, mentions_published expr h]

theorem anyMentions_published : (exprs : List TypeExpr) → anyRewritesCheckerOnly exprs = false →
    anyMentionsCheckerOnly (publishedAll exprs) = anyMentionsCheckerOnly exprs
  | [], _ => rfl
  | expr :: rest, h => by
    rw [anyRewritesCheckerOnly, Bool.or_eq_false_iff] at h
    rw [publishedAll, anyMentionsCheckerOnly, anyMentionsCheckerOnly,
      mentions_published expr h.1, anyMentions_published rest h.2]

end

/-! ## Names in printed texts -/

theorem infix_join {sep : String} {texts : List String} {text : String} (h : text ∈ texts) :
    text.toList <:+: (join sep texts).toList := by
  induction texts with
  | nil => cases h
  | cons first rest ih =>
    cases rest with
    | nil =>
      rw [List.mem_singleton.1 h]
      exact List.infix_refl _
    | cons next others =>
      rw [join, String.toList_append, String.toList_append]
      rcases List.mem_cons.1 h with rfl | hrest
      · rw [List.append_assoc]
        exact (List.prefix_append _ _).isInfix
      · exact (ih hrest).trans (List.suffix_append _ _).isInfix

theorem infix_brackets (head inner : String) :
    inner.toList <:+: (head ++ "[" ++ inner ++ "]").toList := by
  rw [String.toList_append, String.toList_append]
  exact (List.suffix_append _ _).isInfix.trans (List.prefix_append _ _).isInfix

theorem infix_arguments {head : String} {texts : List String} {text : String} (h : text ∈ texts) :
    text.toList <:+: (head ++ "[" ++ join ", " texts ++ "]").toList :=
  (infix_join h).trans (infix_brackets head _)

mutual

/-- A name of a type stands in its printed text. -/
theorem infix_render_of_names {wanted : String}
    (hwanted : normalizeName wanted.toList = wanted.toList) :
    (expr : TypeExpr) → expr.names wanted = true → wanted.toList <:+: expr.render.toList
  | .name name, h => by
    rw [TypeExpr.names, decide_eq_true_eq] at h
    rw [TypeExpr.render, h, hwanted, String.toList_ofList]
  | .generic head args, h => by
    rw [TypeExpr.names] at h
    obtain ⟨text, htext, hinfix⟩ := infix_renderAll_of_names hwanted args h
    rw [TypeExpr.render]
    exact hinfix.trans (infix_arguments htext)
  | .callable params returnType, h => by
    rw [TypeExpr.names, Bool.or_eq_true] at h
    rw [render_callable]
    rcases h with hparams | hreturn
    · exact (infix_renderParams_of_names hwanted params hparams).trans (infix_arguments (by simp))
    · exact (infix_render_of_names hwanted returnType hreturn).trans (infix_arguments (by simp))
  | .union branches .explicit, h => by
    rw [TypeExpr.names] at h
    obtain ⟨text, htext, hinfix⟩ := infix_renderAll_of_names hwanted branches h
    rw [render_union_explicit]
    exact hinfix.trans (infix_arguments htext)
  | .union branches .shorthand, h => by
    rw [TypeExpr.names] at h
    obtain ⟨text, htext, hinfix⟩ := infix_renderAll_of_names hwanted branches h
    rw [TypeExpr.render]
    exact hinfix.trans (infix_join htext)
  | .annotated value metadata, h => by
    rw [TypeExpr.names] at h
    rw [render_annotated]
    exact (infix_render_of_names hwanted value h).trans (infix_arguments List.mem_cons_self)
  | .unpack inner, h => by
    rw [TypeExpr.names] at h
    rw [render_unpack]
    exact (infix_render_of_names hwanted inner h).trans (infix_brackets _ _)

theorem infix_renderParams_of_names {wanted : String}
    (hwanted : normalizeName wanted.toList = wanted.toList) :
    (params : CallableParamExpr) → params.names wanted = true →
      wanted.toList <:+: params.render.toList
  | .ellipsis, h => by cases h
  | .paramList types, h => by
    rw [CallableParamExpr.names] at h
    obtain ⟨text, htext, hinfix⟩ := infix_renderAll_of_names hwanted types h
    rw [render_paramList]
    exact hinfix.trans (infix_arguments htext)
  | .concatenate types, h => by
    rw [CallableParamExpr.names] at h
    obtain ⟨text, htext, hinfix⟩ := infix_renderAll_of_names hwanted types h
    have hshape : (CallableParamExpr.concatenate types).render
        = "Concatenate" ++ "[" ++ join ", " (renderAll types) ++ "]" := by
      rw [CallableParamExpr.render, ← String.toList_inj]
      simp
    rw [hshape]
    exact hinfix.trans (infix_arguments htext)
  | .single expr, h => by
    rw [CallableParamExpr.names] at h
    rw [CallableParamExpr.render]
    exact infix_render_of_names hwanted expr h

theorem infix_renderAll_of_names {wanted : String}
    (hwanted : normalizeName wanted.toList = wanted.toList) :
    (exprs : List TypeExpr) → anyNames wanted exprs = true →
      ∃ text ∈ renderAll exprs, wanted.toList <:+: text.toList
  | [], h => by cases h
  | expr :: rest, h => by
    rw [anyNames, Bool.or_eq_true] at h
    rw [renderAll]
    rcases h with hexpr | hrest
    · exact ⟨_, List.mem_cons_self, infix_render_of_names hwanted expr hexpr⟩
    · obtain ⟨text, htext, hinfix⟩ := infix_renderAll_of_names hwanted rest hrest
      exact ⟨text, List.mem_cons_of_mem _ htext, hinfix⟩

end

theorem occursIn_of_infix {p text : Chars} (h : p <:+: text) : occursIn p text = true := by
  obtain ⟨before, after, rfl⟩ := h
  rw [occursIn, List.any_eq_true]
  refine ⟨p ++ after, ?_, ?_⟩
  · rw [List.mem_tails, List.append_assoc]
    exact List.suffix_append before _
  · rw [List.isPrefixOf_iff_prefix]
    exact List.prefix_append p after

end TypePython.Syntax
