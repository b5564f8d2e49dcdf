import TypePython.Syntax.Tokens
import Mathlib.Data.List.Forall2

/-!
# Parsing and rendering

Parsing a type text and rendering the expression keeps the significant tokens of the text, as
long as no string literal holds a character the parser cuts or rewrites at
(`survivesParsing_of_clean`).
-/

namespace TypePython.Syntax

open TypePython.Lib.Text

/-! ## Splitting and joining -/

/-- The parts with the delimiter between them. -/
def joinChars (delim : Char) : List Chars → Chars
  | [] => []
  | [part] => part
  | part :: part' :: rest => part ++ delim :: joinChars delim (part' :: rest)

def joinTokens (delim : Char) : List (List Token) → List Token
  | [] => []
  | [ts] => ts
  | ts :: ts' :: rest => ts ++ .punct delim :: joinTokens delim (ts' :: rest)

theorem splitTopLevel_ne_nil (b : Brackets) (delim : Char) (depth : Nat) (text : Chars) :
    splitTopLevel b delim depth text ≠ [] := by
  cases text with
  | nil => simp [splitTopLevel]
  | cons c rest =>
    rw [splitTopLevel]
    split
    · simp
    · unfold consFirst
      split <;> simp

variable {parts : List Chars}

theorem joinChars_consFirst (delim c : Char) (h : parts ≠ []) :
    joinChars delim (consFirst c parts) = c :: joinChars delim parts := by
  cases parts with
  | nil => exact absurd rfl h
  | cons part rest => cases rest <;> rfl

/-- Splitting loses nothing, at whatever depth it splits. -/
theorem joinChars_splitTopLevel (b : Brackets) (delim : Char) (depth : Nat) (text : Chars) :
    joinChars delim (splitTopLevel b delim depth text) = text := by
  induction text generalizing depth with
  | nil => rfl
  | cons c rest ih =>
    rw [splitTopLevel]
    split
    · next h =>
        have hne := splitTopLevel_ne_nil b delim 0 rest
        rw [h.1]
        cases hparts : splitTopLevel b delim 0 rest with
        | nil => exact absurd hparts hne
        | cons part parts =>
          rw [joinChars, ← hparts, ih]
          rfl
    · rw [joinChars_consFirst _ _ (splitTopLevel_ne_nil b delim _ rest), ih]

variable {delim : Char}

/-- The parts of a clean text are clean, and their tokens are those of the text. -/
theorem tokens_joinChars (hdelim : isCut delim = true) : ∀ {parts : List Chars},
    clean (joinChars delim parts) = true →
      (∀ part ∈ parts, clean part = true)
        ∧ tokens (joinChars delim parts) = joinTokens delim (parts.map tokens)
  | [], _ => ⟨by simp, rfl⟩
  | [part], h => ⟨fun _ hpart => List.mem_singleton.1 hpart ▸ h, rfl⟩
  | part :: part' :: rest, h => by
    obtain ⟨hpart, hrest⟩ := cleanFrom_cut hdelim h
    obtain ⟨hclean, htokens⟩ := tokens_joinChars hdelim hrest
    refine ⟨List.forall_mem_cons.2 ⟨hpart, hclean⟩, ?_⟩
    have hglue := (tokensFrom_glue (isCut_isPunct hdelim) hpart hrest).2
    exact hglue.trans (by rw [htokens]; rfl)

theorem sameTokens_joinTokens (delim : Char) {tss tss' : List (List Token)}
    (h : List.Forall₂ SameTokens tss tss') :
    SameTokens (joinTokens delim tss) (joinTokens delim tss') := by
  induction h with
  | nil => exact .refl []
  | cons hhead htail ih =>
    cases htail with
    | nil => exact hhead
    | cons => exact hhead.append (.cons _ ih)

/-- An empty last part says nothing before a closing bracket. -/
theorem sameTokens_trailingPart : ∀ tss : List (List Token),
    SameTokens (joinTokens ',' tss ++ [.punct ']']) (joinTokens ',' (tss ++ [[]]) ++ [.punct ']'])
  | [] => .refl _
  | [ts] => by
    have h := (SameTokens.refl ts).append sameTokens_trailing.symm
    simpa [joinTokens] using h
  | ts :: ts' :: rest => by
    have h := (SameTokens.refl ts).append
      ((sameTokens_trailingPart (ts' :: rest)).cons (.punct ','))
    simpa [joinTokens] using h

/-- The text between two parts is a delimiter, with or without spaces. -/
def Separates (sep : String) (delim : Char) : Prop :=
  ∀ a b : Chars, clean a = true → clean b = true →
    clean (a ++ sep.toList ++ b) = true
      ∧ tokens (a ++ sep.toList ++ b) = tokens a ++ .punct delim :: tokens b

theorem separates_comma : Separates ", " ',' := by
  intro a b ha hb
  obtain ⟨htokens, hclean⟩ := tokens_space (c := ' ') (by decide) b
  obtain ⟨hglue, hglueTokens⟩ := tokensFrom_glue (c := ',') (by decide) ha (hclean.trans hb)
  have heq : a ++ ", ".toList ++ b = a ++ ',' :: ' ' :: b := by simp
  rw [heq]
  exact ⟨hglue, hglueTokens.trans (by rw [htokens]; rfl)⟩

theorem separates_bar : Separates " | " '|' := by
  intro a b ha hb
  obtain ⟨htokens, hclean⟩ := tokens_space (c := ' ') (by decide) b
  obtain ⟨haTokens, haClean⟩ := tokensFrom_append_space (c := ' ') (by decide) ha
  obtain ⟨hglue, hglueTokens⟩ := tokensFrom_glue (c := '|') (by decide) haClean (hclean.trans hb)
  have heq : a ++ " | ".toList ++ b = (a ++ [' ']) ++ '|' :: ' ' :: b := by simp
  rw [heq]
  exact ⟨hglue, hglueTokens.trans (by rw [htokens, haTokens]; rfl)⟩

/-- The tokens of joined clean texts. -/
theorem tokens_join {sep : String} (hsep : Separates sep delim) :
    ∀ {texts : List String}, (∀ text ∈ texts, clean text.toList = true) →
      clean (join sep texts).toList = true
        ∧ tokens (join sep texts).toList = joinTokens delim (texts.map fun text => tokens text.toList)
  | [], _ => by simp [join, joinTokens, clean, cleanFrom, tokens, tokensFrom, Mode.finish,
      Mode.isOutside, flush]
  | [text], h => ⟨h text List.mem_cons_self, rfl⟩
  | text :: text' :: rest, h => by
    obtain ⟨htext, hrest⟩ := List.forall_mem_cons.1 h
    obtain ⟨hclean, htokens⟩ := tokens_join hsep hrest
    obtain ⟨hglue, hglueTokens⟩ := hsep _ _ htext hclean
    rw [join, String.toList_append, String.toList_append]
    exact ⟨hglue, hglueTokens.trans (by rw [htokens]; rfl)⟩

/-- A text in brackets behind a head. -/
theorem tokens_subscript {head inner : Chars} (hhead : clean head = true)
    (hinner : clean inner = true) :
    clean (head ++ '[' :: (inner ++ [']'])) = true
      ∧ tokens (head ++ '[' :: (inner ++ [']']))
        = tokens head ++ .punct '[' :: (tokens inner ++ [.punct ']']) := by
  obtain ⟨hclose, hcloseTokens⟩ := tokensFrom_glue (c := ']') (by decide) hinner
    (show clean [] = true from rfl)
  obtain ⟨hopen, hopenTokens⟩ := tokensFrom_glue (c := '[') (by decide) hhead hclose
  refine ⟨hopen, hopenTokens.trans ?_⟩
  rw [show tokens (inner ++ [']']) = tokens inner ++ .punct ']' :: tokens [] from hcloseTokens]
  rfl

/-- Opening a clean text in brackets. -/
theorem clean_subscript {head inner : Chars} (h : clean (head ++ '[' :: (inner ++ [']'])) = true) :
    clean head = true ∧ clean inner = true := by
  obtain ⟨hhead, hrest⟩ := cleanFrom_cut (c := '[') (by decide) h
  exact ⟨hhead, cleanFrom_of_append_last (by decide) hrest⟩

/-! ## Arguments -/

variable {text : Chars}

theorem splitOnce_eq {c : Char} {before after : Chars}
    (h : splitOnce c text = some (before, after)) : text = before ++ c :: after := by
  induction text generalizing before with
  | nil => simp [splitOnce] at h
  | cons x rest ih =>
    rw [splitOnce] at h
    split at h
    · next hx =>
        obtain ⟨rfl, rfl⟩ : [] = before ∧ rest = after := by simpa using h
        rw [hx]
        rfl
    · cases hrest : splitOnce c rest with
      | none => simp [hrest] at h
      | some pair =>
        obtain ⟨before', after'⟩ := pair
        obtain ⟨rfl, rfl⟩ : x :: before' = before ∧ after' = after := by simpa [hrest] using h
        rw [ih hrest]
        rfl

theorem eq_of_subscriptOf {head : String} {inner : Chars} (h : subscriptOf head text = some inner) :
    text = head.toList ++ '[' :: (inner ++ [']']) := by
  rw [subscriptOf, Option.bind_eq_some_iff] at h
  obtain ⟨rest, hhead, hclose⟩ := h
  rw [eq_of_stripPrefix hhead, eq_of_stripSuffix hclose, List.append_assoc, List.singleton_append]

theorem eq_of_subscriptParts {head inner : Chars} (h : subscriptParts text = some (head, inner)) :
    text = head ++ '[' :: (inner ++ [']']) := by
  rw [subscriptParts, Option.bind_eq_some_iff] at h
  obtain ⟨⟨head', rest⟩, hsplit, hclose⟩ := h
  obtain ⟨inner', hinner, heq⟩ := Option.map_eq_some_iff.1 hclose
  obtain ⟨rfl, rfl⟩ : head' = head ∧ inner' = inner := by simpa using heq
  rw [splitOnce_eq hsplit, eq_of_stripSuffix hinner]

/-- The parts of trimmed texts. -/
theorem tokens_map_trim (h : ∀ part ∈ parts, clean part = true) :
    (∀ part ∈ parts.map trim, clean part = true)
      ∧ (parts.map trim).map tokens = parts.map tokens := by
  constructor
  · intro part hpart
    obtain ⟨part', hpart', rfl⟩ := List.mem_map.1 hpart
    exact (tokens_trim (h part' hpart')).2
  · rw [List.map_map]
    exact List.map_congr_left fun part hpart => (tokens_trim (h part hpart)).1

theorem splitTopLevelUnionBranches_spec (h : clean text = true) :
    (∀ part ∈ splitTopLevelUnionBranches text, clean part = true)
      ∧ joinTokens '|' ((splitTopLevelUnionBranches text).map tokens) = tokens text := by
  have hjoin := joinChars_splitTopLevel unionBrackets '|' 0 text
  have hcut : isCut '|' = true := by decide
  obtain ⟨hparts, htokens⟩ := tokens_joinChars hcut (hjoin ▸ h)
  obtain ⟨htrim, htrimTokens⟩ := tokens_map_trim hparts
  refine ⟨htrim, ?_⟩
  rw [splitTopLevelUnionBranches, htrimTokens, ← htokens, hjoin]

/-- The arguments of a list in brackets; a trailing comma is dropped. -/
theorem splitTopLevelTypeArgs_spec {args : Chars} (h : clean args = true) :
    (∀ part ∈ splitTopLevelTypeArgs args, clean part = true)
      ∧ SameTokens (joinTokens ',' ((splitTopLevelTypeArgs args).map tokens) ++ [.punct ']'])
        (tokens args ++ [.punct ']']) := by
  have hjoin := joinChars_splitTopLevel argBrackets ',' 0 args
  have hcut : isCut ',' = true := by decide
  obtain ⟨hparts, htokens⟩ := tokens_joinChars hcut (hjoin ▸ h)
  obtain ⟨htrim, htrimTokens⟩ := tokens_map_trim hparts
  rw [hjoin, ← htrimTokens] at htokens
  unfold splitTopLevelTypeArgs
  rw [htokens]
  generalize (splitTopLevel argBrackets ',' 0 args).map trim = parts at *
  dsimp only
  split
  · next hlast =>
      refine ⟨fun part hpart => htrim part (List.dropLast_subset parts hpart), ?_⟩
      obtain ⟨init, rfl⟩ : ∃ init, parts = init ++ [[]] :=
        ⟨parts.dropLast, (List.dropLast_append_getLast? [] hlast).symm⟩
      rw [List.dropLast_concat, List.map_append]
      exact sameTokens_trailingPart (init.map tokens)
  · exact ⟨htrim, .refl _⟩

/-! ## Keeping the tokens -/

/-- The rendered text is clean and has the significant tokens of the text it stands for. -/
def Keeps (rendered : String) (text : Chars) : Prop :=
  clean rendered.toList = true ∧ SameTokens (tokens rendered.toList) (tokens text)

theorem Keeps.trans {rendered : String} {text' : Chars} (h : Keeps rendered text)
    (h' : SameTokens (tokens text) (tokens text')) : Keeps rendered text' :=
  ⟨h.1, h.2.trans h'⟩

theorem keeps_normalizeName (h : clean text = true) :
    Keeps (String.ofList (normalizeName text)) text := by
  obtain ⟨hsame, hclean⟩ := sameTokens_normalizeName h
  rw [Keeps, String.toList_ofList]
  exact ⟨hclean, hsame⟩

theorem keeps_normalizeTypeHead {head : Chars} (h : clean head = true) :
    Keeps (String.ofList (normalizeTypeHead head)) head := by
  obtain ⟨hsame, hclean⟩ := sameTokens_normalizeTypeHead h
  rw [Keeps, String.toList_ofList]
  exact ⟨hclean, hsame⟩

/-- Joined texts keep the tokens of the joined parts. -/
theorem keeps_join {sep : String} (hsep : Separates sep delim) {texts : List String}
    (h : List.Forall₂ Keeps texts parts) : clean (join sep texts).toList = true
      ∧ SameTokens (tokens (join sep texts).toList) (joinTokens delim (parts.map tokens)) := by
  have hclean : ∀ text ∈ texts, clean text.toList = true := by
    induction h with
    | nil => simp
    | cons hhead _ ih => exact List.forall_mem_cons.2 ⟨hhead.1, ih⟩
  obtain ⟨hjoin, htokens⟩ := tokens_join hsep hclean
  refine ⟨hjoin, ?_⟩
  rw [htokens]
  refine sameTokens_joinTokens delim (List.forall₂_map_left_iff.2 (List.forall₂_map_right_iff.2 ?_))
  exact h.imp fun _ _ hkeeps => hkeeps.2

/-- A text in brackets keeps its tokens when its head and what is inside do. -/
theorem keeps_subscript {head inner : String} {text inside : Chars} (hhead : Keeps head text)
    (hclean : clean inner.toList = true)
    (hinner : SameTokens (tokens inner.toList ++ [.punct ']']) (tokens inside ++ [.punct ']']))
    (hinside : clean inside = true) (htext : clean text = true) :
    Keeps (head ++ "[" ++ inner ++ "]") (text ++ '[' :: (inside ++ [']'])) := by
  have hrendered : (head ++ "[" ++ inner ++ "]").toList
      = head.toList ++ '[' :: (inner.toList ++ [']']) := by
    simp
  obtain ⟨hcleanAll, htokens⟩ := tokens_subscript hhead.1 hclean
  rw [Keeps, hrendered, htokens, (tokens_subscript htext hinside).2]
  exact ⟨hcleanAll, hhead.2.append (hinner.cons _)⟩

/-- Rendered arguments in brackets keep the tokens of the text they were split from. -/
theorem keeps_arguments {head : String} {texts : List String} {inside : Chars}
    (hhead : Keeps head text) (htext : clean text = true) (hinside : clean inside = true)
    (htexts : List.Forall₂ Keeps texts (splitTopLevelTypeArgs inside)) :
    Keeps (head ++ "[" ++ join ", " texts ++ "]") (text ++ '[' :: (inside ++ [']'])) := by
  obtain ⟨hclean, hjoin⟩ := keeps_join separates_comma htexts
  exact keeps_subscript hhead hclean
    ((hjoin.append (.refl _)).trans (splitTopLevelTypeArgs_spec hinside).2) hinside htext

theorem keeps_literal {head : String} (h : clean head.toList = true) : Keeps head head.toList :=
  ⟨h, .refl _⟩

theorem keeps_normalizeTypeTextLegacyFrom (fuel : Nat) : ∀ {text : Chars}, clean text = true →
    Keeps (normalizeTypeTextLegacyFrom fuel text) text := by
  induction fuel with
  | zero =>
    intro text h
    obtain ⟨hsame, hclean⟩ := sameTokens_normalizeName h
    exact (keeps_normalizeTypeHead hclean).trans hsame
  | succ fuel ih =>
    intro text h
    obtain ⟨hsame, hclean⟩ := sameTokens_normalizeName h
    refine Keeps.trans ?_ hsame
    rw [normalizeTypeTextLegacyFrom]
    split
    · next hempty =>
        rw [hempty]
        exact keeps_literal (by decide)
    · split
      · next head args hparts =>
          have heq := eq_of_subscriptParts hparts
          obtain ⟨hhead, hargs⟩ := clean_subscript (heq ▸ hclean)
          rw [heq]
          refine keeps_arguments (keeps_normalizeTypeHead hhead) hhead hargs ?_
          rw [List.forall₂_map_left_iff, List.forall₂_same]
          exact fun part hpart => ih ((splitTopLevelTypeArgs_spec hargs).1 part hpart)
      · exact keeps_normalizeTypeHead hclean

theorem keeps_normalizeTypeTextLegacy (h : clean text = true) :
    Keeps (normalizeTypeTextLegacy text) text :=
  keeps_normalizeTypeTextLegacyFrom _ h

/-! ## Parsing a clean text -/

theorem renderAll_eq_map (exprs : List TypeExpr) : renderAll exprs = exprs.map TypeExpr.render := by
  induction exprs with
  | nil => rfl
  | cons expr rest ih => rw [renderAll, ih, List.map_cons]

/-- What is parsed, or taken as a name where parsing fails, keeps the tokens of its part. -/
theorem keeps_parts {fuel : Nat} (hparts : ∀ part ∈ parts, clean part = true)
    (hparse : ∀ text expr, clean text = true → parseTypeExpr fuel text = some expr →
      Keeps expr.render text) : List.Forall₂ Keeps (renderAll (parts.map fun part =>
      (parseTypeExpr fuel part).getD (.name (String.ofList (normalizeName part))))) parts := by
  rw [renderAll_eq_map, List.map_map, List.forall₂_map_left_iff, List.forall₂_same]
  intro part hpart
  have hclean := hparts part hpart
  show Keeps ((parseTypeExpr fuel part).getD (.name (String.ofList (normalizeName part)))).render
    part
  cases h : parseTypeExpr fuel part with
  | some expr => exact hparse part expr hclean h
  | none =>
    obtain ⟨hsame, hname⟩ := sameTokens_normalizeName hclean
    rw [Option.getD_none, TypeExpr.render, String.toList_ofList]
    exact (keeps_normalizeName hname).trans hsame

attribute [grind =] TypeExpr.render CallableParamExpr.render

/-! The rendered forms, as a head and joined arguments in brackets. -/

theorem render_generic (head : String) (args : List TypeExpr) :
    (TypeExpr.generic head args).render
      = String.ofList (normalizeTypeHead head.toList) ++ "[" ++ join ", " (renderAll args) ++ "]" := by
  rw [TypeExpr.render]

theorem render_union_explicit (branches : List TypeExpr) :
    (TypeExpr.union branches .explicit).render
      = "Union" ++ "[" ++ join ", " (renderAll branches) ++ "]" := by
  rw [TypeExpr.render]
  rfl

theorem render_callable (params : CallableParamExpr) (returnType : TypeExpr) :
    (TypeExpr.callable params returnType).render
      = "Callable" ++ "[" ++ join ", " [params.render, returnType.render] ++ "]" := by
  rw [TypeExpr.render, ← String.toList_inj]
  simp [join]

theorem render_annotated (value : TypeExpr) (metadata : List String) :
    (TypeExpr.annotated value metadata).render
      = "Annotated" ++ "[" ++ join ", " (value.render :: metadata) ++ "]" := by
  rw [TypeExpr.render, ← String.toList_inj]
  cases metadata with
  | nil => simp [join]
  | cons first rest => simp [join]

theorem render_paramList (types : List TypeExpr) :
    (CallableParamExpr.paramList types).render = "" ++ "[" ++ join ", " (renderAll types) ++ "]" := by
  rw [CallableParamExpr.render, ← String.toList_inj]
  simp

theorem render_unpack (inner : TypeExpr) :
    (TypeExpr.unpack inner).render = "Unpack" ++ "[" ++ inner.render ++ "]" := by
  rw [TypeExpr.render, ← String.toList_inj]
  simp

/-- The types of a bracketed text, parsed or taken as names. -/
theorem keeps_parsedArguments {head : String} {fuel : Nat} {inside text : Chars}
    (hclean : clean text = true) (heq : text = head.toList ++ '[' :: (inside ++ [']']))
    (hparse : ∀ text expr, clean text = true → parseTypeExpr fuel text = some expr →
      Keeps expr.render text) :
    Keeps (head ++ "[" ++ join ", " (renderAll ((splitTopLevelTypeArgs inside).map fun part =>
      (parseTypeExpr fuel part).getD (.name (String.ofList (normalizeName part))))) ++ "]") text := by
  obtain ⟨hhead, hinside⟩ := clean_subscript (heq ▸ hclean)
  rw [heq]
  exact keeps_arguments (keeps_literal hhead) hhead hinside
    (keeps_parts (splitTopLevelTypeArgs_spec hinside).1 hparse)

/-- An expression parsed from a clean text is rendered with the tokens of the text. -/
theorem keeps_of_parse (fuel : Nat) :
    (∀ text expr, clean text = true → parseTypeExpr fuel text = some expr →
      Keeps expr.render text)
    ∧ (∀ text params, clean text = true → parseCallableParamExpr fuel text = some params →
      Keeps params.render text) := by
  induction fuel with
  | zero => exact ⟨fun _ _ _ h => by simp [parseTypeExpr] at h,
      fun _ _ _ h => by simp [parseCallableParamExpr] at h⟩
  | succ fuel ih =>
    obtain ⟨ihType, ihParams⟩ := ih
    constructor
    · intro text expr hclean hparse
      obtain ⟨hsame, hname⟩ := sameTokens_normalizeName hclean
      refine Keeps.trans ?_ hsame
      rw [parseTypeExpr] at hparse
      generalize normalizeName text = name at *
      dsimp only at hparse
      split at hparse
      · cases hparse
      · split at hparse
        · -- a union: the branches between the bars
          cases hparse
          obtain ⟨hbranches, htokens⟩ := splitTopLevelUnionBranches_spec hname
          obtain ⟨hjoin, hjoinTokens⟩ := keeps_join separates_bar (keeps_parts hbranches ihType)
          rw [TypeExpr.render]
          exact ⟨hjoin, htokens ▸ hjoinTokens⟩
        · split at hparse
          · next inside hinside =>
              have heq := eq_of_subscriptOf hinside
              obtain ⟨hhead, hclean'⟩ := clean_subscript (heq ▸ hname)
              obtain ⟨hparts, _⟩ := splitTopLevelTypeArgs_spec hclean'
              split at hparse
              · cases hparse
              · next value metadata hargs =>
                  rw [hargs, List.forall_mem_cons] at hparts
                  obtain ⟨parsed, hvalue, rfl⟩ := Option.map_eq_some_iff.1 hparse
                  rw [render_annotated, heq]
                  refine keeps_arguments (keeps_literal hhead) hhead hclean' ?_
                  rw [hargs]
                  refine .cons (ihType value parsed hparts.1 hvalue) ?_
                  rw [List.forall₂_map_left_iff, List.forall₂_same]
                  exact fun part hpart => keeps_normalizeTypeTextLegacy (hparts.2 part hpart)
          · split at hparse
            · next inside hinside =>
                have heq := eq_of_subscriptOf hinside
                obtain ⟨hhead, hclean'⟩ := clean_subscript (heq ▸ hname)
                obtain ⟨inner, hinner, rfl⟩ := Option.map_eq_some_iff.1 hparse
                obtain ⟨hrendered, hkeep⟩ := ihType inside inner hclean' hinner
                rw [render_unpack, heq]
                exact keeps_subscript (keeps_literal hhead) hrendered (hkeep.append (.refl _))
                  hclean' hhead
            · split at hparse
              · next params returnType hargs =>
                  obtain ⟨inside, hinside, hsplit⟩ := Option.map_eq_some_iff.1 hargs
                  have heq := eq_of_subscriptOf hinside
                  obtain ⟨hhead, hclean'⟩ := clean_subscript (heq ▸ hname)
                  obtain ⟨hparts, _⟩ := splitTopLevelTypeArgs_spec hclean'
                  rw [hsplit, List.forall_mem_cons, List.forall_mem_singleton] at hparts
                  obtain ⟨parsedParams, hparams, hrest⟩ := Option.bind_eq_some_iff.1 hparse
                  obtain ⟨parsedReturn, hreturn, rfl⟩ := Option.map_eq_some_iff.1 hrest
                  rw [render_callable, heq]
                  refine keeps_arguments (keeps_literal hhead) hhead hclean' ?_
                  rw [hsplit]
                  exact .cons (ihParams params parsedParams hparts.1 hparams)
                    (.cons (ihType returnType parsedReturn hparts.2 hreturn) .nil)
              · split at hparse
                · next inside hinside =>
                    cases hparse
                    rw [render_union_explicit]
                    exact keeps_parsedArguments hname (eq_of_subscriptOf hinside) ihType
                · split at hparse
                  · next head args hparts =>
                      cases hparse
                      have heq := eq_of_subscriptParts hparts
                      obtain ⟨hhead, hargs⟩ := clean_subscript (heq ▸ hname)
                      obtain ⟨hsame, hcleanHead⟩ := sameTokens_normalizeTypeHead hhead
                      rw [render_generic, String.toList_ofList, heq]
                      exact keeps_arguments ((keeps_normalizeTypeHead hcleanHead).trans hsame) hhead
                        hargs (keeps_parts (splitTopLevelTypeArgs_spec hargs).1 ihType)
                  · cases hparse
                    rw [TypeExpr.render, String.toList_ofList]
                    exact keeps_normalizeName hname
    · intro text params hclean hparse
      obtain ⟨hsame, hname⟩ := sameTokens_normalizeName hclean
      refine Keeps.trans ?_ hsame
      rw [parseCallableParamExpr] at hparse
      generalize normalizeName text = name at *
      dsimp only at hparse
      split at hparse
      · cases hparse
      · split at hparse
        · next hellipsis =>
            cases hparse
            rw [hellipsis]
            exact keeps_literal (by decide)
        · split at hparse
          · next inside hinside =>
              -- a parameter list in brackets
              cases hparse
              obtain ⟨rest, hopen, hclose⟩ := Option.bind_eq_some_iff.1 hinside
              have heq : name = "".toList ++ '[' :: (inside ++ [']']) := by
                rw [eq_of_stripPrefix hopen, eq_of_stripSuffix hclose]
                rfl
              rw [render_paramList]
              split
              · next hempty =>
                  obtain ⟨hhead, hclean'⟩ := clean_subscript (heq ▸ hname)
                  obtain ⟨htrim, _⟩ := tokens_trim hclean'
                  rw [hempty] at htrim
                  rw [heq]
                  refine keeps_subscript (keeps_literal hhead) (by decide) ?_ hclean' hhead
                  rw [← htrim]
                  exact .refl _
              · exact keeps_parsedArguments hname heq ihType
          · split at hparse
            · next inside hinside =>
                cases hparse
                have hkeeps := keeps_parsedArguments hname (eq_of_subscriptOf hinside) ihType
                exact hkeeps
            · obtain ⟨expr, hexpr, rfl⟩ := Option.map_eq_some_iff.1 hparse
              rw [CallableParamExpr.render]
              exact ihType name expr hname hexpr

/-! ## Annotations -/

mutual

/-- The tokens of an annotation. Calls stand in the metadata of `Annotated`. -/
inductive TypeText : List Token → Prop
  | name {word : Chars} (hword : plainWord word ≠ []) : TypeText [.word word]
  | literal (quote : Quote) (content : Chars) : TypeText [.string quote content]
  | subscript {head : Chars} {args : List Token} (hhead : plainWord head ≠ [])
      (hargs : Arguments args) :
      TypeText (.word head :: .punct '[' :: (args ++ [.punct ']']))
  | call {head : Chars} {args : List Token} (hhead : plainWord head ≠ [])
      (hargs : Arguments args) :
      TypeText (.word head :: .punct '(' :: (args ++ [.punct ')']))
  | params {args : List Token} (hargs : Arguments args) :
      TypeText (.punct '[' :: (args ++ [.punct ']']))
  | noParams : TypeText [.punct '[', .punct ']']
  | union {left right : List Token} (hleft : TypeText left) (hright : TypeText right) :
      TypeText (left ++ .punct '|' :: right)

/-- Arguments between commas, the last of which may be followed by one. -/
inductive Arguments : List Token → Prop
  | one {arg : List Token} (harg : TypeText arg) : Arguments arg
  | trailing {arg : List Token} (harg : TypeText arg) : Arguments (arg ++ [.punct ','])
  | cons {arg rest : List Token} (harg : TypeText arg) (hrest : Arguments rest) :
      Arguments (arg ++ .punct ',' :: rest)

end

/-- What may follow a token: no comma after an opening bracket or a comma, no empty brackets
after a head. A star may not stand anywhere, and a word says something. -/
def gapOk (token : Token) (rest : List Token) : Bool :=
  match token with
  | .word word => decide (plainWord word ≠ []) && !([Token.punct '[', .punct ']'].isPrefixOf rest)
  | .punct c =>
    decide (c ≠ '*') && !((c == '[' || c == ',') && rest.head? == some (.punct ','))
  | _ => true

/-- No operand is missing. -/
def noGap : List Token → Bool
  | [] => true
  | token :: rest => gapOk token rest && noGap rest

/-- A word, a string literal or an opening bracket comes first. -/
def startsOperand : List Token → Prop
  | .word _ :: _ => True
  | .string _ _ :: _ => True
  | .punct c :: _ => c = '['
  | _ => False

variable {ts : List Token}

theorem noGap_of_append {us : List Token} (h : noGap (ts ++ us) = true) :
    noGap ts = true ∧ noGap us = true := by
  induction ts with
  | nil => exact ⟨rfl, h⟩
  | cons t rest ih =>
    rw [List.cons_append, noGap, Bool.and_eq_true] at h
    obtain ⟨hrest, hus⟩ := ih h.2
    refine ⟨?_, hus⟩
    rw [noGap, Bool.and_eq_true]
    refine ⟨?_, hrest⟩
    have hok := h.1
    cases t with
    | word word =>
      simp only [gapOk, Bool.and_eq_true, Bool.not_eq_true'] at hok ⊢
      refine ⟨hok.1, ?_⟩
      by_contra hnot
      have hopen : [Token.punct '[', .punct ']'] <+: rest := by
        simpa [← List.isPrefixOf_iff_prefix] using hnot
      have hfull := List.isPrefixOf_iff_prefix.2 (hopen.trans (List.prefix_append rest us))
      simp [hfull] at hok
    | punct c =>
      cases rest with
      | nil =>
        simp only [gapOk, Bool.and_eq_true] at hok ⊢
        exact ⟨hok.1, by simp⟩
      | cons => exact hok
    | string => rfl
    | unclosed => rfl

/-- Tokens with no gap stay so before a token that opens nothing. -/
theorem noGap_append {ts us : List Token} (hts : noGap ts = true) (hus : noGap us = true)
    (hlast : ts.getLast? ≠ some (.punct '[')) (hfirst : us.head? ≠ some (.punct '['))
    (hcomma : us.head? = some (.punct ',') → ts.getLast? ≠ some (.punct ',')) :
    noGap (ts ++ us) = true := by
  induction ts with
  | nil => exact hus
  | cons t rest ih =>
    rw [noGap, Bool.and_eq_true] at hts
    rw [List.cons_append, noGap, Bool.and_eq_true]
    have hrestLast : ∀ c, (t :: rest).getLast? ≠ some (.punct c) →
        rest.getLast? ≠ some (.punct c) := by
      intro c hne
      cases rest with
      | nil => simp
      | cons t' rest' => rwa [List.getLast?_cons_cons] at hne
    refine ⟨?_, ih hts.2 (hrestLast _ hlast) fun hhead => hrestLast _ (hcomma hhead)⟩
    have hok := hts.1
    cases t with
    | word word =>
      simp only [gapOk, Bool.and_eq_true, Bool.not_eq_true'] at hok ⊢
      refine ⟨hok.1, ?_⟩
      cases rest with
      | nil =>
        cases us with
        | nil => rfl
        | cons u us' =>
          have hne : u ≠ .punct '[' := by simpa using hfirst
          simp [List.isPrefixOf, hne.symm]
      | cons t' rest' =>
        cases rest' with
        | nil =>
          have hne : t' ≠ .punct '[' := by simpa using hlast
          simp [List.isPrefixOf, hne.symm]
        | cons t'' rest'' => simpa [List.isPrefixOf] using hok.2
    | punct c =>
      cases rest with
      | nil =>
        have hne : c ≠ '[' := by simpa using hlast
        simp only [gapOk, Bool.and_eq_true] at hok ⊢
        refine ⟨hok.1, ?_⟩
        by_cases hhead : us.head? = some (.punct ',')
        · have hne' : c ≠ ',' := by simpa using hcomma hhead
          simp [hne, hne']
        · simp [hhead]
      | cons => exact hok
    | string => rfl
    | unclosed => rfl

theorem startsOperand.append (h : startsOperand ts) (us : List Token) :
    startsOperand (ts ++ us) := by
  cases ts with
  | nil => exact absurd h id
  | cons t rest => cases t <;> exact h

theorem getLast?_enclosed (first last : Token) (ts : List Token) :
    (first :: (ts ++ [last])).getLast? = some last := by
  rw [← List.cons_append, List.getLast?_concat]

/-- What the grammar says of the first and the last token, and of what lies between. -/
structure Operand (ts : List Token) : Prop where
  starts : startsOperand ts
  last : ts.getLast? ≠ some (.punct '[')
  noGap : noGap ts = true

theorem Operand.head?_ne {ts : List Token} (h : Operand ts) {c : Char} (hc : c ≠ '[')
    (rest : List Token) : (ts ++ rest).head? ≠ some (.punct c) := by
  have hstarts := h.starts
  cases ts with
  | nil => exact absurd hstarts id
  | cons t ts' =>
    cases t with
    | word => simp
    | string => simp
    | unclosed => exact absurd hstarts id
    | punct c' =>
      obtain rfl : c' = '[' := hstarts
      simpa using hc.symm

/-- Arguments in brackets, behind a head or alone. -/
theorem Operand.bracketed {args : List Token} (h : Operand args) :
    Operand (.punct '[' :: (args ++ [.punct ']'])) := by
  refine ⟨rfl, by rw [getLast?_enclosed]; decide, ?_⟩
  rw [TypePython.Syntax.noGap, Bool.and_eq_true]
  refine ⟨?_, noGap_append h.noGap rfl h.last (by simp) (by simp)⟩
  have hcomma := beq_eq_false_iff_ne.2 (h.head?_ne (c := ',') (by decide) [.punct ']'])
  simp only [gapOk, hcomma]
  rfl

theorem Operand.glue {left right : List Token} (hleft : Operand left)
    (hcomma : left.getLast? ≠ some (.punct ',')) {c : Char} (hc : c ≠ '[' ∧ c ≠ '*')
    (hright : Operand right) : Operand (left ++ .punct c :: right) := by
  refine ⟨hleft.starts.append _, ?_, ?_⟩
  · have hne : right ≠ [] := by
      rintro rfl
      exact absurd hright.starts id
    rw [List.getLast?_append_of_ne_nil _ (by simp), List.getLast?_cons]
    have hlast := hright.last
    rw [List.getLast?_eq_some_getLast hne] at hlast ⊢
    simpa using hlast
  · refine noGap_append hleft.noGap ?_ hleft.last (by simpa using hc.1) fun _ => hcomma
    rw [TypePython.Syntax.noGap, Bool.and_eq_true]
    have hnot := beq_eq_false_iff_ne.2 (hright.head?_ne (c := ',') (by decide) [])
    rw [List.append_nil] at hnot
    exact ⟨by simp [gapOk, hc.2, hnot], hright.noGap⟩

theorem TypeText.last_ne_comma : ∀ {ts : List Token}, TypeText ts →
    ts.getLast? ≠ some (.punct ',')
  | _, .name _ => by simp
  | _, .literal _ _ => by simp
  | _, .subscript _ _ => by
    rw [← List.cons_append, getLast?_enclosed]
    decide
  | _, .call _ _ => by
    rw [← List.cons_append, getLast?_enclosed]
    decide
  | _, .params _ => by
    rw [getLast?_enclosed]
    decide
  | _, .noParams => by simp
  | _, @TypeText.union _ right _ hright => by
    have hlast := hright.last_ne_comma
    rw [List.getLast?_append_of_ne_nil _ (by simp), List.getLast?_cons]
    cases hright' : right.getLast? with
    | none => simp
    | some last => simpa [hright'] using hlast

mutual

theorem TypeText.operand : ∀ {ts : List Token}, TypeText ts → Operand ts
  | _, .name hword => ⟨trivial, by simp, by simp [noGap, gapOk, hword, List.isPrefixOf]⟩
  | _, .literal _ _ => ⟨trivial, by simp, rfl⟩
  | _, .subscript hhead hargs => by
    have hbracketed := hargs.operand.bracketed
    refine ⟨trivial, by rw [← List.cons_append, getLast?_enclosed]; decide, ?_⟩
    rw [noGap, Bool.and_eq_true]
    refine ⟨?_, hbracketed.noGap⟩
    have hne := hargs.operand.head?_ne (c := ']') (by decide) [.punct ']']
    simp only [gapOk, Bool.and_eq_true, Bool.not_eq_true']
    refine ⟨by simpa using hhead, ?_⟩
    by_contra hnot
    have hopen : [Token.punct '[', .punct ']'] <+: .punct '[' :: (_ ++ [.punct ']']) :=
      List.isPrefixOf_iff_prefix.1 (by simpa using hnot)
    obtain ⟨rest, hrest⟩ := (List.cons_prefix_cons.1 hopen).2
    exact hne (by rw [← hrest]; rfl)
  | _, .call hhead hargs => by
    have hoperand := hargs.operand
    refine ⟨trivial, by rw [← List.cons_append, getLast?_enclosed]; decide, ?_⟩
    have hclose : noGap [.punct ')'] = true := rfl
    have hinner := noGap_append hoperand.noGap hclose hoperand.last (by simp) (by simp)
    simp [noGap, gapOk, hhead, List.isPrefixOf, hinner]
  | _, .params hargs => hargs.operand.bracketed
  | _, .noParams => ⟨rfl, by simp, rfl⟩
  | _, .union hleft hright =>
    hleft.operand.glue hleft.last_ne_comma (by decide) hright.operand

theorem Arguments.operand : ∀ {ts : List Token}, Arguments ts → Operand ts
  | _, .one harg => harg.operand
  | _, .trailing harg => by
    have hoperand := harg.operand
    exact ⟨hoperand.starts.append _, by simp,
      noGap_append hoperand.noGap rfl hoperand.last (by simp) fun _ => harg.last_ne_comma⟩
  | _, .cons harg hrest => harg.operand.glue harg.last_ne_comma (by decide) hrest.operand

end

/-! ## Texts with no gap -/

/-- A prefix of a text is a prefix of its first word. -/
theorem tokensFrom_prefixed {p : Chars} (hp : p ≠ []) (word rest : Chars) :
    ∃ first ts, tokensFrom (.outside (word ++ p.reverse)) rest = .word (p ++ first) :: ts
      ∧ tokensFrom (.outside word) rest = flush first.reverse ++ ts := by
  have hflush : ∀ word, flush (word ++ p.reverse) = [.word (p ++ word.reverse)] := by
    intro word
    rw [flush, if_neg (by simp [hp]), List.reverse_append, List.reverse_reverse]
  induction rest generalizing word with
  | nil => exact ⟨word.reverse, [], hflush word, by simp [tokensFrom, Mode.finish]⟩
  | cons c rest ih =>
    simp only [tokensFrom, Mode.emit, Mode.next]
    cases hquote : quoteOf c with
    | some quote =>
      exact ⟨word.reverse, tokensFrom (.inside quote []) rest, by simp [hflush], by simp⟩
    | none =>
      by_cases hspace : isWhitespace c = true
      · exact ⟨word.reverse, tokensFrom (.outside []) rest, by simp [hspace, hflush],
          by simp [hspace]⟩
      · by_cases hpunct : isPunct c = true
        · exact ⟨word.reverse, .punct c :: tokensFrom (.outside []) rest,
            by simp [hspace, hpunct, hflush], by simp [hspace, hpunct]⟩
        · obtain ⟨first, ts, hleft, hright⟩ := ih (c :: word)
          exact ⟨first, ts, by simpa [hspace, hpunct] using hleft,
            by simpa [hspace, hpunct] using hright⟩

theorem noGap_dropPrefix {p rest : Chars} (hplain : ∀ word, plainWord (p ++ word) = plainWord word)
    (hword : p.all isWordChar = true) (hp : p ≠ []) (h : noGap (tokens (p ++ rest)) = true) :
    noGap (tokens rest) = true ∧ tokens rest ≠ [] := by
  obtain ⟨first, ts, hleft, hright⟩ := tokensFrom_prefixed hp [] rest
  have hfull : tokens (p ++ rest) = .word (p ++ first) :: ts := by
    rw [tokens, (tokensFrom_word hword [] rest).1, List.append_nil]
    exact hleft
  rw [hfull, noGap, Bool.and_eq_true] at h
  have hok := h.1
  simp only [gapOk, Bool.and_eq_true, decide_eq_true_eq, hplain] at hok
  have hfirst : first ≠ [] := by
    rintro rfl
    exact absurd (show plainWord [] = [] by decide) hok.1
  have hrest : tokens rest = .word first :: ts := by
    rw [tokens, hright, flush, if_neg (by simpa using hfirst), List.reverse_reverse]
    rfl
  rw [hrest, noGap, Bool.and_eq_true]
  exact ⟨⟨by simpa [gapOk] using hok, h.2⟩, by simp⟩

theorem noGap_normalizeName (hclean : clean text = true) (h : noGap (tokens text) = true)
    (hne : tokens text ≠ []) :
    noGap (tokens (normalizeName text)) = true ∧ tokens (normalizeName text) ≠ [] := by
  obtain ⟨htrim, htrimClean⟩ := tokens_trim hclean
  rw [← htrim] at h hne
  have hdrop : ∀ {p rest : Chars}, (∀ word, plainWord (p ++ word) = plainWord word) →
      p.all isWordChar = true → p ≠ [] → stripPrefix p (trim text) = some rest →
        noGap (tokens (trim rest)) = true ∧ tokens (trim rest) ≠ [] := by
    intro p rest hplain hword hp hstrip
    rw [eq_of_stripPrefix hstrip] at h htrimClean
    obtain ⟨hgap, hrest⟩ := noGap_dropPrefix hplain hword hp h
    rw [(sameTokens_dropPrefix hplain hword rest).2] at htrimClean
    rw [(tokens_trim htrimClean).1]
    exact ⟨hgap, hrest⟩
  simp only [normalizeName]
  cases h₁ : stripPrefix "typing.".toList (trim text) with
  | some rest => exact hdrop plainWord_typing (by decide) (by decide) h₁
  | none =>
    cases h₂ : stripPrefix "typing_extensions.".toList (trim text) with
    | some rest => exact hdrop plainWord_typingExtensions (by decide) (by decide) h₂
    | none =>
      simp only [Option.getD_none]
      rw [(tokens_trim htrimClean).1]
      exact ⟨h, hne⟩

/-! ## Lengths -/

theorem trim_length_le (text : Chars) : (trim text).length ≤ text.length := by
  have hdrop : ∀ s : Chars, (s.dropWhile isWhitespace).length ≤ s.length := fun s =>
    (List.dropWhile_suffix _).length_le
  unfold trim trimEnd trimStart
  have hend := hdrop (text.dropWhile isWhitespace).reverse
  have hstart := hdrop text
  rw [List.length_reverse] at hend ⊢
  omega

theorem normalizeName_length_le (text : Chars) : (normalizeName text).length ≤ text.length := by
  have htrim := trim_length_le text
  simp only [normalizeName]
  cases h₁ : stripPrefix "typing.".toList (trim text) with
  | some rest =>
    have := stripPrefix_length h₁
    have := trim_length_le rest
    simp only
    omega
  | none =>
    cases h₂ : stripPrefix "typing_extensions.".toList (trim text) with
    | some rest =>
      have := stripPrefix_length h₂
      have := trim_length_le rest
      simp only [Option.getD_some]
      omega
    | none => exact Nat.le_trans (trim_length_le _) htrim

theorem length_le_of_mem_joinChars : ∀ {parts : List Chars} {part : Chars},
    part ∈ parts → part.length ≤ (joinChars delim parts).length
  | [], _, h => absurd h List.not_mem_nil
  | [_], _, h => by
    obtain rfl := List.mem_singleton.1 h
    exact Nat.le_refl _
  | first :: second :: rest, part, h => by
    rw [joinChars, List.length_append, List.length_cons]
    rcases List.mem_cons.1 h with rfl | h
    · omega
    · have hrest : part.length ≤ (joinChars delim (second :: rest)).length :=
        length_le_of_mem_joinChars h
      omega

theorem splitTopLevelTypeArgs_length_le {args part : Chars}
    (h : part ∈ splitTopLevelTypeArgs args) : part.length ≤ args.length := by
  have hmem : part ∈ (splitTopLevel argBrackets ',' 0 args).map trim := by
    unfold splitTopLevelTypeArgs at h
    dsimp only at h
    split at h
    · exact List.dropLast_subset _ h
    · exact h
  obtain ⟨part', hpart', rfl⟩ := List.mem_map.1 hmem
  have hle : part'.length ≤ (joinChars ',' (splitTopLevel argBrackets ',' 0 args)).length :=
    length_le_of_mem_joinChars hpart'
  rw [joinChars_splitTopLevel] at hle
  exact Nat.le_trans (trim_length_le part') hle

/-! ## Parsing succeeds -/

theorem tokensFrom_ne_nil : ∀ {text : Chars} {m : Mode},
    (∀ word, m = .outside word → word ≠ []) → tokensFrom m text ≠ []
  | [], .outside word, h => by simpa [tokensFrom, Mode.finish, flush] using h word rfl
  | [], .inside _ _, _ => by simp [tokensFrom, Mode.finish]
  | [], .escaped _ _, _ => by simp [tokensFrom, Mode.finish]
  | c :: rest, .outside word, h => by
    have hword := h word rfl
    simp only [tokensFrom, Mode.emit, Mode.next]
    cases hquote : quoteOf c with
    | some quote => simp [flush, hword]
    | none =>
      by_cases hspace : isWhitespace c = true
      · simp [hspace, flush, hword]
      · by_cases hpunct : isPunct c = true
        · simp [hspace, hpunct]
        · have hrest : tokensFrom (.outside (c :: word)) rest ≠ [] :=
            tokensFrom_ne_nil fun w hw => by cases hw; simp
          simpa [hspace, hpunct] using hrest
  | c :: rest, .inside quote content, _ => by
    simp only [tokensFrom, Mode.emit, Mode.next]
    by_cases hquote : c = quote.char
    · simp [hquote]
    · rw [if_neg hquote, if_neg hquote, List.nil_append]
      split
      · exact tokensFrom_ne_nil fun w hw => by cases hw
      · exact tokensFrom_ne_nil fun w hw => by cases hw
  | c :: rest, .escaped quote content, _ => by
    have hrest : tokensFrom (.inside quote (c :: content)) rest ≠ [] :=
      tokensFrom_ne_nil fun w hw => by cases hw
    simpa [tokensFrom, Mode.emit, Mode.next] using hrest

/-- A text that is not blank has a token. -/
theorem tokens_ne_nil (h : trim text ≠ []) : tokens text ≠ [] := by
  rw [← (tokens_trimStart text).1]
  cases hstart : trimStart text with
  | nil =>
    rw [trim, hstart] at h
    exact absurd rfl h
  | cons c rest =>
    have hspace : isWhitespace c = false := by
      have hhead := List.head?_dropWhile_not isWhitespace text
      unfold trimStart at hstart
      simpa [hstart] using hhead
    simp only [tokens, tokensFrom, Mode.emit, Mode.next]
    cases hquote : quoteOf c with
    | some quote =>
      have hrest : tokensFrom (.inside quote []) rest ≠ [] :=
        tokensFrom_ne_nil fun w hw => by cases hw
      simpa [flush] using hrest
    | none =>
      by_cases hpunct : isPunct c = true
      · simp [hspace, hpunct]
      · have hrest : tokensFrom (.outside [c]) rest ≠ [] :=
          tokensFrom_ne_nil fun w hw => by cases hw; simp
        simpa [hspace, hpunct] using hrest

/-- The arguments of a clean text and its tokens: a trailing comma apart, they are joined. -/
theorem tokens_of_arguments {args : Chars} (h : clean args = true) :
    (tokens args = joinTokens ',' ((splitTopLevelTypeArgs args).map tokens)
        ∧ ∀ part, (splitTopLevelTypeArgs args).getLast? = some part → tokens part ≠ [])
      ∨ tokens args = joinTokens ',' ((splitTopLevelTypeArgs args).map tokens ++ [[]]) := by
  have hjoin := joinChars_splitTopLevel argBrackets ',' 0 args
  have hcut : isCut ',' = true := by decide
  obtain ⟨hparts, htokens⟩ := tokens_joinChars hcut (hjoin ▸ h)
  obtain ⟨htrim, htrimTokens⟩ := tokens_map_trim hparts
  rw [hjoin, ← htrimTokens] at htokens
  have hblank : ∀ part ∈ (splitTopLevel argBrackets ',' 0 args).map trim, part ≠ [] →
      tokens part ≠ [] := by
    intro part hpart hne
    obtain ⟨part', hpart', rfl⟩ := List.mem_map.1 hpart
    rw [(tokens_trim (hparts part' hpart')).1]
    exact tokens_ne_nil hne
  unfold splitTopLevelTypeArgs
  rw [htokens]
  generalize (splitTopLevel argBrackets ',' 0 args).map trim = parts at *
  dsimp only
  split
  · next hlast =>
      right
      obtain ⟨init, rfl⟩ : ∃ init, parts = init ++ [[]] :=
        ⟨parts.dropLast, (List.dropLast_append_getLast? [] hlast).symm⟩
      rw [List.dropLast_concat, List.map_append]
      rfl
  · next hlast =>
      left
      refine ⟨rfl, fun part hpart => hblank part (List.mem_of_getLast? hpart) ?_⟩
      rintro rfl
      exact hlast hpart

/-- A piece of a text that can be parsed: clean, with a token, and with no operand missing. -/
structure Parsable (text : Chars) : Prop where
  clean : clean text = true
  noGap : noGap (tokens text) = true
  ne_nil : tokens text ≠ []

theorem Parsable.normalizeName (h : Parsable text) : Parsable (normalizeName text) := by
  obtain ⟨hgap, hne⟩ := noGap_normalizeName h.clean h.noGap h.ne_nil
  exact ⟨(sameTokens_normalizeName h.clean).2, hgap, hne⟩

/-- What is inside the brackets behind a one-word head. -/
theorem Parsable.inside {head : String} {text inside : Chars} (h : Parsable text)
    (heq : text = head.toList ++ '[' :: (inside ++ [']']))
    (hhead : tokens head.toList = [.word head.toList]) :
    TypePython.Syntax.clean inside = true
      ∧ TypePython.Syntax.noGap
          (.word head.toList :: .punct '[' :: (tokens inside ++ [.punct ']'])) = true
      ∧ tokens inside ≠ [] := by
  obtain ⟨hcleanHead, hinside⟩ := clean_subscript (heq ▸ h.clean)
  have hgap := h.noGap
  rw [heq, (tokens_subscript hcleanHead hinside).2, hhead] at hgap
  refine ⟨hinside, hgap, fun hnil => ?_⟩
  rw [hnil] at hgap
  simp [TypePython.Syntax.noGap, gapOk, List.isPrefixOf] at hgap

/-- The first argument inside brackets can be parsed. -/
theorem parsable_firstArgument {head inside first : Chars} {rest : List Chars}
    (hclean : clean inside = true)
    (hgap : noGap (.word head :: .punct '[' :: (tokens inside ++ [.punct ']'])) = true)
    (hne : tokens inside ≠ []) (hargs : splitTopLevelTypeArgs inside = first :: rest) :
    Parsable first := by
  have hfirst : clean first = true :=
    (splitTopLevelTypeArgs_spec hclean).1 first (by simp [hargs])
  -- the tokens of the argument come first, and a comma comes next, if anything does
  obtain ⟨ts, htokens, hts⟩ : ∃ ts, tokens inside = tokens first ++ ts
      ∧ (ts = [] ∨ ts.head? = some (.punct ',')) := by
    rcases tokens_of_arguments hclean with ⟨htokens, _⟩ | htokens
    · rw [hargs] at htokens
      cases rest with
      | nil => exact ⟨[], by simpa [joinTokens] using htokens, .inl rfl⟩
      | cons second rest => exact ⟨_, htokens, .inr rfl⟩
    · rw [hargs] at htokens
      cases rest with
      | nil => exact ⟨[.punct ','], by simpa [joinTokens] using htokens, .inr rfl⟩
      | cons second rest => exact ⟨_, htokens, .inr rfl⟩
  rw [noGap, Bool.and_eq_true, noGap, Bool.and_eq_true] at hgap
  refine ⟨hfirst, ?_, fun hnil => ?_⟩
  · have hinside := (noGap_of_append hgap.2.2).1
    rw [htokens] at hinside
    exact (noGap_of_append hinside).1
  · rw [htokens, hnil, List.nil_append] at hne hgap
    rcases hts with rfl | hcomma
    · exact hne rfl
    · cases ts with
      | nil => exact hne rfl
      | cons t ts' =>
        obtain rfl : t = .punct ',' := by simpa using hcomma
        simp [gapOk] at hgap

/-- The second of two arguments inside brackets can be parsed. -/
theorem parsable_secondArgument {inside first second : Chars} (hclean : clean inside = true)
    (hgap : noGap (tokens inside ++ [.punct ']']) = true)
    (hargs : splitTopLevelTypeArgs inside = [first, second]) : Parsable second := by
  have hsecond : clean second = true :=
    (splitTopLevelTypeArgs_spec hclean).1 second (by simp [hargs])
  have hinside := (noGap_of_append hgap).1
  rcases tokens_of_arguments hclean with ⟨htokens, hlast⟩ | htokens
  · rw [hargs] at htokens hlast
    have hne := hlast second rfl
    have heq : tokens inside = tokens first ++ [.punct ','] ++ tokens second := by
      simpa [joinTokens] using htokens
    rw [heq] at hinside
    exact ⟨hsecond, (noGap_of_append hinside).2, hne⟩
  · rw [hargs] at htokens
    have heq : tokens inside = tokens first ++ .punct ',' :: (tokens second ++ [.punct ',']) := by
      simpa [joinTokens] using htokens
    rw [heq] at hinside
    have htail := (noGap_of_append hinside).2
    rw [noGap, Bool.and_eq_true] at htail
    refine ⟨hsecond, (noGap_of_append htail.2).1, fun hnil => ?_⟩
    rw [hnil] at htail
    simp [gapOk] at htail

/-- With fuel for its length, a text with no operand missing is parsed. -/
theorem isSome_parse (fuel : Nat) :
    (∀ text, 2 * text.length < fuel → Parsable text → (parseTypeExpr fuel text).isSome = true)
    ∧ (∀ text, 2 * text.length + 1 < fuel → Parsable text →
      (parseCallableParamExpr fuel text).isSome = true) := by
  induction fuel with
  | zero => exact ⟨fun _ h => absurd h (Nat.not_lt_zero _), fun _ h => absurd h (Nat.not_lt_zero _)⟩
  | succ fuel ih =>
    obtain ⟨ihType, ihParams⟩ := ih
    have hshorter : ∀ {head : String} {name inside : Chars}, name = head.toList ++ '[' :: (inside ++ [']']) →
        inside.length + 2 ≤ name.length := by
      intro head name inside heq
      rw [heq]
      simp
    constructor
    · intro text hfuel hparsable
      have hname := hparsable.normalizeName
      have hlength := normalizeName_length_le text
      rw [parseTypeExpr]
      generalize normalizeName text = name at *
      dsimp only
      split
      · next hempty =>
          exact absurd (by rw [hempty]; rfl) hname.ne_nil
      · split
        · rfl
        · split
          · next inside hinside =>
              have heq := eq_of_subscriptOf hinside
              have hlt := hshorter heq
              obtain ⟨hclean, hgap, hne⟩ := hname.inside heq (by decide)
              split
              · next hargs =>
                  exfalso
                  rcases tokens_of_arguments hclean with ⟨htokens, _⟩ | htokens <;>
                    exact hne (by rw [htokens, hargs]; rfl)
              · next value metadata hargs =>
                  have hvalue := parsable_firstArgument hclean hgap hne hargs
                  have hle : value.length ≤ inside.length :=
                    splitTopLevelTypeArgs_length_le (by simp [hargs])
                  rw [Option.isSome_map]
                  exact ihType value (by omega) hvalue
          · split
            · next inside hinside =>
                have heq := eq_of_subscriptOf hinside
                have hlt := hshorter heq
                obtain ⟨hclean, hgap, hne⟩ := hname.inside heq (by decide)
                rw [noGap, Bool.and_eq_true, noGap, Bool.and_eq_true] at hgap
                rw [Option.isSome_map]
                exact ihType inside (by omega) ⟨hclean, (noGap_of_append hgap.2.2).1, hne⟩
            · split
              · next params returnType hargs =>
                  obtain ⟨inside, hinside, hsplit⟩ := Option.map_eq_some_iff.1 hargs
                  have heq := eq_of_subscriptOf hinside
                  have hlt := hshorter heq
                  obtain ⟨hclean, hgap, hne⟩ := hname.inside heq (by decide)
                  have hparams := parsable_firstArgument hclean hgap hne hsplit
                  rw [noGap, Bool.and_eq_true, noGap, Bool.and_eq_true] at hgap
                  have hreturn := parsable_secondArgument hclean hgap.2.2 hsplit
                  have hle : params.length ≤ inside.length :=
                    splitTopLevelTypeArgs_length_le (by simp [hsplit])
                  have hle' : returnType.length ≤ inside.length :=
                    splitTopLevelTypeArgs_length_le (by simp [hsplit])
                  obtain ⟨parsedParams, hsomeParams⟩ :=
                    Option.isSome_iff_exists.1 (ihParams params (by omega) hparams)
                  rw [hsomeParams, Option.bind_some, Option.isSome_map]
                  exact ihType returnType (by omega) hreturn
              · split
                · rfl
                · split <;> rfl
    · intro text hfuel hparsable
      have hname := hparsable.normalizeName
      have hlength := normalizeName_length_le text
      rw [parseCallableParamExpr]
      generalize normalizeName text = name at *
      dsimp only
      split
      · next hempty =>
          exact absurd (by rw [hempty]; rfl) hname.ne_nil
      · split
        · rfl
        · split
          · rfl
          · split
            · rfl
            · rw [Option.isSome_map]
              exact ihType name (by omega) hname

/-! ## Stars -/

theorem star_mem_tokensFrom : ∀ {text : Chars} {m : Mode}, cleanFrom m text = true →
    '*' ∈ text → Token.punct '*' ∈ tokensFrom m text
  | [], _, _, h => absurd h List.not_mem_nil
  | c :: rest, m, hclean, h => by
    rw [cleanFrom, Bool.and_eq_true] at hclean
    rw [tokensFrom, List.mem_append]
    rcases List.mem_cons.1 h with rfl | hrest
    · left
      cases m with
      | outside word => simp [Mode.emit, quoteOf, isWhitespace, isPunct]
      | inside => simp [Mode.isOutside, isCut] at hclean
      | escaped => simp [Mode.isOutside, isCut] at hclean
    · exact .inr (star_mem_tokensFrom hclean.2 hrest)

theorem star_not_mem_of_noGap (h : noGap ts = true) : Token.punct '*' ∉ ts := by
  induction ts with
  | nil => simp
  | cons t rest ih =>
    rw [noGap, Bool.and_eq_true] at h
    rw [List.mem_cons, not_or]
    refine ⟨?_, ih h.2⟩
    rintro rfl
    simp [gapOk] at h

theorem normalizeVariadicFrom_eq : ∀ (fuel : Nat) (before rest : Chars), '*' ∉ rest →
    normalizeVariadicFrom fuel before rest = rest
  | 0, _, _, _ => rfl
  | _ + 1, _, [], _ => rfl
  | fuel + 1, before, c :: rest, h => by
    have hc : c ≠ '*' := fun heq => h (by simp [heq])
    rw [normalizeVariadicFrom, if_pos hc,
      normalizeVariadicFrom_eq fuel (c :: before) rest fun hrest => h (List.mem_cons_of_mem c hrest)]

/-! ## The round trip -/

/-- The text denotes the same type when rendered: it is parsed, and the rendered text has its
significant tokens. -/
def SurvivesParsing (text : String) : Prop :=
  ∃ expr, TypeExpr.parse text = some expr
    ∧ significant (tokens expr.render.toList) = significant (tokens text.toList)

end TypePython.Syntax
