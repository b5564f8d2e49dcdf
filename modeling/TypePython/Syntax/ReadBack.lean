import TypePython.Lib.BracketedText
import TypePython.Syntax.RoundTrip

/-!
# Reading back what is rendered

The parser undoes the renderer on expressions whose names and heads are plain words in their
normal spelling (`parse_render`), whatever their nesting.
-/

namespace TypePython.Syntax

open TypePython.Lib.Text

/-! ## Expressions in normal form -/

/-- The characters that mean nothing to the parser. -/
def isPlainChar (c : Char) : Bool :=
  !isWhitespace c && c ∉ ['[', ']', '(', ')', '\x7b', '\x7d', ',', '|', '*']

/-- A word without a `typing.` prefix. -/
def isPlainWord (text : String) : Bool :=
  text ≠ "" && text.toList.all isPlainChar
    && (stripPrefix "typing.".toList text.toList).isNone
    && (stripPrefix "typing_extensions.".toList text.toList).isNone

/-- A word that is the head of nothing but generics. -/
def isGenericHead (head : String) : Bool :=
  isPlainWord head && normalizeTypeHead head.toList = head.toList
    && head ∉ ["Annotated", "Unpack", "Callable", "Union"]

def TypeExpr.isShorthand : TypeExpr → Bool
  | .union _ .shorthand => true
  | _ => false

mutual

/-- Built from words, generics, callables and unions. -/
def TypeExpr.isPlain : TypeExpr → Bool
  | .name name => isPlainWord name
  | .generic head args => isGenericHead head && allPlain args
  | .callable params returnType => params.isPlain && returnType.isPlain
  | .union branches .explicit => allPlain branches
  | .union branches .shorthand =>
    1 < branches.length && allPlain branches && branches.all fun branch => !branch.isShorthand
  | .annotated _ _ => false
  | .unpack inner => inner.isPlain

def CallableParamExpr.isPlain : CallableParamExpr → Bool
  | .ellipsis => true
  | .paramList types => allPlain types
  | .concatenate types => allPlain types
  | .single (.name name) => isPlainWord name && name ≠ "..."
  | .single _ => false

def allPlain : List TypeExpr → Bool
  | [] => true
  | expr :: rest => expr.isPlain && allPlain rest

end

variable {exprs : List TypeExpr}

theorem isPlain_of_mem (h : allPlain exprs = true) {expr : TypeExpr} (hexpr : expr ∈ exprs) :
    expr.isPlain = true := by
  induction exprs with
  | nil => cases hexpr
  | cons first rest ih =>
    rw [allPlain, Bool.and_eq_true] at h
    rcases List.mem_cons.1 hexpr with rfl | hrest
    · exact h.1
    · exact ih h.2 hrest

/-! ## Texts in normal form -/

/-- A text the parser neither trims nor rewrites, and cuts nowhere but at bars outside of
brackets. -/
structure Readable (text : Chars) : Prop where
  solid : Solid text
  noTyping : stripPrefix "typing.".toList text = none
  noTypingExtensions : stripPrefix "typing_extensions.".toList text = none
  noStar : '*' ∉ text
  args : Uncut argBrackets ',' 0 text
  branches : Uncut unionBrackets '|' 1 text

/-- What may stand in brackets. -/
structure Inside (text : Chars) : Prop where
  noStar : '*' ∉ text
  args : Uncut argBrackets ',' 1 text
  branches : Uncut unionBrackets '|' 1 text

variable {text : Chars}

theorem Readable.inside (h : Readable text) : Inside text where
  noStar := h.noStar
  args := h.args.mono (Nat.zero_le 1)
  branches := h.branches

theorem Readable.normalizeName (h : Readable text) : normalizeName text = text := by
  unfold Syntax.normalizeName
  simp only [h.solid.trim_eq, h.noTyping, h.noTypingExtensions, Option.getD_none]

theorem Inside.append {text' : Chars} (h : Inside text) (h' : Inside text') :
    Inside (text ++ text') where
  noStar := by
    rw [List.mem_append, not_or]
    exact ⟨h.noStar, h'.noStar⟩
  args := h.args.append h'.args
  branches := h.branches.append h'.branches

theorem inside_nil : Inside [] := ⟨by simp, uncut_nil, uncut_nil⟩

/-- A separator is nothing but a delimiter and spaces. -/
theorem inside_separator {sep : String} (h : sep = ", " ∨ sep = " | ") : Inside sep.toList := by
  have hspace : Inside [' '] :=
    ⟨by decide, uncut_char rfl rfl (.inr (Nat.le_refl 1)), uncut_char rfl rfl (.inr (Nat.le_refl 1))⟩
  have hcomma : Inside [','] :=
    ⟨by decide, uncut_char rfl rfl (.inr (Nat.le_refl 1)), uncut_char rfl rfl (.inr (Nat.le_refl 1))⟩
  have hbar : Inside ['|'] :=
    ⟨by decide, uncut_char rfl rfl (.inr (Nat.le_refl 1)), uncut_char rfl rfl (.inr (Nat.le_refl 1))⟩
  rcases h with rfl | rfl
  · exact hcomma.append hspace
  · exact hspace.append (hbar.append hspace)

variable {texts : List String}

theorem inside_join {sep : String} (hsep : sep = ", " ∨ sep = " | ")
    (h : ∀ text ∈ texts, Inside text.toList) : Inside (join sep texts).toList := by
  induction texts with
  | nil => exact inside_nil
  | cons text rest ih =>
    rw [List.forall_mem_cons] at h
    cases rest with
    | nil => exact h.1
    | cons next others =>
      rw [join, String.toList_append, String.toList_append]
      exact (h.1.append (inside_separator hsep)).append (ih h.2)

/-! ## Words and subscripts -/

theorem isPlainWord_iff {text : String} : isPlainWord text = true ↔
    text.toList ≠ [] ∧ (∀ c ∈ text.toList, isPlainChar c = true)
      ∧ stripPrefix "typing.".toList text.toList = none
      ∧ stripPrefix "typing_extensions.".toList text.toList = none := by
  have hempty : text ≠ "" ↔ text.toList ≠ [] := by
    rw [ne_eq, ne_eq, ← String.toList_inj]
    rfl
  simp only [isPlainWord, Bool.and_eq_true, decide_eq_true_eq, List.all_eq_true,
    Option.isNone_iff_eq_none, hempty, and_assoc]

theorem isPlainChar_spec {c : Char} (h : isPlainChar c = true) :
    isWhitespace c = false ∧ c ≠ '[' ∧ c ≠ '*' ∧ c ≠ ',' ∧ c ≠ '|'
      ∧ argBrackets.opens c = false ∧ argBrackets.closes c = false
      ∧ unionBrackets.opens c = false ∧ unionBrackets.closes c = false := by
  simp only [isPlainChar, Bool.and_eq_true, Bool.not_eq_true', decide_eq_true_eq, List.mem_cons,
    List.not_mem_nil, or_false, not_or] at h
  simp [argBrackets, unionBrackets, h]

theorem solid_of_words (hne : text ≠ []) (h : ∀ c ∈ text, isPlainChar c = true) : Solid text where
  first := by
    cases text with
    | nil => exact absurd rfl hne
    | cons c rest => exact ⟨c, rest, rfl, (isPlainChar_spec (h c List.mem_cons_self)).1⟩
  last := by
    refine ⟨text.getLast hne, text.dropLast, (List.dropLast_append_getLast hne).symm, ?_⟩
    exact (isPlainChar_spec (h _ (List.getLast_mem hne))).1

/-- A word is left alone by every splitter. -/
theorem readable_word {word : String} (h : isPlainWord word = true) :
    Readable word.toList ∧ Uncut unionBrackets '|' 0 word.toList := by
  obtain ⟨hne, hchars, htyping, hextensions⟩ := isPlainWord_iff.1 h
  have hbar : ∀ least, Uncut unionBrackets '|' least word.toList := by
    intro least
    apply uncut_of_forall
    intro c hc
    have hspec := isPlainChar_spec (hchars c hc)
    exact ⟨hspec.2.2.2.2.2.2.2.1, hspec.2.2.2.2.2.2.2.2, hspec.2.2.2.2.1⟩
  refine ⟨⟨solid_of_words hne hchars, htyping, hextensions, ?_, ?_, hbar 1⟩, hbar 0⟩
  · intro hstar
    exact (isPlainChar_spec (hchars _ hstar)).2.2.1 rfl
  · apply uncut_of_forall
    intro c hc
    have hspec := isPlainChar_spec (hchars c hc)
    exact ⟨hspec.2.2.2.2.2.1, hspec.2.2.2.2.2.2.1, hspec.2.2.2.1⟩

/-- A prefix a text does not have is not made by what follows, when the next character is not in
the prefix. -/
theorem stripPrefix_append_eq_none {p : Chars} {c : Char} (h : stripPrefix p text = none)
    (hc : c ∉ p) (rest : Chars) : stripPrefix p (text ++ c :: rest) = none := by
  rw [← Option.not_isSome_iff_eq_none, Option.isSome_iff_exists]
  rintro ⟨after, hafter⟩
  have heq := eq_of_stripPrefix hafter
  rcases List.append_eq_append_iff.1 heq with ⟨others, hp, -⟩ | ⟨others, htext, -⟩
  · -- the text ends inside of the prefix
    cases others with
    | nil =>
      rw [List.append_nil] at hp
      have hfound := stripPrefix_append p []
      rw [List.append_nil] at hfound
      rw [hp] at h hfound
      rw [h] at hfound
      cases hfound
    | cons d others =>
      rw [hp] at heq hc
      rw [List.append_assoc, List.append_cancel_left_eq] at heq
      have hd : c = d := (List.cons.inj heq).1
      exact hc (by rw [hd]; simp)
  · rw [htext, stripPrefix_append] at h
    cases h

theorem readable_bracketed (h : Inside text) :
    Readable ('[' :: (text ++ [']'])) ∧ Uncut unionBrackets '|' 0 ('[' :: (text ++ [']'])) := by
  have hbar := @uncut_bracketed unionBrackets '|' '[' ']' text rfl rfl rfl (by decide) h.branches
  refine ⟨⟨⟨⟨'[', text ++ [']'], rfl, by decide⟩, ⟨']', '[' :: text, rfl, by decide⟩⟩, rfl, rfl, ?_,
    uncut_bracketed rfl rfl rfl (by decide) h.args, hbar.mono (Nat.zero_le 1)⟩, hbar⟩
  have hstar := h.noStar
  simp [hstar]

theorem readable_subscript {head : String} (hhead : isPlainWord head = true) {text : Chars}
    (h : Inside text) :
    Readable (head.toList ++ '[' :: (text ++ [']']))
      ∧ Uncut unionBrackets '|' 0 (head.toList ++ '[' :: (text ++ [']'])) := by
  obtain ⟨hword, hwordBar⟩ := readable_word hhead
  obtain ⟨hbracketed, hbar⟩ := readable_bracketed h
  refine ⟨⟨hword.solid.append hbracketed.solid [],
    stripPrefix_append_eq_none hword.noTyping (by decide) _,
    stripPrefix_append_eq_none hword.noTypingExtensions (by decide) _, ?_,
    hword.args.append hbracketed.args, hword.branches.append hbracketed.branches⟩,
    hwordBar.append hbar⟩
  rw [List.mem_append, not_or]
  exact ⟨hword.noStar, hbracketed.noStar⟩

/-- Branches with bars between them. -/
theorem readable_join (hne : texts ≠ []) (h : ∀ text ∈ texts, Readable text.toList) :
    Readable (join " | " texts).toList := by
  induction texts with
  | nil => exact absurd rfl hne
  | cons text rest ih =>
    rw [List.forall_mem_cons] at h
    cases rest with
    | nil => exact h.1
    | cons next others =>
      have hrest := ih (List.cons_ne_nil next others) h.2
      have hsep : Uncut argBrackets ',' 0 " | ".toList := by
        apply uncut_of_forall
        simp [argBrackets]
      have hshape : (join " | " (text :: next :: others)).toList
          = text.toList ++ (" | ".toList ++ (join " | " (next :: others)).toList) := by
        rw [join, String.toList_append, String.toList_append, List.append_assoc]
      rw [hshape]
      constructor
      · exact h.1.solid.append hrest.solid _
      · exact stripPrefix_append_eq_none h.1.noTyping (by decide) _
      · exact stripPrefix_append_eq_none h.1.noTypingExtensions (by decide) _
      · rw [List.mem_append, List.mem_append, not_or, not_or]
        exact ⟨h.1.noStar, (inside_separator (.inr rfl)).noStar, hrest.noStar⟩
      · exact h.1.args.append (hsep.append hrest.args)
      · exact h.1.branches.append
          ((inside_separator (.inr rfl)).branches.append hrest.branches)

/-! ## Rendered expressions -/

theorem inside_args (h : ∀ text ∈ texts, Readable text.toList) : Inside (join ", " texts).toList :=
  inside_join (.inl rfl) fun text htext => (h text htext).inside

theorem toList_subscript (head inner : String) :
    (head ++ "[" ++ inner ++ "]").toList = head.toList ++ '[' :: (inner.toList ++ [']']) := by
  simp

theorem readable_generic {head inner : String} (hhead : isPlainWord head = true)
    (h : Inside inner.toList) :
    Readable (head ++ "[" ++ inner ++ "]").toList
      ∧ Uncut unionBrackets '|' 0 (head ++ "[" ++ inner ++ "]").toList := by
  rw [toList_subscript]
  exact readable_subscript hhead h

theorem normalizeName_plain {name : String} (h : isPlainWord name = true) :
    String.ofList (normalizeName name.toList) = name := by
  rw [(readable_word h).1.normalizeName, String.ofList_toList]

theorem isGenericHead_iff {head : String} : isGenericHead head = true ↔
    isPlainWord head = true ∧ normalizeTypeHead head.toList = head.toList
      ∧ head ∉ ["Annotated", "Unpack", "Callable", "Union"] := by
  simp only [isGenericHead, Bool.and_eq_true, decide_eq_true_eq, and_assoc]

mutual

/-- A rendered expression is readable, and cut nowhere unless it is a union with bars. -/
theorem readable_render : ∀ expr : TypeExpr, expr.isPlain = true →
    Readable expr.render.toList
      ∧ (expr.isShorthand = false → Uncut unionBrackets '|' 0 expr.render.toList)
  | .name name, h => by
    rw [TypeExpr.isPlain] at h
    rw [TypeExpr.render, normalizeName_plain h]
    exact ⟨(readable_word h).1, fun _ => (readable_word h).2⟩
  | .generic head args, h => by
    rw [TypeExpr.isPlain, Bool.and_eq_true, isGenericHead_iff] at h
    have hargs := readable_renderAll args h.2
    rw [TypeExpr.render, h.1.2.1, String.ofList_toList]
    obtain ⟨hreadable, hbar⟩ := readable_generic h.1.1 (inside_args hargs)
    exact ⟨hreadable, fun _ => hbar⟩
  | .callable params returnType, h => by
    rw [TypeExpr.isPlain, Bool.and_eq_true] at h
    have hparams := readable_renderParams params h.1
    have hreturn := (readable_render returnType h.2).1
    have hinside : Inside (params.render ++ ", " ++ returnType.render).toList := by
      rw [String.toList_append, String.toList_append]
      exact (hparams.inside.append (inside_separator (.inl rfl))).append hreturn.inside
    obtain ⟨hreadable, hbar⟩ :=
      @readable_generic "Callable" (params.render ++ ", " ++ returnType.render) rfl hinside
    have hshape : (TypeExpr.callable params returnType).render
        = "Callable" ++ "[" ++ (params.render ++ ", " ++ returnType.render) ++ "]" := by
      rw [TypeExpr.render, ← String.append_assoc, ← String.append_assoc]
      rfl
    rw [hshape]
    exact ⟨hreadable, fun _ => hbar⟩
  | .union branches .explicit, h => by
    rw [TypeExpr.isPlain] at h
    have hbranches := readable_renderAll branches h
    obtain ⟨hreadable, hbar⟩ := @readable_generic "Union" _ rfl (inside_args hbranches)
    exact ⟨hreadable, fun _ => hbar⟩
  | .union branches .shorthand, h => by
    simp only [TypeExpr.isPlain, Bool.and_eq_true, decide_eq_true_eq] at h
    have hbranches := readable_renderAll branches h.1.2
    rw [TypeExpr.render]
    refine ⟨readable_join ?_ hbranches, fun hshorthand => ?_⟩
    · intro hnil
      rw [renderAll_eq_map, List.map_eq_nil_iff] at hnil
      rw [hnil] at h
      exact Nat.not_lt_zero 1 h.1.1
    · rw [TypeExpr.isShorthand] at hshorthand
      cases hshorthand
  | .annotated _ _, h => by cases h
  | .unpack inner, h => by
    rw [TypeExpr.isPlain] at h
    obtain ⟨hreadable, hbar⟩ :=
      @readable_generic "Unpack" _ rfl (readable_render inner h).1.inside
    exact ⟨hreadable, fun _ => hbar⟩

theorem readable_renderParams : ∀ params : CallableParamExpr, params.isPlain = true →
    Readable params.render.toList
  | .ellipsis, _ => (@readable_word "..." rfl).1
  | .paramList types, h => by
    rw [CallableParamExpr.isPlain] at h
    have htypes := (readable_bracketed (inside_args (readable_renderAll types h))).1
    rw [CallableParamExpr.render, String.toList_append, String.toList_append, List.append_assoc]
    exact htypes
  | .concatenate types, h => by
    rw [CallableParamExpr.isPlain] at h
    exact (@readable_generic "Concatenate" _ rfl (inside_args (readable_renderAll types h))).1
  | .single expr, h => by
    cases expr with
    | name name =>
      simp only [CallableParamExpr.isPlain, Bool.and_eq_true] at h
      rw [CallableParamExpr.render, TypeExpr.render, normalizeName_plain h.1]
      exact (readable_word h.1).1
    | _ => cases h

theorem readable_renderAll : ∀ exprs : List TypeExpr, allPlain exprs = true →
    ∀ text ∈ renderAll exprs, Readable text.toList
  | [], _ => by
    intro text htext
    cases htext
  | expr :: rest, h => by
    rw [allPlain, Bool.and_eq_true] at h
    rw [renderAll, List.forall_mem_cons]
    exact ⟨(readable_render expr h.1).1, readable_renderAll rest h.2⟩

end

/-! ## Taking texts apart -/

theorem splitTopLevelTypeArgs_join (h : ∀ text ∈ texts, Readable text.toList) :
    splitTopLevelTypeArgs (join ", " texts).toList = texts.map String.toList := by
  unfold splitTopLevelTypeArgs
  by_cases hnil : texts = []
  · rw [hnil]
    rfl
  · have hsplit := @split_join argBrackets ',' ", " [] [' '] rfl (by simp) (by simp [isWhitespace]) uncut_nil
      (uncut_char rfl rfl (.inl (by decide))) texts hnil
      fun text htext => ⟨(h text htext).solid, (h text htext).args⟩
    rw [hsplit]
    -- the last part is not empty
    have hlast : (texts.map String.toList).getLast? ≠ some [] := by
      intro hempty
      obtain ⟨text, htext, hchars⟩ := List.mem_map.1 (List.mem_of_getLast? hempty)
      exact (h text htext).solid.ne_nil hchars
    simp only [hlast, if_false]

theorem splitTopLevelUnionBranches_join (hne : texts ≠ [])
    (h : ∀ text ∈ texts, Readable text.toList ∧ Uncut unionBrackets '|' 0 text.toList) :
    splitTopLevelUnionBranches (join " | " texts).toList = texts.map String.toList :=
  @split_join unionBrackets '|' " | " [' '] [' '] rfl (by simp [isWhitespace]) (by simp [isWhitespace])
    (uncut_char rfl rfl (.inl (by decide))) (uncut_char rfl rfl (.inl (by decide))) texts hne
    fun text htext => ⟨(h text htext).1.solid, (h text htext).2⟩

theorem splitTopLevelUnionBranches_uncut (h : Readable text)
    (hbar : Uncut unionBrackets '|' 0 text) : splitTopLevelUnionBranches text = [text] := by
  rw [splitTopLevelUnionBranches, splitTopLevel_uncut hbar, List.map_singleton, h.solid.trim_eq]

theorem bracket_not_mem {word : String} (h : isPlainWord word = true) : '[' ∉ word.toList := by
  intro hmem
  exact (isPlainChar_spec ((isPlainWord_iff.1 h).2.1 _ hmem)).2.1 rfl

theorem stripSuffix_append (text suffix : Chars) : stripSuffix suffix (text ++ suffix) = some text := by
  rw [stripSuffix, List.isSuffixOf?_eq_some_iff_append_eq]

theorem subscriptParts_subscript {head : Chars} (h : '[' ∉ head) (inner : Chars) :
    subscriptParts (head ++ '[' :: (inner ++ [']'])) = some (head, inner) := by
  unfold subscriptParts
  rw [splitOnce_concat h]
  simp only [Option.bind_some, stripSuffix_append, Option.map_some]

/-- The text inside the brackets of a head, for that head only. -/
theorem subscriptOf_subscript {word : String} {head : Chars} (hword : '[' ∉ word.toList)
    (h : '[' ∉ head) (inner : Chars) :
    subscriptOf word (head ++ '[' :: (inner ++ [']']))
      = if head = word.toList then some inner else none := by
  unfold subscriptOf
  split
  · rename_i heq
    have hshape : head ++ '[' :: (inner ++ [']']) = (word.toList ++ ['[']) ++ (inner ++ [']']) := by
      rw [heq, List.append_assoc]
      rfl
    rw [hshape, stripPrefix_append, Option.bind_some, stripSuffix_append]
  · rename_i hne
    rw [Option.bind_eq_none_iff]
    intro rest hrest
    have heq := eq_of_stripPrefix hrest
    rw [List.append_assoc, List.singleton_append] at heq
    have hsplit := splitOnce_concat h (inner ++ [']'])
    rw [heq, splitOnce_concat hword] at hsplit
    exact absurd (congrArg Prod.fst (Option.some.inj hsplit)).symm hne

theorem subscriptOf_word {word : String} {text : Chars} (h : '[' ∉ text) :
    subscriptOf word text = none := by
  unfold subscriptOf
  rw [Option.bind_eq_none_iff]
  intro rest hrest
  rw [eq_of_stripPrefix hrest] at h
  simp at h

theorem subscriptParts_word {text : Chars} (h : '[' ∉ text) : subscriptParts text = none := by
  unfold subscriptParts
  rw [splitOnce_of_notMem h]
  rfl

/-! ## Reading back -/

theorem length_le_join {sep : String} {texts : List String} {text : String} (h : text ∈ texts) :
    text.toList.length ≤ (join sep texts).toList.length := by
  induction texts with
  | nil => cases h
  | cons first rest ih =>
    cases rest with
    | nil =>
      rw [List.mem_singleton.1 h]
      exact Nat.le_refl _
    | cons next others =>
      simp only [join, String.toList_append, List.length_append]
      rcases List.mem_cons.1 h with rfl | hrest
      · omega
      · have := ih hrest
        omega

/-- Of two or more texts each is shorter than the join by a separator. -/
theorem length_add_le_join {sep : String} {texts : List String} (hlength : 1 < texts.length)
    {text : String} (h : text ∈ texts) :
    text.toList.length + sep.toList.length ≤ (join sep texts).toList.length := by
  cases texts with
  | nil => cases h
  | cons first rest =>
    cases rest with
    | nil => exact absurd hlength (Nat.lt_irrefl 1)
    | cons next others =>
      simp only [join, String.toList_append, List.length_append]
      rcases List.mem_cons.1 h with rfl | hrest
      · omega
      · have := @length_le_join sep _ _ hrest
        omega

theorem trim_join_ne_nil {sep : String} {text : String} {rest : List String}
    (h : Solid text.toList) : trim (join sep (text :: rest)).toList ≠ [] := by
  obtain ⟨c, others, htext, hc⟩ := h.first
  have hjoin : ∃ tail, (join sep (text :: rest)).toList = c :: tail := by
    cases rest with
    | nil => exact ⟨others, htext⟩
    | cons next more =>
      rw [join, String.toList_append, String.toList_append, htext]
      exact ⟨_, rfl⟩
  obtain ⟨tail, htail⟩ := hjoin
  rw [htail]
  exact trim_cons_ne_nil hc tail

/-- What a call of the parser does with each of several texts. -/
theorem parseAll_eq {fuel : Nat}
    (h : ∀ expr ∈ exprs, parseTypeExpr fuel expr.render.toList = some expr) :
    ((renderAll exprs).map String.toList).map (fun part =>
      (parseTypeExpr fuel part).getD (.name (String.ofList (normalizeName part)))) = exprs := by
  rw [renderAll_eq_map, List.map_map, List.map_map]
  conv_rhs => rw [← List.map_id exprs]
  apply List.map_congr_left
  intro expr hexpr
  simp only [Function.comp_apply, h expr hexpr, Option.getD_some, id_eq]

theorem parseTypeExpr_word {name : String} (h : isPlainWord name = true) (fuel : Nat) :
    parseTypeExpr (fuel + 1) name.toList = some (.name name) := by
  obtain ⟨hreadable, hbar⟩ := readable_word h
  have hbracket := bracket_not_mem h
  rw [parseTypeExpr]
  simp only [hreadable.normalizeName, hreadable.solid.ne_nil,
    splitTopLevelUnionBranches_uncut hreadable hbar, subscriptOf_word hbracket,
    subscriptParts_word hbracket, List.length_singleton, Option.map_none, String.ofList_toList,
    if_false, Nat.lt_irrefl]

section

variable {fuel : Nat}

theorem subscriptOf_other {head word : String} (hhead : isPlainWord head = true)
    (hword : '[' ∉ word.toList) (hne : head ≠ word) (inner : Chars) :
    subscriptOf word (head.toList ++ '[' :: (inner ++ [']'])) = none := by
  rw [subscriptOf_subscript hword (bracket_not_mem hhead),
    if_neg fun heq => hne (String.toList_inj.1 heq)]

theorem subscriptOf_self {word : String} (hword : '[' ∉ word.toList) (inner : Chars) :
    subscriptOf word (word.toList ++ '[' :: (inner ++ [']'])) = some inner := by
  rw [subscriptOf_subscript hword hword, if_pos rfl]

/-- A head whose brackets hold arguments. -/
theorem parseTypeExpr_generic {head : String} (hhead : isGenericHead head = true)
    (htexts : ∀ text ∈ texts, Readable text.toList) :
    parseTypeExpr (fuel + 1) (head.toList ++ '[' :: ((join ", " texts).toList ++ [']']))
      = some (.generic head ((texts.map String.toList).map fun part =>
          (parseTypeExpr fuel part).getD (.name (String.ofList (normalizeName part))))) := by
  obtain ⟨hword, hnormal, hspecial⟩ := isGenericHead_iff.1 hhead
  simp only [List.mem_cons, List.not_mem_nil, or_false, not_or] at hspecial
  obtain ⟨hreadable, hbar⟩ := readable_subscript hword (inside_args htexts)
  have hannotated := @subscriptOf_other head "Annotated" hword (by decide) hspecial.1
    (join ", " texts).toList
  have hunpack := @subscriptOf_other head "Unpack" hword (by decide) hspecial.2.1
    (join ", " texts).toList
  have hcallable := @subscriptOf_other head "Callable" hword (by decide) hspecial.2.2.1
    (join ", " texts).toList
  have hunion := @subscriptOf_other head "Union" hword (by decide) hspecial.2.2.2
    (join ", " texts).toList
  rw [parseTypeExpr]
  simp only [hreadable.normalizeName, hreadable.solid.ne_nil,
    splitTopLevelUnionBranches_uncut hreadable hbar, hannotated, hunpack, hcallable, hunion,
    subscriptParts_subscript (bracket_not_mem hword), List.length_singleton, if_false,
    Nat.lt_irrefl, Option.map_none, splitTopLevelTypeArgs_join htexts, hnormal,
    String.ofList_toList]

theorem parseTypeExpr_unpack {inner : Chars} (hinner : Inside inner) :
    parseTypeExpr (fuel + 1) ("Unpack".toList ++ '[' :: (inner ++ [']']))
      = (parseTypeExpr fuel inner).map .unpack := by
  obtain ⟨hreadable, hbar⟩ := @readable_subscript "Unpack" rfl inner hinner
  have hannotated := @subscriptOf_other "Unpack" "Annotated" rfl (by decide) (by decide) inner
  have hunpack := @subscriptOf_self "Unpack" (by decide) inner
  rw [parseTypeExpr]
  simp only [hreadable.normalizeName, hreadable.solid.ne_nil,
    splitTopLevelUnionBranches_uncut hreadable hbar, hannotated, hunpack, List.length_singleton,
    if_false, Nat.lt_irrefl]

theorem parseTypeExpr_callable {params returnType : String} (hparams : Readable params.toList)
    (hreturn : Readable returnType.toList) :
    parseTypeExpr (fuel + 1)
        ("Callable".toList ++ '[' :: ((join ", " [params, returnType]).toList ++ [']']))
      = (parseCallableParamExpr fuel params.toList).bind fun params =>
          (parseTypeExpr fuel returnType.toList).map fun returnType =>
            .callable params returnType := by
  have htexts : ∀ text ∈ [params, returnType], Readable text.toList := by
    rw [List.forall_mem_cons, List.forall_mem_singleton]
    exact ⟨hparams, hreturn⟩
  obtain ⟨hreadable, hbar⟩ := @readable_subscript "Callable" rfl _ (inside_args htexts)
  have hsplit := splitTopLevelTypeArgs_join htexts
  generalize (join ", " [params, returnType]).toList = inner at *
  have hannotated := @subscriptOf_other "Callable" "Annotated" rfl (by decide) (by decide) inner
  have hunpack := @subscriptOf_other "Callable" "Unpack" rfl (by decide) (by decide) inner
  have hcallable := @subscriptOf_self "Callable" (by decide) inner
  rw [parseTypeExpr]
  simp only [hreadable.normalizeName, hreadable.solid.ne_nil,
    splitTopLevelUnionBranches_uncut hreadable hbar, hannotated, hunpack, hcallable,
    List.length_singleton, if_false, Nat.lt_irrefl, Option.map_some, hsplit, List.map_cons,
    List.map_nil]

theorem parseTypeExpr_union (htexts : ∀ text ∈ texts, Readable text.toList) :
    parseTypeExpr (fuel + 1) ("Union".toList ++ '[' :: ((join ", " texts).toList ++ [']']))
      = some (.union ((texts.map String.toList).map fun part =>
          (parseTypeExpr fuel part).getD (.name (String.ofList (normalizeName part))))
            .explicit) := by
  obtain ⟨hreadable, hbar⟩ := @readable_subscript "Union" rfl _ (inside_args htexts)
  have hsplit := splitTopLevelTypeArgs_join htexts
  generalize (join ", " texts).toList = inner at *
  have hannotated := @subscriptOf_other "Union" "Annotated" rfl (by decide) (by decide) inner
  have hunpack := @subscriptOf_other "Union" "Unpack" rfl (by decide) (by decide) inner
  have hcallable := @subscriptOf_other "Union" "Callable" rfl (by decide) (by decide) inner
  have hunion := @subscriptOf_self "Union" (by decide) inner
  rw [parseTypeExpr]
  simp only [hreadable.normalizeName, hreadable.solid.ne_nil,
    splitTopLevelUnionBranches_uncut hreadable hbar, hannotated, hunpack, hcallable, hunion,
    List.length_singleton, if_false, Nat.lt_irrefl, Option.map_none, hsplit]

/-- Two or more branches with bars between them. -/
theorem parseTypeExpr_shorthand (hlength : 1 < texts.length)
    (htexts : ∀ text ∈ texts, Readable text.toList ∧ Uncut unionBrackets '|' 0 text.toList) :
    parseTypeExpr (fuel + 1) (join " | " texts).toList
      = some (.union ((texts.map String.toList).map fun part =>
          (parseTypeExpr fuel part).getD (.name (String.ofList (normalizeName part))))
            .shorthand) := by
  have hne : texts ≠ [] := by
    rintro rfl
    exact Nat.not_lt_zero 1 hlength
  have hreadable := readable_join hne fun text htext => (htexts text htext).1
  have hsplit := splitTopLevelUnionBranches_join hne htexts
  rw [parseTypeExpr]
  simp only [hreadable.normalizeName, hreadable.solid.ne_nil, hsplit, List.length_map, hlength,
    if_false, if_true]

theorem render_mem_renderAll {expr : TypeExpr} (h : expr ∈ exprs) :
    expr.render ∈ renderAll exprs := by
  rw [renderAll_eq_map]
  exact List.mem_map_of_mem h

/-- The expressions in the brackets of a text are read back when the parser has fuel for them. -/
theorem parseAll_args (hplain : allPlain exprs = true)
    (hparse : ∀ expr : TypeExpr, expr.isPlain = true → 2 * expr.render.toList.length < fuel →
      parseTypeExpr fuel expr.render.toList = some expr)
    (hfuel : 2 * (join ", " (renderAll exprs)).toList.length < fuel) :
    ((renderAll exprs).map String.toList).map (fun part =>
      (parseTypeExpr fuel part).getD (.name (String.ofList (normalizeName part)))) = exprs := by
  apply parseAll_eq
  intro expr hexpr
  have := @length_le_join ", " _ _ (render_mem_renderAll hexpr)
  exact hparse expr (isPlain_of_mem hplain hexpr) (by omega)

/-- One call of the parser on a rendered expression. -/
theorem parseTypeExpr_render_succ
    (hparse : ∀ expr : TypeExpr, expr.isPlain = true → 2 * expr.render.toList.length < fuel →
      parseTypeExpr fuel expr.render.toList = some expr)
    (hparams : ∀ params : CallableParamExpr, params.isPlain = true →
      2 * params.render.toList.length + 1 < fuel →
        parseCallableParamExpr fuel params.render.toList = some params)
    {expr : TypeExpr} (h : expr.isPlain = true)
    (hfuel : 2 * expr.render.toList.length < fuel + 1) :
    parseTypeExpr (fuel + 1) expr.render.toList = some expr := by
  cases expr with
  | name name =>
    rw [TypeExpr.isPlain] at h
    rw [TypeExpr.render, normalizeName_plain h]
    exact parseTypeExpr_word h fuel
  | generic head args =>
    rw [TypeExpr.isPlain, Bool.and_eq_true] at h
    have htext : (TypeExpr.generic head args).render.toList
        = head.toList ++ '[' :: ((join ", " (renderAll args)).toList ++ [']']) := by
      rw [TypeExpr.render, (isGenericHead_iff.1 h.1).2.1, String.ofList_toList, toList_subscript]
    rw [htext] at hfuel ⊢
    simp only [List.length_append, List.length_cons, List.length_nil] at hfuel
    rw [parseTypeExpr_generic h.1 (readable_renderAll args h.2),
      parseAll_args h.2 hparse (by omega)]
  | callable params returnType =>
    rw [TypeExpr.isPlain, Bool.and_eq_true] at h
    have htext : (TypeExpr.callable params returnType).render.toList
        = "Callable".toList
          ++ '[' :: ((join ", " [params.render, returnType.render]).toList ++ [']']) := by
      rw [render_callable, toList_subscript]
    rw [htext] at hfuel ⊢
    have hparamsLength := @length_le_join ", " [params.render, returnType.render] params.render
      (by simp)
    have hreturnLength := @length_le_join ", " [params.render, returnType.render]
      returnType.render (by simp)
    simp only [List.length_append, List.length_cons, List.length_nil] at hfuel
    rw [parseTypeExpr_callable (readable_renderParams params h.1) (readable_render returnType h.2).1,
      hparams params h.1 (by omega), hparse returnType h.2 (by omega)]
    rfl
  | union branches style =>
    cases style with
    | explicit =>
      rw [TypeExpr.isPlain] at h
      rw [render_union_explicit, toList_subscript] at hfuel ⊢
      simp only [List.length_append, List.length_cons, List.length_nil] at hfuel
      rw [parseTypeExpr_union (readable_renderAll branches h), parseAll_args h hparse (by omega)]
    | shorthand =>
      simp only [TypeExpr.isPlain, Bool.and_eq_true, decide_eq_true_eq] at h
      rw [TypeExpr.render] at hfuel ⊢
      have hlength : 1 < (renderAll branches).length := by
        rw [renderAll_eq_map, List.length_map]
        exact h.1.1
      have htexts : ∀ text ∈ renderAll branches,
          Readable text.toList ∧ Uncut unionBrackets '|' 0 text.toList := by
        intro text htext
        rw [renderAll_eq_map] at htext
        obtain ⟨branch, hbranch, rfl⟩ := List.mem_map.1 htext
        have hspec := readable_render branch (isPlain_of_mem h.1.2 hbranch)
        have hshorthand := List.all_eq_true.1 h.2 branch hbranch
        exact ⟨hspec.1, hspec.2 (by simpa using hshorthand)⟩
      have hbranches := parseAll_eq fun branch hbranch => by
        -- a branch is shorter than the union by a bar
        have := @length_add_le_join " | " _ hlength _ (render_mem_renderAll hbranch)
        have hbar : " | ".toList.length = 3 := rfl
        exact hparse branch (isPlain_of_mem h.1.2 hbranch) (by omega)
      rw [parseTypeExpr_shorthand hlength htexts, hbranches]
  | annotated _ _ => cases h
  | unpack inner =>
    rw [TypeExpr.isPlain] at h
    rw [render_unpack, toList_subscript] at hfuel ⊢
    simp only [List.length_append, List.length_cons, List.length_nil] at hfuel
    rw [parseTypeExpr_unpack (readable_render inner h).1.inside, hparse inner h (by omega)]
    rfl

/-- One call of the parser of parameters. -/
theorem parseCallableParamExpr_render_succ
    (hparse : ∀ expr : TypeExpr, expr.isPlain = true → 2 * expr.render.toList.length < fuel →
      parseTypeExpr fuel expr.render.toList = some expr)
    {params : CallableParamExpr} (h : params.isPlain = true)
    (hfuel : 2 * params.render.toList.length + 1 < fuel + 1) :
    parseCallableParamExpr (fuel + 1) params.render.toList = some params := by
  have hreadable := readable_renderParams params h
  cases params with
  | ellipsis =>
    rw [CallableParamExpr.render, parseCallableParamExpr]
    rfl
  | paramList types =>
    rw [CallableParamExpr.isPlain] at h
    have htexts := readable_renderAll types h
    have htext : (CallableParamExpr.paramList types).render.toList
        = '[' :: ((join ", " (renderAll types)).toList ++ [']']) := by
      rw [render_paramList, toList_subscript]
      rfl
    rw [htext] at hreadable hfuel ⊢
    simp only [List.length_append, List.length_cons, List.length_nil] at hfuel
    have htypes := parseAll_args h hparse (by omega)
    have hdots : '[' :: ((join ", " (renderAll types)).toList ++ [']']) ≠ "...".toList := by
      intro heq
      cases heq
    have hinner : (stripPrefix ['['] ('[' :: ((join ", " (renderAll types)).toList ++ [']']))).bind
        (stripSuffix [']']) = some (join ", " (renderAll types)).toList := by
      have hopened := stripPrefix_append ['['] ((join ", " (renderAll types)).toList ++ [']'])
      rw [List.singleton_append] at hopened
      rw [hopened, Option.bind_some, stripSuffix_append]
    rw [parseCallableParamExpr]
    simp only [hreadable.normalizeName, hdots, hinner, splitTopLevelTypeArgs_join htexts, htypes,
      if_false, reduceCtorEq]
    -- no types at all are read as an empty list too
    split
    · rename_i hempty
      cases types with
      | nil => rfl
      | cons first rest =>
        have hsolid := htexts first.render (by rw [renderAll]; exact List.mem_cons_self)
        exact absurd hempty (trim_join_ne_nil hsolid.solid)
    · rfl
  | concatenate types =>
    rw [CallableParamExpr.isPlain] at h
    have htexts := readable_renderAll types h
    have htext : (CallableParamExpr.concatenate types).render.toList
        = "Concatenate".toList ++ '[' :: ((join ", " (renderAll types)).toList ++ [']']) := by
      rw [CallableParamExpr.render, ← toList_subscript]
      rfl
    rw [htext] at hreadable hfuel ⊢
    simp only [List.length_append, List.length_cons, List.length_nil] at hfuel
    have htypes := parseAll_args h hparse (by omega)
    have hsplit := splitTopLevelTypeArgs_join htexts
    generalize (join ", " (renderAll types)).toList = inner at *
    have hconcatenate := @subscriptOf_self "Concatenate" (by decide) inner
    have hdots : "Concatenate".toList ++ '[' :: (inner ++ [']']) ≠ "...".toList := by
      intro heq
      cases heq
    have hlist : (stripPrefix ['['] ("Concatenate".toList ++ '[' :: (inner ++ [']']))).bind
        (stripSuffix [']']) = none := rfl
    rw [parseCallableParamExpr]
    simp only [hreadable.normalizeName, hreadable.solid.ne_nil, hdots, hlist, hconcatenate, hsplit,
      htypes, if_false]
  | single expr =>
    cases expr with
    | name name =>
      simp only [CallableParamExpr.isPlain, Bool.and_eq_true, decide_eq_true_eq] at h
      have hparsed := hparse (.name name) (by rw [TypeExpr.isPlain]; exact h.1) (by
        rw [CallableParamExpr.render] at hfuel
        omega)
      rw [TypeExpr.render, normalizeName_plain h.1] at hparsed
      rw [CallableParamExpr.render, TypeExpr.render, normalizeName_plain h.1] at hreadable ⊢
      have hbracket := bracket_not_mem h.1
      have hdots : name.toList ≠ "...".toList := fun heq => h.2 (String.toList_inj.1 heq)
      have hlist : (stripPrefix ['['] name.toList).bind (stripSuffix [']']) = none := by
        rw [Option.bind_eq_none_iff]
        intro rest hrest
        rw [eq_of_stripPrefix hrest] at hbracket
        simp at hbracket
      rw [parseCallableParamExpr]
      simp only [hreadable.normalizeName, hreadable.solid.ne_nil, hdots, hlist,
        subscriptOf_word hbracket, hparsed, if_false, Option.map_some]
    | _ => cases h

end

theorem parseTypeExpr_render (fuel : Nat) :
    (∀ expr : TypeExpr, expr.isPlain = true → 2 * expr.render.toList.length < fuel →
        parseTypeExpr fuel expr.render.toList = some expr)
      ∧ ∀ params : CallableParamExpr, params.isPlain = true →
          2 * params.render.toList.length + 1 < fuel →
            parseCallableParamExpr fuel params.render.toList = some params := by
  induction fuel with
  | zero =>
    constructor
    · intro expr _ hfuel
      exact absurd hfuel (Nat.not_lt_zero _)
    · intro params _ hfuel
      exact absurd hfuel (Nat.not_lt_zero _)
  | succ fuel ih =>
    constructor
    · intro expr h hfuel
      exact parseTypeExpr_render_succ ih.1 ih.2 h hfuel
    · intro params h hfuel
      exact parseCallableParamExpr_render_succ ih.1 h hfuel

/-- A plain expression is read back from its text. -/
theorem parse_render {expr : TypeExpr} (h : expr.isPlain = true) :
    TypeExpr.parse expr.render = some expr := by
  have hstar := (readable_render expr h).1.noStar
  have hnormalized : normalizeSourceVariadicTypeSyntax expr.render.toList = expr.render.toList :=
    normalizeVariadicFrom_eq _ _ _ hstar
  rw [TypeExpr.parse, hnormalized]
  exact (parseTypeExpr_render _).1 expr h (by unfold parseFuel; omega)

end TypePython.Syntax
