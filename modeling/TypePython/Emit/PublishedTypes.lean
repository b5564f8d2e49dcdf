import TypePython.Emit.StubTypes
import TypePython.Syntax.CheckerOnlyWords
import TypePython.Syntax.ReadBack

/-!
# What a stub publishes

A stub is fit to be published when none of its types is one of the checker's own, whatever they
were written for stands in their places, and `Any` is imported where it is named. The step that
rewrites the types of an emitted stub gets there for the positions it visits and for the texts it
reads as Python does (`published_iff`).
-/

namespace TypePython.Emit

open TypePython.Lib
open TypePython.Lib.Text
open TypePython.Syntax

/-! ## Type positions -/

def StubTypeParam.positions (param : StubTypeParam) : List TextRange :=
  param.bound.toList ++ param.default.toList

section Positions

variable (read : Chars → Option TypeExpr) (source : Chars)

/-- `TypeAlias`, with or without its module in front. -/
def declaresAlias ( annotation : TextRange) : Bool :=
  isTypeAliasAnnotation source annotation
    || (read (slice source annotation)).any fun expr => expr == .name "TypeAlias"

mutual

/-- Every position of a type in a statement, in the order of the text. -/
def typePositionsOfStmt : StubStmt → List TextRange
  | .functionDef _ _ typeParams parameters returns body =>
    typeParams.flatMap StubTypeParam.positions ++ parameters.annotations ++ returns.toList
      ++ typePositions body
  | .annAssign _ _ annotation value =>
    annotation :: (if declaresAlias read source annotation then value.toList else [])
  | .classDef typeParams args body =>
    typeParams.flatMap StubTypeParam.positions ++ args ++ typePositions body
  | .typeAlias typeParams value => typeParams.flatMap StubTypeParam.positions ++ [value]
  | .importFrom _ _ => []
  | .compound body => typePositions body
  | .other => []

def typePositions : List StubStmt → List TextRange
  | [] => []
  | stmt :: rest => typePositionsOfStmt stmt ++ typePositions rest

end

mutual

/-- The positions the collector looks at. -/
def visitedPositionsOfStmt : StubStmt → List TextRange
  | .functionDef _ _ _ parameters returns body =>
    parameters.annotations ++ returns.toList ++ visitedPositions body
  | .annAssign _ _ annotation value =>
    annotation :: (if isTypeAliasAnnotation source annotation then value.toList else [])
  | .classDef _ args body => args ++ visitedPositions body
  | .typeAlias _ _ => []
  | .importFrom _ _ => []
  | .compound _ => []
  | .other => []

def visitedPositions : List StubStmt → List TextRange
  | [] => []
  | stmt :: rest => visitedPositionsOfStmt stmt ++ visitedPositions rest

end

mutual

/-- The positions that are searched for the word `unknown`. -/
def searchedPositionsOfStmt : StubStmt → List TextRange
  | .functionDef _ _ _ parameters returns _ => returns.toList ++ parameters.annotations
  | .annAssign _ target annotation value =>
    if target = none then []
    else (if isTypeAliasAnnotation source annotation then value.toList else []) ++ [ annotation]
  | .classDef _ _ body => searchedPositions body
  | .typeAlias _ _ => []
  | .importFrom _ _ => []
  | .compound _ => []
  | .other => []

def searchedPositions : List StubStmt → List TextRange
  | [] => []
  | stmt :: rest => searchedPositionsOfStmt stmt ++ searchedPositions rest

end

mutual

theorem replacementsOfStmt_eq : (stmt : StubStmt) → intrinsicTypeReplacementsOfStmt source stmt
    = (visitedPositionsOfStmt source stmt).filterMap (replacementAt source)
  | .functionDef _ _ _ parameters returns body => by
    rw [intrinsicTypeReplacementsOfStmt, visitedPositionsOfStmt, List.filterMap_append,
      List.filterMap_append, replacements_eq body]
    rfl
  | .annAssign _ _ annotation value => by
    rw [intrinsicTypeReplacementsOfStmt, visitedPositionsOfStmt]
    cases hannotation : replacementAt source annotation with
    | none =>
      rw [List.filterMap_cons_none hannotation]
      split <;> rfl
    | some replacement =>
      rw [List.filterMap_cons_some hannotation]
      split <;> rfl
  | .classDef _ args body => by
    rw [intrinsicTypeReplacementsOfStmt, visitedPositionsOfStmt, List.filterMap_append,
      replacements_eq body]
  | .typeAlias _ _ => rfl
  | .importFrom _ _ => rfl
  | .compound _ => rfl
  | .other => rfl

theorem replacements_eq : (suite : List StubStmt) → collectIntrinsicTypeReplacements source suite
    = (visitedPositions source suite).filterMap (replacementAt source)
  | [] => rfl
  | stmt :: rest => by
    rw [collectIntrinsicTypeReplacements, visitedPositions, List.filterMap_append,
      replacementsOfStmt_eq stmt, replacements_eq rest]

end

mutual

theorem visitedPositionsOfStmt_sublist : (stmt : StubStmt) →
    List.Sublist (visitedPositionsOfStmt source stmt) (typePositionsOfStmt read source stmt)
  | .functionDef _ _ typeParams parameters returns body => by
    have hbody := visitedPositions_sublist body
    have hparameters := List.sublist_append_right
      (typeParams.flatMap StubTypeParam.positions) parameters.annotations
    rw [visitedPositionsOfStmt, typePositionsOfStmt]
    exact (hparameters.append (List.Sublist.refl _)).append hbody
  | .annAssign _ _ annotation value => by
    rw [visitedPositionsOfStmt, typePositionsOfStmt]
    refine List.Sublist.cons_cons annotation ?_
    split
    · next halias =>
        rw [if_pos (by rw [declaresAlias, halias, Bool.true_or])]
    · exact List.nil_sublist _
  | .classDef typeParams args body => by
    have hbody := visitedPositions_sublist body
    have hargs := List.sublist_append_right (typeParams.flatMap StubTypeParam.positions) args
    rw [visitedPositionsOfStmt, typePositionsOfStmt]
    exact hargs.append hbody
  | .typeAlias _ _ => List.nil_sublist _
  | .importFrom _ _ => List.nil_sublist _
  | .compound _ => List.nil_sublist _
  | .other => List.nil_sublist _

/-- What is visited is a type, and is visited in the order of the text. -/
theorem visitedPositions_sublist : (suite : List StubStmt) →
    List.Sublist (visitedPositions source suite) (typePositions read source suite)
  | [] => List.nil_sublist _
  | stmt :: rest => by
    rw [visitedPositions, typePositions]
    exact (visitedPositionsOfStmt_sublist stmt).append (visitedPositions_sublist rest)

end

end Positions

/-! ## Texts of types -/

/-- The new text of a type, when it differs from the old one. -/
def changedText (text : Chars) : Option Chars :=
  (normalizeIntrinsicTypeText text).filter fun replacement => text ≠ replacement

/-- What the type reader makes of a text. -/
def parsedText (text : Chars) : Option TypeExpr := TypeExpr.parse (String.ofList (trim text))

/-- The type reader finds nothing to rewrite, and takes the text for canonical or prints it as it
is. -/
def KeepsText (text : Chars) : Prop :=
  ∀ expr, parsedText text = some expr →
    expr.rewritesCheckerOnly = false
      ∧ (expr.render = normalizeTypeText (String.ofList text) ∨ expr.render.toList = text)

theorem changedText_eq (text : Chars) : changedText text
    = (parsedText text).bind fun expr =>
        if expr.normalizeCheckerOnly.render ≠ normalizeTypeText (String.ofList text)
            ∧ text ≠ expr.normalizeCheckerOnly.render.toList then
          some expr.normalizeCheckerOnly.render.toList
        else none := by
  unfold changedText normalizeIntrinsicTypeText normalizeCheckerOnlyTypeText parsedText
  rw [String.toList_ofList]
  cases TypeExpr.parse (String.ofList (trim text)) with
  | none => rfl
  | some expr =>
    simp only [Option.bind_some]
    by_cases hcanonical : expr.normalizeCheckerOnly.render = normalizeTypeText (String.ofList text)
    · simp [hcanonical]
    · by_cases hsame : text = expr.normalizeCheckerOnly.render.toList
      · simp [hcanonical, ← hsame]
      · simp [hcanonical, hsame]

variable {text : Chars}

/-- The checker's words of what a text is read as are those of the text. -/
theorem checkerWords_parsedText {expr : TypeExpr} (h : parsedText text = some expr) :
    checkerWords expr.render.toList = checkerWords text := by
  rw [checkerWords_parse h, String.toList_ofList, checkerWords_trim]

/-- What is rewritten has too few of the checker's words for the old text. -/
theorem render_ne_of_rewrites {expr : TypeExpr} (h : parsedText text = some expr)
    (hrewrites : expr.rewritesCheckerOnly = true) :
    expr.normalizeCheckerOnly.render ≠ normalizeTypeText (String.ofList text)
      ∧ text ≠ expr.normalizeCheckerOnly.render.toList := by
  have hfewer := checkerWords_normalizeCheckerOnly expr
  rw [if_pos hrewrites, checkerWords_parsedText h] at hfewer
  constructor
  · intro heq
    rw [heq, checkerWords_normalizeTypeText, String.toList_ofList] at hfewer
    omega
  · intro heq
    rw [← heq] at hfewer
    omega

theorem changedText_eq_none_iff (text : Chars) : changedText text = none ↔ KeepsText text := by
  rw [changedText_eq]
  constructor
  · intro hnone expr hexpr
    rw [hexpr, Option.bind_some] at hnone
    have hsame : ¬ (expr.normalizeCheckerOnly.render ≠ normalizeTypeText (String.ofList text)
        ∧ text ≠ expr.normalizeCheckerOnly.render.toList) := by
      intro hboth
      rw [if_pos hboth] at hnone
      cases hnone
    have hrewrites : expr.rewritesCheckerOnly = false := by
      by_contra hrewrites
      exact hsame (render_ne_of_rewrites hexpr (Bool.not_eq_false _ ▸ hrewrites))
    rw [normalizeCheckerOnly_eq expr hrewrites] at hsame
    refine ⟨hrewrites, ?_⟩
    by_contra hneither
    rw [not_or] at hneither
    exact hsame ⟨hneither.1, fun heq => hneither.2 heq.symm⟩
  · intro hkeeps
    cases hexpr : parsedText text with
    | none => rfl
    | some expr =>
      obtain ⟨hrewrites, hprinted⟩ := hkeeps expr hexpr
      rw [Option.bind_some, normalizeCheckerOnly_eq expr hrewrites, if_neg]
      rintro ⟨hcanonical, hsame⟩
      rcases hprinted with heq | heq
      · exact hcanonical heq
      · exact hsame heq.symm

/-- A type of the checker's own that is read as Python reads it is replaced. -/
theorem changedText_of_mentions {expr : TypeExpr} (h : parsedText text = some expr)
    (hmentions : expr.mentionsCheckerOnly = true)
    (hpublished : expr.published.mentionsCheckerOnly = false) :
    changedText text = some expr.published.render.toList := by
  have hrewrites : expr.rewritesCheckerOnly = true := by
    by_contra hrewrites
    have hsame := mentions_published expr (Bool.not_eq_true _ ▸ hrewrites)
    rw [hmentions, hpublished] at hsame
    cases hsame
  rw [changedText_eq, h, Option.bind_some, if_pos (render_ne_of_rewrites h hrewrites),
    render_published]

/-! ## Making the replacements -/

/-- The ranges of the replacements are positions the collector looks at. -/
theorem replacements_sublist (source : Chars) (suite : List StubStmt) :
    List.Sublist ((collectIntrinsicTypeReplacements source suite).map Prod.fst)
      (visitedPositions source suite) := by
  rw [replacements_eq, List.map_filterMap]
  induction visitedPositions source suite with
  | nil => exact List.Sublist.refl []
  | cons range rest ih =>
    cases hreplacement : normalizeIntrinsicTypeText (slice source range) with
    | none =>
      rw [List.filterMap_cons_none (by simp [replacementAt, hreplacement])]
      exact ih.cons range
    | some replacement =>
      rw [List.filterMap_cons_some (b := range) (by simp [replacementAt, hreplacement])]
      exact ih.cons_cons range

/-- Replacements that change nothing are left out. -/
theorem applyReplacements_eq {source : Chars} {replacements : List (TextRange × Chars)}
    (horder : InOrder (replacements.map Prod.fst))
    (hwithin : ∀ replacement ∈ replacements, replacement.1.stop ≤ source.length) :
    applyReplacements source replacements
      = (replaceRanges source (replacements.filter fun replacement =>
            slice source replacement.1 ≠ replacement.2),
          (replacements.filter fun replacement =>
            slice source replacement.1 ≠ replacement.2).any fun replacement =>
              occursIn "Any".toList replacement.2) := by
  unfold applyReplacements
  rw [horder.mergeSort_descending, List.foldl_reverse]
  induction replacements with
  | nil => rfl
  | cons replacement rest ih =>
    rw [List.forall_mem_cons] at hwithin
    have hafter : ∀ edit ∈ rest.filter fun replacement =>
        slice source replacement.1 ≠ replacement.2, replacement.1.stop ≤ edit.1.start :=
      fun edit hedit => horder.starts_after (List.mem_map_of_mem (List.mem_filter.1 hedit).1)
    -- the replacements behind have not touched the range yet
    have hslice : slice (replaceRanges source (rest.filter fun replacement =>
        slice source replacement.1 ≠ replacement.2)) replacement.1
        = slice source replacement.1 :=
      slice_congr (take_replaceRanges hwithin.1 hafter).1
    rw [List.foldr_cons, ih horder.tail hwithin.2]
    unfold applyReplacement
    rw [hslice]
    by_cases hsame : slice source replacement.1 = replacement.2
    · rw [if_pos hsame, List.filter_cons_of_neg (by simp [hsame])]
    · rw [if_neg hsame, List.filter_cons_of_pos (by simp [hsame]), List.any_cons, Bool.or_comm]
      rfl

/-! ## Comments -/

section Comments

variable (source : Chars)

mutual

theorem unknownCommentsOfStmt_eq_nil_iff : (stmt : StubStmt) →
    (unknownCommentsOfStmt source stmt = []
      ↔ ∀ range ∈ searchedPositionsOfStmt source stmt,
        typeTextContainsUnknown (slice source range) = false)
  | .functionDef _ _ _ parameters returns _ => by
    rw [unknownCommentsOfStmt, searchedPositionsOfStmt, ite_eq_right_iff]
    simp only [List.cons_ne_nil, imp_false, Bool.not_eq_true, List.any_eq_false]
  | .annAssign _ none _ _ => by
    rw [unknownCommentsOfStmt, searchedPositionsOfStmt, if_pos rfl]
    simp
  | .annAssign _ (some name) annotation value => by
    rw [unknownCommentsOfStmt, searchedPositionsOfStmt, if_neg (Option.some_ne_none name)]
    rw [ite_eq_right_iff]
    cases halias : isTypeAliasAnnotation source annotation with
    | true =>
      simp only [Bool.true_and, Bool.or_eq_true, List.any_eq_true, List.cons_ne_nil, imp_false,
        not_or, not_exists, not_and, Bool.not_eq_true, if_true, List.mem_append,
        List.mem_singleton, or_imp, forall_and, forall_eq]
    | false =>
      simp only [Bool.false_and, Bool.false_or, List.cons_ne_nil, imp_false, Bool.not_eq_true,
        Bool.false_eq_true, if_false, List.nil_append, List.mem_singleton, forall_eq]
  | .classDef _ _ body => by
    rw [unknownCommentsOfStmt, searchedPositionsOfStmt]
    exact unknownComments_eq_nil_iff body
  | .typeAlias _ _ => by simp [unknownCommentsOfStmt, searchedPositionsOfStmt]
  | .importFrom _ _ => by simp [unknownCommentsOfStmt, searchedPositionsOfStmt]
  | .compound _ => by simp [unknownCommentsOfStmt, searchedPositionsOfStmt]
  | .other => by simp [unknownCommentsOfStmt, searchedPositionsOfStmt]

/-- There are comments exactly when some searched text has the word. -/
theorem unknownComments_eq_nil_iff : (suite : List StubStmt) →
    (collectUnknownBoundaryComments source suite = []
      ↔ ∀ range ∈ searchedPositions source suite,
        typeTextContainsUnknown (slice source range) = false)
  | [] => by simp [collectUnknownBoundaryComments, searchedPositions]
  | stmt :: rest => by
    rw [collectUnknownBoundaryComments, searchedPositions, List.append_eq_nil_iff,
      unknownCommentsOfStmt_eq_nil_iff stmt, unknownComments_eq_nil_iff rest]
    simp only [List.mem_append, or_imp, forall_and]

end

/-- The line of a comment is one of the lines of the text. -/
theorem offsetToLine_le (offset : Nat) :
    offsetToLine source offset - 1 ≤ source.count '\n' := by
  have hsub : List.Sublist (source.take offset) source := List.take_sublist offset source
  unfold offsetToLine
  rw [Nat.add_sub_cancel]
  exact hsub.count_le '\n'

mutual

theorem unknownCommentsOfStmt_lines : (stmt : StubStmt) →
    ∀ comment ∈ unknownCommentsOfStmt source stmt, comment.1 - 1 ≤ source.count '\n'
  | .functionDef name nameStart _ parameters returns _, comment, h => by
    rw [unknownCommentsOfStmt] at h
    split at h
    · rw [List.mem_singleton.1 h]
      exact offsetToLine_le source nameStart
    · cases h
  | .annAssign _ none _ _, comment, h => by
    rw [unknownCommentsOfStmt] at h
    cases h
  | .annAssign start (some name) annotation value, comment, h => by
    rw [unknownCommentsOfStmt] at h
    split at h
    · rw [List.mem_singleton.1 h]
      exact offsetToLine_le source start
    · cases h
  | .classDef _ _ body, comment, h => by
    rw [unknownCommentsOfStmt] at h
    exact unknownComments_lines body comment h
  | .typeAlias _ _, _, h => by cases h
  | .importFrom _ _, _, h => by cases h
  | .compound _, _, h => by cases h
  | .other, _, h => by cases h

theorem unknownComments_lines : (suite : List StubStmt) →
    ∀ comment ∈ collectUnknownBoundaryComments source suite, comment.1 - 1 ≤ source.count '\n'
  | [], _, h => by cases h
  | stmt :: rest, comment, h => by
    rw [collectUnknownBoundaryComments, List.mem_append] at h
    rcases h with hstmt | hrest
    · exact unknownCommentsOfStmt_lines stmt comment hstmt
    · exact unknownComments_lines rest comment hrest

end

end Comments

/-- Every line feed ends a line, and what follows the last one is a line unless it is empty. -/
theorem count_lineFeeds_lt (text : Chars) : ∀ line : Chars,
    text.count '\n' + 1 ≤ (linesFrom line text).length
      + (if text.getLast? = some '\n' ∨ (text = [] ∧ line = []) then 1 else 0) := by
  induction text with
  | nil =>
    intro line
    by_cases hline : line = []
    · simp [linesFrom, hline]
    · simp [linesFrom, hline]
  | cons c rest ih =>
    intro line
    have hlast : (c :: rest).getLast? = some '\n' ↔ rest.getLast? = some '\n'
        ∨ (rest = [] ∧ c = '\n') := by
      cases rest with
      | nil => simp
      | cons d others => simp [List.getLast?_cons_cons]
    rw [linesFrom]
    by_cases hc : c = '\n'
    · have hrest := ih []
      rw [if_pos hc, hc, List.count_cons_self, List.length_cons]
      rw [hc] at hlast
      simp only [hlast, List.cons_ne_nil, false_and, or_false, and_true] at hrest ⊢
      omega
    · have hrest := ih (c :: line)
      rw [if_neg hc, List.count_cons_of_ne hc]
      simp only [hlast, hc, List.cons_ne_nil, false_and, and_false, or_false] at hrest ⊢
      exact hrest

theorem length_le_count_joinLines : ∀ lines : List Chars,
    lines.length ≤ (joinLines lines).count '\n' + 1
  | [] => Nat.zero_le _
  | [line] => by
    rw [joinLines, List.length_singleton]
    omega
  | line :: next :: rest => by
    have hrest := length_le_count_joinLines (next :: rest)
    rw [joinLines, List.count_append, List.count_cons_self, List.length_cons]
    omega

theorem length_insertComments (comments : List (Nat × Chars)) : ∀ lines : List Chars,
    (∀ comment ∈ comments, comment.1 - 1 ≤ lines.length) →
      (comments.foldl (insertComment 0) lines).length = lines.length + comments.length := by
  induction comments with
  | nil => exact fun lines _ => rfl
  | cons comment rest ih =>
    intro lines h
    rw [List.forall_mem_cons] at h
    have hlength : (insertComment 0 lines comment).length = lines.length + 1 := by
      unfold insertComment
      rw [Nat.add_zero, if_pos h.1, List.length_insertIdx, if_pos h.1]
    rw [List.foldl_cons, ih, hlength, List.length_cons]
    · omega
    · intro comment' hcomment
      have hle := h.2 comment' hcomment
      rw [hlength]
      omega

/-- Comments add lines. -/
theorem insertUnknownBoundaryComments_ne {source : Chars} {comments : List (Nat × Chars)}
    (hsource : source ≠ []) (hcomments : comments ≠ [])
    (hlines : ∀ comment ∈ comments, comment.1 - 1 ≤ source.count '\n') :
    insertUnknownBoundaryComments source comments 0 ≠ source := by
  intro heq
  have hcount := count_lineFeeds_lt source []
  rw [show linesFrom [] source = sourceLines source from rfl] at hcount
  simp only [hsource, false_and, or_false] at hcount
  unfold insertUnknownBoundaryComments at heq
  rw [if_neg hcomments] at heq
  dsimp only at heq
  have hperm := List.mergeSort_perm comments fun left right => decide (right.1 ≤ left.1)
  have hlength := length_insertComments (comments.mergeSort fun left right =>
    decide (right.1 ≤ left.1)) (sourceLines source) (by
      intro comment hcomment
      have hle := hlines comment (hperm.subset hcomment)
      split at hcount <;> omega)
  rw [hperm.length_eq] at hlength
  have hjoined := length_le_count_joinLines ((comments.mergeSort fun left right =>
    decide (right.1 ≤ left.1)).foldl (insertComment 0) (sourceLines source))
  have hsome : comments.length ≠ 0 := fun hzero => hcomments (List.length_eq_zero_iff.1 hzero)
  have hfeeds := congrArg (List.count '\n') heq
  rw [List.count_append] at hfeeds
  split at hcount
  · next hlast =>
      rw [if_pos hlast, List.count_singleton_self] at hfeeds
      omega
  · next hlast =>
      rw [if_neg hlast, List.count_nil] at hfeeds
      omega

/-! ## Emitted stubs -/

/-- The text of a stub before its types are rewritten, and its tree. `read` is what Python takes
the text of a type for, names in their standard spelling. -/
structure EmittedStub (read : Chars → Option TypeExpr) where
  source : Chars
  suite : List StubStmt
  inOrder : InOrder (typePositions read source suite)
  within : ∀ range ∈ typePositions read source suite, range.stop ≤ source.length
  readable : ∀ range ∈ typePositions read source suite,
    ∃ expr, read (slice source range) = some expr

/-- What the rewriting relies on: a type that can be written is read back from its printed text,
and can still be written with other names in the places of some types. -/
structure ReadsTypes (read : Chars → Option TypeExpr) : Prop where
  printed : ∀ text expr, read text = some expr → read expr.render.toList = some expr
  closed : ∀ text expr, read text = some expr → ∃ text', read text' = some expr.published

variable {range : TextRange}

namespace EmittedStub

variable {read : Chars → Option TypeExpr} (stub : EmittedStub read)

def positions : List TextRange := typePositions read stub.source stub.suite

def visited : List TextRange := visitedPositions stub.source stub.suite

def textAt (range : TextRange) : Chars := slice stub.source range

/-- The replacements that are made. -/
def edits : List (TextRange × Chars) :=
  stub.visited.filterMap fun range =>
    (changedText (stub.textAt range)).map fun replacement => (range, replacement)

/-- The text after the replacements. -/
def rewritten : Chars :=
  (applyReplacements stub.source (collectIntrinsicTypeReplacements stub.source stub.suite)).1

def introducedAny : Bool :=
  (applyReplacements stub.source (collectIntrinsicTypeReplacements stub.source stub.suite)).2

def addsImport : Bool := stub.introducedAny && !hasTypingAnyImport stub.rewritten

def normalized : Chars := normalizeEmittedStubIntrinsicTypes stub.source stub.suite

/-- The text that stands at the place of a position after the replacements. -/
def textAfter (range : TextRange) : Chars :=
  slice stub.rewritten (movedRange stub.edits range)

/-! ## What is to be published -/

/-- The type at a position is one of the checker's own, or holds one. -/
def Mentions (range : TextRange) : Prop :=
  ∃ expr, read (stub.textAt range) = some expr ∧ expr.mentionsCheckerOnly = true

/-- Some position names `Any` only, or also, in the place of a type of the checker's own. -/
def NeedsAny : Prop :=
  ∃ range ∈ stub.positions, ∃ expr, read (stub.textAt range) = some expr
    ∧ expr.mentionsCheckerOnly = true ∧ expr.published.names "Any" = true

/-- An import of the module itself binds the name `Any` to that of `typing`. -/
def BindsAny : Prop :=
  ∃ names, StubStmt.importFrom "typing" names ∈ stub.suite
    ∧ (("Any", none) ∈ names ∨ ("Any", some "Any") ∈ names)

def ImportsFuture : Prop := ∃ names, StubStmt.importFrom "__future__" names ∈ stub.suite

structure Published : Prop where
  /-- A type of the checker's own is replaced by what it stands for, any other text stays. -/
  replaced : ∀ range ∈ stub.positions, ∀ expr, read (stub.textAt range) = some expr →
    if expr.mentionsCheckerOnly then
      read (stub.textAfter range) = some expr.published
        ∧ expr.published.mentionsCheckerOnly = false
    else stub.textAfter range = stub.textAt range
  bound : stub.NeedsAny → stub.addsImport = true ∨ stub.BindsAny
  placed : stub.addsImport = true → ¬ stub.ImportsFuture
  untouched : (∀ range ∈ stub.positions, ¬ stub.Mentions range) →
    stub.normalized = stub.source

/-! ## When it is -/

/-- The type reader takes a visited type that holds one of the checker's own as Python does. -/
def ReadRight : Prop :=
  ∀ range ∈ stub.visited, ∀ expr, read (stub.textAt range) = some expr →
    expr.mentionsCheckerOnly = true → parsedText (stub.textAt range) = some expr

/-- What Python reads at a position is replaced by what it is to be published as. -/
def publishedText (text : Chars) : Option Chars :=
  (read text).bind fun expr =>
    if expr.mentionsCheckerOnly then some expr.published.render.toList else none

/-- The visited types that hold one of the checker's own, with what is published for them. -/
def publishedEdits : List (TextRange × Chars) :=
  stub.visited.filterMap fun range =>
    (@publishedText read (stub.textAt range)).map fun replacement => (range, replacement)

structure Publishable : Prop where
  /-- No position that is not visited holds a type of the checker's own. -/
  visits : ∀ range ∈ stub.positions, range ∉ stub.visited → ¬ stub.Mentions range
  keeps : ∀ range ∈ stub.visited, ¬ stub.Mentions range → KeepsText (stub.textAt range)
  /-- No type of the checker's own is taken for a generic one. -/
  publishes : ∀ range ∈ stub.visited, ∀ expr, read (stub.textAt range) = some expr →
    expr.mentionsCheckerOnly = true → expr.published.mentionsCheckerOnly = false
  /-- Where there is no type of the checker's own, the word `unknown` is not there either. -/
  unmarked : (∀ range ∈ stub.positions, ¬ stub.Mentions range) →
    ∀ range ∈ searchedPositions stub.source stub.suite,
      typeTextContainsUnknown (stub.textAt range) = false
  /-- Where a published type spells `Any`: if some line starts like an import from `typing` and
  spells `Any`, that name is bound when it is needed, otherwise nothing is imported from
  `__future__`. -/
  imports : (stub.publishedEdits.any fun edit => occursIn "Any".toList edit.2) = true →
    if hasTypingAnyImport (replaceRanges stub.source stub.publishedEdits) then
      stub.NeedsAny → stub.BindsAny
    else ¬ stub.ImportsFuture

/-! ## What the replacements do -/

theorem visited_sublist : List.Sublist stub.visited stub.positions :=
  visitedPositions_sublist read stub.source stub.suite

theorem inOrder_replacements : InOrder
    ((collectIntrinsicTypeReplacements stub.source stub.suite).map Prod.fst) :=
  stub.inOrder.sublist ((replacements_sublist stub.source stub.suite).trans stub.visited_sublist)

theorem edits_eq_filter : stub.edits
    = (collectIntrinsicTypeReplacements stub.source stub.suite).filter fun replacement =>
        slice stub.source replacement.1 ≠ replacement.2 := by
  rw [replacements_eq, List.filter_filterMap]
  unfold edits
  apply List.filterMap_congr
  intro range _
  unfold changedText replacementAt textAt
  cases normalizeIntrinsicTypeText (slice stub.source range) with
  | none => rfl
  | some replacement =>
    by_cases hsame : slice stub.source range = replacement
    · simp [Option.filter, hsame]
    · simp [Option.filter, hsame]

theorem mem_visited_of_replacement {replacement : TextRange × Chars}
    (h : replacement ∈ collectIntrinsicTypeReplacements stub.source stub.suite) :
    replacement.1 ∈ stub.visited := by
  rw [replacements_eq] at h
  obtain ⟨range, hrange, hreplacement⟩ := List.mem_filterMap.1 h
  obtain ⟨text, -, rfl⟩ := Option.map_eq_some_iff.1 hreplacement
  exact hrange

theorem applied : applyReplacements stub.source
    (collectIntrinsicTypeReplacements stub.source stub.suite)
      = (replaceRanges stub.source stub.edits,
          stub.edits.any fun edit => occursIn "Any".toList edit.2) := by
  rw [edits_eq_filter]
  apply applyReplacements_eq stub.inOrder_replacements
  intro replacement hreplacement
  exact stub.within _ (stub.visited_sublist.subset (stub.mem_visited_of_replacement hreplacement))

theorem rewritten_eq : stub.rewritten = replaceRanges stub.source stub.edits :=
  congrArg Prod.fst stub.applied

theorem introducedAny_eq :
    stub.introducedAny = stub.edits.any fun edit => occursIn "Any".toList edit.2 :=
  congrArg Prod.snd stub.applied

theorem mem_edits {replacement : Chars} : (range, replacement) ∈ stub.edits
    ↔ range ∈ stub.visited ∧ changedText (stub.textAt range) = some replacement := by
  unfold edits
  rw [List.mem_filterMap]
  constructor
  · rintro ⟨range', hrange, hedit⟩
    obtain ⟨text, htext, heq⟩ := Option.map_eq_some_iff.1 hedit
    obtain ⟨rfl, rfl⟩ := Prod.mk.inj heq
    exact ⟨hrange, htext⟩
  · rintro ⟨hrange, htext⟩
    exact ⟨range, hrange, by rw [htext]; rfl⟩

theorem inOrder_edits : InOrder (stub.edits.map Prod.fst) := by
  rw [edits_eq_filter]
  exact stub.inOrder_replacements.sublist (List.filter_sublist.map Prod.fst)

theorem within_edits : ∀ edit ∈ stub.edits, edit.1.stop ≤ stub.source.length := by
  intro edit hedit
  exact stub.within _ (stub.visited_sublist.subset (stub.mem_edits.1 hedit).1)

/-- After the replacements the new text stands at the place of its position. -/
theorem textAfter_of_changed (hvisited : range ∈ stub.visited) {replacement : Chars}
    (h : changedText (stub.textAt range) = some replacement) :
    stub.textAfter range = replacement := by
  unfold textAfter
  rw [rewritten_eq]
  exact slice_moved_of_mem stub.inOrder_edits stub.within_edits (stub.mem_edits.2 ⟨hvisited, h⟩)

/-- A position without a replacement keeps its text. -/
theorem textAfter_of_kept (hrange : range ∈ stub.positions)
    (h : range ∈ stub.visited → changedText (stub.textAt range) = none) :
    stub.textAfter range = stub.textAt range := by
  unfold textAfter
  rw [rewritten_eq]
  apply slice_moved_of_apart stub.inOrder_edits stub.within_edits (stub.within range hrange)
    (stub.inOrder.2 range hrange)
  intro edit hedit
  obtain ⟨hvisited, hchanged⟩ := stub.mem_edits.1 hedit
  apply stub.inOrder.apart hrange (stub.visited_sublist.subset hvisited)
  rintro rfl
  rw [h hvisited] at hchanged
  cases hchanged

/-! ## The condition is enough, and needed -/

theorem not_mentions_iff {expr : TypeExpr} (h : read (stub.textAt range) = some expr) :
    ¬ stub.Mentions range ↔ expr.mentionsCheckerOnly = false := by
  constructor
  · intro hnot
    by_contra hmentions
    exact hnot ⟨expr, h, Bool.not_eq_false _ ▸ hmentions⟩
  · rintro hnone ⟨expr', hexpr', hmentions⟩
    rw [h] at hexpr'
    rw [Option.some.inj hexpr', hmentions] at hnone
    cases hnone

/-- Where no position holds a type of the checker's own and the texts are kept, only comments can
change the text. -/
theorem normalized_of_no_edits (h : stub.edits = []) :
    stub.normalized = insertUnknownBoundaryComments stub.source
      (collectUnknownBoundaryComments stub.source stub.suite) 0 := by
  have happlied := stub.applied
  rw [h] at happlied
  unfold normalized normalizeEmittedStubIntrinsicTypes
  rw [happlied]
  rfl

theorem edits_eq_nil (hkept : ∀ range ∈ stub.visited, changedText (stub.textAt range) = none) :
    stub.edits = [] := by
  unfold edits
  rw [List.filterMap_eq_nil_iff]
  intro range hrange
  rw [hkept range hrange]
  rfl

/-- What is made is what is to be published. -/
theorem edits_eq_publishedEdits (hread : stub.ReadRight)
    (hkeeps : ∀ range ∈ stub.visited, ¬ stub.Mentions range → KeepsText (stub.textAt range))
    (hpublishes : ∀ range ∈ stub.visited, ∀ expr, read (stub.textAt range) = some expr →
      expr.mentionsCheckerOnly = true → expr.published.mentionsCheckerOnly = false) :
    stub.edits = stub.publishedEdits := by
  unfold edits publishedEdits
  apply List.filterMap_congr
  intro range hrange
  obtain ⟨expr, hexpr⟩ := stub.readable range (stub.visited_sublist.subset hrange)
  have hexpr' : read (stub.textAt range) = some expr := hexpr
  have hpublished : @publishedText read (stub.textAt range)
      = if expr.mentionsCheckerOnly then some expr.published.render.toList else none := by
    unfold publishedText
    rw [hexpr']
    rfl
  rw [hpublished]
  cases hmentions : expr.mentionsCheckerOnly with
  | true =>
    rw [changedText_of_mentions (hread range hrange expr hexpr' hmentions) hmentions
      (hpublishes range hrange expr hexpr' hmentions)]
    rfl
  | false =>
    have hkept := hkeeps range hrange ((stub.not_mentions_iff hexpr').2 hmentions)
    rw [(changedText_eq_none_iff _).2 hkept]
    rfl

section Spelling

variable (hedits : stub.edits = stub.publishedEdits)

include hedits

theorem introducedAny_iff : stub.introducedAny = true
    ↔ (stub.publishedEdits.any fun edit => occursIn "Any".toList edit.2) = true := by
  rw [introducedAny_eq, hedits]

theorem addsImport_iff : stub.addsImport = true
    ↔ (stub.publishedEdits.any fun edit => occursIn "Any".toList edit.2) = true
      ∧ hasTypingAnyImport (replaceRanges stub.source stub.publishedEdits) = false := by
  unfold addsImport
  rw [Bool.and_eq_true, stub.introducedAny_iff hedits, Bool.not_eq_true', rewritten_eq, hedits]

end Spelling

/-- `Any` is spelled where it is needed. -/
theorem spelled_of_needsAny (hvisits : ∀ range ∈ stub.positions, range ∉ stub.visited →
    ¬ stub.Mentions range) (hneeds : stub.NeedsAny) :
    (stub.publishedEdits.any fun edit => occursIn "Any".toList edit.2) = true := by
  obtain ⟨range, hrange, expr, hexpr, hmentions, hnames⟩ := hneeds
  have hvisited : range ∈ stub.visited := by
    by_contra hunvisited
    exact hvisits range hrange hunvisited ⟨expr, hexpr, hmentions⟩
  rw [List.any_eq_true]
  refine ⟨(range, expr.published.render.toList), ?_, ?_⟩
  · unfold publishedEdits
    rw [List.mem_filterMap]
    refine ⟨range, hvisited, ?_⟩
    unfold publishedText
    rw [hexpr, Option.bind_some, if_pos hmentions]
    rfl
  · exact occursIn_of_infix (infix_render_of_names (by decide) _ hnames)

theorem published_of_publishable (hreads : ReadsTypes read) (hread : stub.ReadRight)
    (h : stub.Publishable) : stub.Published := by
  have hedits := stub.edits_eq_publishedEdits hread h.keeps h.publishes
  constructor
  · intro range hrange expr hexpr
    cases hmentions : expr.mentionsCheckerOnly with
    | true =>
      have hvisited : range ∈ stub.visited := by
        by_contra hunvisited
        exact h.visits range hrange hunvisited ⟨expr, hexpr, hmentions⟩
      have hpublished := h.publishes range hvisited expr hexpr hmentions
      have hafter := stub.textAfter_of_changed hvisited
        (changedText_of_mentions (hread range hvisited expr hexpr hmentions) hmentions hpublished)
      obtain ⟨text', htext'⟩ := hreads.closed _ _ hexpr
      rw [if_pos rfl, hafter]
      exact ⟨hreads.printed _ _ htext', hpublished⟩
    | false =>
      rw [if_neg Bool.false_ne_true]
      apply stub.textAfter_of_kept hrange
      intro hvisited
      exact (changedText_eq_none_iff _).2
        (h.keeps range hvisited ((stub.not_mentions_iff hexpr).2 hmentions))
  · intro hneeds
    have hspelled := stub.spelled_of_needsAny h.visits hneeds
    have himports := h.imports hspelled
    cases hline : hasTypingAnyImport (replaceRanges stub.source stub.publishedEdits) with
    | true =>
      rw [if_pos hline] at himports
      exact .inr (himports hneeds)
    | false => exact .inl ((stub.addsImport_iff hedits).2 ⟨hspelled, hline⟩)
  · intro hadds
    obtain ⟨hspelled, hline⟩ := (stub.addsImport_iff hedits).1 hadds
    have himports := h.imports hspelled
    rw [if_neg (by rw [hline]; exact Bool.false_ne_true)] at himports
    exact himports
  · intro hnone
    have hnoEdits := stub.edits_eq_nil fun range hrange =>
      (changedText_eq_none_iff _).2 (h.keeps range hrange
        (hnone range (stub.visited_sublist.subset hrange)))
    have hcomments := (unknownComments_eq_nil_iff stub.source stub.suite).2 (h.unmarked hnone)
    rw [stub.normalized_of_no_edits hnoEdits, hcomments]
    rfl

theorem publishable_of_published (hread : stub.ReadRight) (h : stub.Published) :
    stub.Publishable := by
  have hkeeps : ∀ range ∈ stub.visited, ¬ stub.Mentions range →
      KeepsText (stub.textAt range) := by
    intro range hvisited hnot
    have hrange := stub.visited_sublist.subset hvisited
    obtain ⟨expr, hexpr⟩ := stub.readable range hrange
    have hkept := h.replaced range hrange expr hexpr
    rw [(stub.not_mentions_iff hexpr).1 hnot, if_neg Bool.false_ne_true] at hkept
    rw [← changedText_eq_none_iff]
    cases hchanged : changedText (stub.textAt range) with
    | none => rfl
    | some replacement =>
      -- a replacement is another text than the one it replaces
      exfalso
      rw [stub.textAfter_of_changed hvisited hchanged] at hkept
      unfold changedText at hchanged
      obtain ⟨-, hne⟩ := Option.filter_eq_some_iff.1 hchanged
      exact (of_decide_eq_true hne) hkept.symm
  have hpublishes : ∀ range ∈ stub.visited, ∀ expr, read (stub.textAt range) = some expr →
      expr.mentionsCheckerOnly = true → expr.published.mentionsCheckerOnly = false := by
    intro range hvisited expr hexpr hmentions
    have hreplaced := h.replaced range (stub.visited_sublist.subset hvisited) expr hexpr
    rw [if_pos hmentions] at hreplaced
    exact hreplaced.2
  have hedits := stub.edits_eq_publishedEdits hread hkeeps hpublishes
  constructor
  · rintro range hrange hunvisited ⟨expr, hexpr, hmentions⟩
    have hreplaced := h.replaced range hrange expr hexpr
    rw [if_pos hmentions, stub.textAfter_of_kept hrange fun hvisited => absurd hvisited hunvisited,
      hexpr] at hreplaced
    rw [← Option.some.inj hreplaced.1, hmentions] at hreplaced
    cases hreplaced.2
  · exact hkeeps
  · exact hpublishes
  · intro hnone
    have hnoEdits := stub.edits_eq_nil fun range hrange =>
      (changedText_eq_none_iff _).2 (hkeeps range hrange
        (hnone range (stub.visited_sublist.subset hrange)))
    have hsame := h.untouched hnone
    rw [stub.normalized_of_no_edits hnoEdits] at hsame
    apply (unknownComments_eq_nil_iff stub.source stub.suite).1
    by_contra hcomments
    by_cases hsource : stub.source = []
    · -- an empty text has no word to be marked
      apply hcomments
      rw [unknownComments_eq_nil_iff]
      intro range _
      rw [hsource]
      simp [slice, typeTextContainsUnknown, containsTypeTokenFrom]
    · exact insertUnknownBoundaryComments_ne hsource hcomments
        (unknownComments_lines stub.source stub.suite) hsame
  · intro hspelled
    cases hline : hasTypingAnyImport (replaceRanges stub.source stub.publishedEdits) with
    | true =>
      rw [if_pos rfl]
      intro hneeds
      rcases h.bound hneeds with hadds | hbinds
      · rw [((stub.addsImport_iff hedits).1 hadds).2] at hline
        cases hline
      · exact hbinds
    | false =>
      rw [if_neg Bool.false_ne_true]
      exact h.placed ((stub.addsImport_iff hedits).2 ⟨hspelled, hline⟩)

end EmittedStub

/-! ## Reading plain types -/

/-- Reads the types that are built from words, as they are printed. -/
def plainReading (text : Chars) : Option TypeExpr :=
  (parsedText text).filter fun expr => expr.isPlain && expr.render.toList = text

theorem plainReading_spec {expr : TypeExpr} (h : plainReading text = some expr) :
    expr.isPlain = true := by
  obtain ⟨-, hplain⟩ := Option.filter_eq_some_iff.1 h
  rw [Bool.and_eq_true] at hplain
  exact hplain.1

theorem plainReading_render {expr : TypeExpr} (h : expr.isPlain = true) :
    plainReading expr.render.toList = some expr := by
  have htrim := (readable_render expr h).1.solid.trim_eq
  have hparsed : parsedText expr.render.toList = some expr := by
    rw [parsedText, htrim, String.ofList_toList]
    exact parse_render h
  unfold plainReading
  rw [hparsed, Option.filter_some, h]
  simp

/-- The types a plain type has in the place of a branch are branches. -/
theorem isPlain_alternatives {expr : TypeExpr} (h : expr.isPlain = true) :
    allPlain expr.alternatives = true
      ∧ (expr.alternatives.all fun branch => !branch.isShorthand) = true := by
  unfold TypeExpr.alternatives
  split
  · simp only [TypeExpr.isPlain, Bool.and_eq_true] at h
    exact ⟨h.1.2, h.2⟩
  · next hother =>
      refine ⟨by rw [allPlain, allPlain, h]; rfl, ?_⟩
      rw [List.all_cons, List.all_nil, Bool.and_true, Bool.not_eq_true']
      unfold TypeExpr.isShorthand
      split
      · next branches =>
          cases branches with
          | nil => simp [TypeExpr.isPlain] at h
          | cons branch rest => exact absurd rfl (hother branch rest)
      · rfl

theorem allPlain_append (xs ys : List TypeExpr) :
    allPlain (xs ++ ys) = (allPlain xs && allPlain ys) := by
  induction xs with
  | nil => rfl
  | cons expr rest ih => rw [List.cons_append, allPlain, allPlain, ih, Bool.and_assoc]

theorem allPlain_flatMap_alternatives {exprs : List TypeExpr} (h : allPlain exprs = true) :
    allPlain (exprs.flatMap TypeExpr.alternatives) = true
      ∧ ((exprs.flatMap TypeExpr.alternatives).all fun branch => !branch.isShorthand) = true
      ∧ exprs.length ≤ (exprs.flatMap TypeExpr.alternatives).length := by
  induction exprs with
  | nil => exact ⟨rfl, rfl, Nat.le_refl _⟩
  | cons expr rest ih =>
    rw [allPlain, Bool.and_eq_true] at h
    obtain ⟨hplain, hbranches⟩ := isPlain_alternatives h.1
    obtain ⟨hrest, hrestBranches, hlength⟩ := ih h.2
    have hsome := List.length_pos_iff.2 (alternatives_ne_nil expr)
    rw [List.flatMap_cons, allPlain_append, List.all_append, List.length_append, hplain, hrest,
      hbranches, hrestBranches, List.length_cons]
    exact ⟨rfl, rfl, by omega⟩

theorem length_publishedAll (exprs : List TypeExpr) :
    (publishedAll exprs).length = exprs.length := by
  induction exprs with
  | nil => rfl
  | cons expr rest ih => rw [publishedAll, List.length_cons, List.length_cons, ih]

mutual

/-- What is published for a plain type is plain. -/
theorem isPlain_published : (expr : TypeExpr) → expr.isPlain = true → expr.published.isPlain = true
  | .name name, h => by
    rw [TypeExpr.isPlain] at h
    rw [TypeExpr.published, TypeExpr.isPlain]
    split
    · decide
    · split
      · decide
      · exact h
  | .generic head args, h => by
    rw [TypeExpr.isPlain, Bool.and_eq_true] at h
    have hargs := allPlain_published args h.2
    rw [TypeExpr.published]
    split
    · decide
    · split
      · cases args with
        | nil =>
          rw [publishedAll, List.headD_nil, TypeExpr.isPlain, h.1]
          rfl
        | cons wrapped rest =>
          rw [publishedAll, allPlain, Bool.and_eq_true] at hargs
          rw [publishedAll, List.headD_cons]
          exact hargs.1
      · rw [TypeExpr.isPlain, h.1, hargs]
        rfl
  | .callable params returnType, h => by
    rw [TypeExpr.isPlain, Bool.and_eq_true] at h
    rw [TypeExpr.published, TypeExpr.isPlain, isPlain_publishedParams params h.1,
      isPlain_published returnType h.2]
    rfl
  | .union branches .explicit, h => by
    rw [TypeExpr.isPlain] at h
    rw [TypeExpr.published, TypeExpr.isPlain]
    exact allPlain_published branches h
  | .union branches .shorthand, h => by
    simp only [TypeExpr.isPlain, Bool.and_eq_true, decide_eq_true_eq] at h
    obtain ⟨hplain, hbranches, hlength⟩ :=
      allPlain_flatMap_alternatives (allPlain_published branches h.1.2)
    rw [length_publishedAll] at hlength
    rw [TypeExpr.published, TypeExpr.isPlain, hplain, hbranches, Bool.and_true, Bool.and_true,
      decide_eq_true_eq]
    omega
  | .unpack inner, h => by
    rw [TypeExpr.isPlain] at h
    rw [TypeExpr.published, TypeExpr.isPlain]
    exact isPlain_published inner h

theorem isPlain_publishedParams : (params : CallableParamExpr) → params.isPlain = true →
    params.published.isPlain = true
  | .ellipsis, _ => rfl
  | .paramList types, h => by
    rw [CallableParamExpr.isPlain] at h
    rw [CallableParamExpr.published, CallableParamExpr.isPlain]
    exact allPlain_published types h
  | .concatenate types, h => by
    rw [CallableParamExpr.isPlain] at h
    rw [CallableParamExpr.published, CallableParamExpr.isPlain]
    exact allPlain_published types h
  | .single (.name name), h => by
    rw [CallableParamExpr.isPlain, Bool.and_eq_true] at h
    rw [CallableParamExpr.published, TypeExpr.published, CallableParamExpr.isPlain,
      Bool.and_eq_true]
    split
    · decide
    · split
      · decide
      · exact h

theorem allPlain_published : (exprs : List TypeExpr) → allPlain exprs = true →
    allPlain (publishedAll exprs) = true
  | [], _ => rfl
  | expr :: rest, h => by
    rw [allPlain, Bool.and_eq_true] at h
    rw [publishedAll, allPlain, isPlain_published expr h.1, allPlain_published rest h.2]
    rfl

end

theorem readsTypes_plainReading : ReadsTypes plainReading where
  printed := fun _ _ h => plainReading_render (plainReading_spec h)
  closed := fun _ expr h =>
    ⟨_, plainReading_render (isPlain_published expr (plainReading_spec h))⟩

/-! ## Fit to be published -/

/-- A stub is fit to be published when its types of the checker's own are read as Python reads
them, none of them is left out and `Any` is imported where it is spelled. Where they are read so,
nothing less will do. -/
theorem EmittedStub.published_iff {read : Chars → Option TypeExpr} (hreads : ReadsTypes read)
    (stub : EmittedStub read) :
    (stub.ReadRight ∧ stub.Publishable → stub.Published)
      ∧ (stub.ReadRight → stub.Published → stub.Publishable) :=
  ⟨fun h => stub.published_of_publishable hreads h.1 h.2, stub.publishable_of_published⟩

/-- What the text of a plain expression is read as, where it stands. -/
theorem readsAt {source : Chars} {expr : TypeExpr} (hplain : expr.isPlain = true)
    (htext : slice source range = expr.render.toList) :
    plainReading (slice source range) = some expr := by
  rw [htext]
  exact plainReading_render hplain

theorem annotatedText_reads (h : range ∈ [⟨32, 48⟩, ⟨53, 56⟩, (⟨61, 68⟩ : TextRange)]) :
    (range = ⟨32, 48⟩
        ∧ plainReading (slice
          "from typing import Any\ndef f(x: Tainted[unknown], y: int) -> dynamic: ...\n".toList range)
            = some (.generic "Tainted" [.name "unknown"]))
      ∨ (range = ⟨53, 56⟩
        ∧ plainReading (slice
          "from typing import Any\ndef f(x: Tainted[unknown], y: int) -> dynamic: ...\n".toList range)
            = some (.name "int"))
      ∨ (range = ⟨61, 68⟩
        ∧ plainReading (slice
          "from typing import Any\ndef f(x: Tainted[unknown], y: int) -> dynamic: ...\n".toList range)
            = some (.name "dynamic")) := by
  simp only [List.mem_cons, List.not_mem_nil, or_false] at h
  rcases h with rfl | rfl | rfl
  · exact .inl ⟨rfl, readsAt (by decide) (by decide +kernel)⟩
  · exact .inr (.inl ⟨rfl, readsAt (by decide) (by decide +kernel)⟩)
  · exact .inr (.inr ⟨rfl, readsAt (by decide) (by decide +kernel)⟩)

/-- A stub with a type of every kind: one that is kept, and two of the checker's own. -/
def annotatedStub : EmittedStub plainReading where
  source :=
    "from typing import Any\ndef f(x: Tainted[unknown], y: int) -> dynamic: ...\n".toList
  suite := [.importFrom "typing" [("Any", none)],
    .functionDef "f" 27 [] { args := [some ⟨32, 48⟩, some ⟨53, 56⟩] } (some ⟨61, 68⟩) []]
  inOrder := ⟨by decide, by decide⟩
  within := by decide
  readable := by
    intro range hrange
    rcases annotatedText_reads hrange with ⟨-, hread⟩ | ⟨-, hread⟩ | ⟨-, hread⟩
    · exact ⟨_, hread⟩
    · exact ⟨_, hread⟩
    · exact ⟨_, hread⟩

theorem annotatedStub_reads (h : range ∈ annotatedStub.visited) : (range = ⟨32, 48⟩
        ∧ plainReading (annotatedStub.textAt range) = some (.generic "Tainted" [.name "unknown"]))
      ∨ (range = ⟨53, 56⟩ ∧ plainReading (annotatedStub.textAt range) = some (.name "int"))
      ∨ (range = ⟨61, 68⟩ ∧ plainReading (annotatedStub.textAt range) = some (.name "dynamic")) :=
  annotatedText_reads h

theorem annotatedStub_readRight : annotatedStub.ReadRight := by
  intro range hrange expr hexpr hmentions
  rcases annotatedStub_reads hrange with ⟨rfl, hread⟩ | ⟨rfl, hread⟩ | ⟨rfl, hread⟩
  · rw [hread] at hexpr
    rw [← Option.some.inj hexpr]
    rfl
  · rw [hread] at hexpr
    rw [← Option.some.inj hexpr] at hmentions
    exact absurd hmentions (by decide)
  · rw [hread] at hexpr
    rw [← Option.some.inj hexpr]
    rfl

theorem annotatedStub_publishable : annotatedStub.Publishable where
  visits := fun range hrange hunvisited => absurd hrange hunvisited
  keeps := by
    intro range hrange hnot
    rcases annotatedStub_reads hrange with ⟨rfl, hread⟩ | ⟨rfl, hread⟩ | ⟨rfl, hread⟩
    · exact absurd ⟨_, hread, rfl⟩ hnot
    · rw [← changedText_eq_none_iff]
      rfl
    · exact absurd ⟨_, hread, rfl⟩ hnot
  publishes := by
    intro range hrange expr hexpr _
    rcases annotatedStub_reads hrange with ⟨rfl, hread⟩ | ⟨rfl, hread⟩ | ⟨rfl, hread⟩ <;>
    · rw [hread] at hexpr
      rw [← Option.some.inj hexpr]
      rfl
  unmarked := by
    intro hnone
    exact absurd ⟨.name "dynamic", rfl, rfl⟩ (hnone ⟨61, 68⟩ (by decide))
  imports := by
    intro _
    rw [if_pos (by decide)]
    intro _
    exact ⟨[("Any", none)], List.mem_cons_self, .inl List.mem_cons_self⟩

theorem annotatedStub_published :
    (annotatedStub.ReadRight ∧ annotatedStub.Publishable) ∧ annotatedStub.Published :=
  ⟨⟨annotatedStub_readRight, annotatedStub_publishable⟩,
    (EmittedStub.published_iff readsTypes_plainReading annotatedStub).1
      ⟨annotatedStub_readRight, annotatedStub_publishable⟩⟩

/-- The value of a `type` statement is not visited. -/
def aliasStub : EmittedStub plainReading where
  source := "type Id = dynamic\n".toList
  suite := [.typeAlias [] ⟨10, 17⟩]
  inOrder := ⟨by decide, by decide⟩
  within := by decide
  readable := by
    intro range hrange
    have hmem : range ∈ [(⟨10, 17⟩ : TextRange)] := hrange
    rw [List.mem_singleton.1 hmem]
    exact ⟨.name "dynamic", rfl⟩

theorem aliasStub_not_published : ReadsTypes plainReading ∧ ¬ aliasStub.Published := by
  refine ⟨readsTypes_plainReading, fun h => ?_⟩
  have hreplaced := h.replaced ⟨10, 17⟩ (by decide) (.name "dynamic") rfl
  have hkept : aliasStub.textAfter ⟨10, 17⟩ = aliasStub.textAt ⟨10, 17⟩ :=
    aliasStub.textAfter_of_kept (by decide) fun hvisited => absurd hvisited (by decide)
  have hread : plainReading (aliasStub.textAt ⟨10, 17⟩) = some (.name "dynamic") := rfl
  rw [if_pos (by decide), hkept, hread] at hreplaced
  have hname : TypeExpr.name "dynamic" = .name "Any" := Option.some.inj hreplaced.1
  exact absurd (TypeExpr.name.inj hname) (by decide)

end TypePython.Emit
