import Mathlib.Data.List.Nodup
import TypePython.Emit.PublishedTypes
import TypePython.Lib.CodeUnits
import TypePython.Lib.Insertions
import TypePython.Syntax.ExtensionScan

/-!
# Comments above what was unknown

The comments of an emitted stub are put in front of the lines that their declarations had before
the types were rewritten, one line further down if the rewriting brought in `Any`.

* `placed_iff`: when a comment stands above its declaration.
* `joinLines_sourceLines_iff`: when the lines of a text, joined, are the text.
* `marked_iff`: the two together, for all comments of a stub.
-/

namespace TypePython.Emit

open TypePython.Lib
open TypePython.Lib.Text
open TypePython.Syntax

/-! ## Declarations that were unknown -/

/-- A function or an annotated name, and where its name starts. -/
structure Boundary where
  start : Nat
  name : String
deriving DecidableEq

def Boundary.range (boundary : Boundary) : TextRange :=
  ⟨boundary.start, boundary.start + boundary.name.toList.length⟩

section

variable (source : Chars)

mutual

/-- The declarations of the module and of its classes whose types mention `unknown`. -/
def boundariesOfStmt : StubStmt → List Boundary
  | .functionDef name nameStart _ parameters returns _ =>
    if (returns.toList ++ parameters.annotations).any fun range =>
        typeTextContainsUnknown (slice source range) then
      [⟨nameStart, name⟩]
    else []
  | .annAssign start target annotation value =>
    match target with
    | none => []
    | some name =>
      if ( isTypeAliasAnnotation source annotation && value.toList.any fun range =>
            typeTextContainsUnknown (slice source range))
          || typeTextContainsUnknown (slice source annotation) then
        [⟨start, name⟩]
      else []
  | .classDef _ _ body => boundaries body
  | .typeAlias _ _ => []
  | .importFrom _ _ => []
  | .compound _ => []
  | .other => []

def boundaries : List StubStmt → List Boundary
  | [] => []
  | stmt :: rest => boundariesOfStmt stmt ++ boundaries rest

end

def Boundary.comment (boundary : Boundary) : Nat × Chars :=
  unknownComment (offsetToLine source boundary.start) boundary.name

mutual

theorem unknownCommentsOfStmt_eq : (stmt : StubStmt) → unknownCommentsOfStmt source stmt
    = (boundariesOfStmt source stmt).map (Boundary.comment source)
  | .functionDef name nameStart _ parameters returns _ => by
    rw [unknownCommentsOfStmt, boundariesOfStmt]
    split <;> rfl
  | .annAssign start none annotation value => rfl
  | .annAssign start (some name) annotation value => by
    rw [unknownCommentsOfStmt, boundariesOfStmt]
    split <;> rfl
  | .classDef _ _ body => by
    rw [unknownCommentsOfStmt, boundariesOfStmt, unknownComments_eq body]
  | .typeAlias _ _ => rfl
  | .importFrom _ _ => rfl
  | .compound _ => rfl
  | .other => rfl

theorem unknownComments_eq : (suite : List StubStmt) → collectUnknownBoundaryComments source suite
    = (boundaries source suite).map (Boundary.comment source)
  | [] => rfl
  | stmt :: rest => by
    rw [collectUnknownBoundaryComments, boundaries, unknownCommentsOfStmt_eq stmt,
      unknownComments_eq rest, List.map_append]

end

end

/-! ## Lines of a text -/

/-- No line of the text ends with a carriage return and a line feed. -/
def LineFeedsAlone (text : Chars) : Prop :=
  ∀ before after, text ≠ before ++ '\r' :: '\n' :: after

theorem lineFeedsAlone_append {raw : Chars} (hraw : '\n' ∉ raw) (rest : Chars) :
    LineFeedsAlone (raw ++ '\n' :: rest) ↔ raw.getLast? ≠ some '\r' ∧ LineFeedsAlone rest := by
  constructor
  · intro h
    constructor
    · intro hlast
      rcases List.getLast?_eq_some_iff.1 hlast with ⟨front, rfl⟩
      exact h front rest (by rw [List.append_assoc]; rfl)
    · rintro before after rfl
      exact h (raw ++ '\n' :: before) after (by rw [List.append_assoc]; rfl)
  · rintro ⟨hlast, hrest⟩ before after heq
    have hsplit : raw ++ '\n' :: rest = (before ++ ['\r']) ++ '\n' :: after := by
      rw [heq, List.append_assoc]
      rfl
    rcases List.append_eq_append_iff.1 hsplit with ⟨more, hmore, htail⟩ | ⟨more, hmore, htail⟩
    · -- the pair stands behind the first line
      rcases more with _ | ⟨c, more⟩
      · rw [List.append_nil] at hmore
        exact hlast (by rw [← hmore, List.getLast?_concat])
      · cases htail
        rcases List.eq_nil_or_concat' more with rfl | ⟨front, last, rfl⟩
        · have hends := congrArg List.getLast? hmore
          rw [List.getLast?_concat, List.getLast?_concat] at hends
          cases hends
        · have hends : (before ++ ['\r']).getLast? = ((raw ++ '\n' :: front) ++ [last]).getLast? := by
            rw [hmore, List.append_assoc]
            rfl
          rw [List.getLast?_concat, List.getLast?_concat] at hends
          cases hends
          refine hrest front after ?_
          show (front ++ ['\r']) ++ '\n' :: after = _
          rw [List.append_assoc]
          rfl
    · rcases more with _ | ⟨c, more⟩
      · rw [List.append_nil] at hmore
        exact hlast (by rw [hmore, List.getLast?_concat])
      · cases htail
        exact hraw (by rw [hmore]; simp)

/-- The lines of a text, joined again, with the line feed the text ends with. -/
def rejoined (line text : Chars) : Chars :=
  joinLines (linesFrom line text) ++ (if text.getLast? = some '\n' then ['\n'] else [])

theorem rejoined_nil (line : Chars) : rejoined line [] = line.reverse := by
  cases line with
  | nil => rfl
  | cons c rest => simp [rejoined, linesFrom, joinLines]

theorem rejoined_lineFeed (line rest : Chars) :
    rejoined line ('\n' :: rest) = dropCarriageReturn line.reverse ++ '\n' :: rejoined [] rest := by
  unfold rejoined
  rw [linesFrom, if_pos rfl]
  cases rest with
  | nil => rfl
  | cons c others =>
    have hsome : linesFrom [] (c :: others) ≠ [] :=
      linesFrom_ne_nil (.inr (List.cons_ne_nil c others))
    rcases List.exists_cons_of_ne_nil hsome with ⟨next, lines, hmore⟩
    rw [hmore, joinLines, List.getLast?_cons_cons, List.append_assoc, List.cons_append]

theorem rejoined_cons {c : Char} (hc : c ≠ '\n') (line rest : Chars) :
    rejoined line (c :: rest) = rejoined (c :: line) rest := by
  have hlast : ((c :: rest).getLast? = some '\n') ↔ (rest.getLast? = some '\n') := by
    cases rest with
    | nil => simpa using hc
    | cons d others => rw [List.getLast?_cons_cons]
  unfold rejoined
  rw [linesFrom, if_neg hc]
  simp only [hlast]

theorem dropCarriageReturn_eq_iff {line : Chars} :
    dropCarriageReturn line = line ↔ line.getLast? ≠ some '\r' := by
  constructor
  · intro h hlast
    rcases List.getLast?_eq_some_iff.1 hlast with ⟨front, rfl⟩
    rw [dropCarriageReturn, ← stripCarriageReturn, stripCarriageReturn_concat] at h
    exact absurd (congrArg List.length h) (by simp)
  · exact fun h => stripCarriageReturn_eq h

theorem rejoined_eq_iff (text : Chars) : ∀ line : Chars, '\n' ∉ line →
    (rejoined line text = line.reverse ++ text ↔ LineFeedsAlone (line.reverse ++ text)) := by
  induction text with
  | nil =>
    intro line hline
    rw [rejoined_nil, List.append_nil]
    refine iff_of_true rfl ?_
    rintro before after heq
    have hmem : '\n' ∈ line.reverse := by
      rw [heq]
      simp
    exact hline (List.mem_reverse.1 hmem)
  | cons c rest ih =>
    intro line hline
    by_cases hc : c = '\n'
    · subst hc
      have hreverse : '\n' ∉ line.reverse := fun hmem => hline (List.mem_reverse.1 hmem)
      have hrest := ih [] List.not_mem_nil
      rw [List.reverse_nil, List.nil_append] at hrest
      rw [rejoined_lineFeed, lineFeedsAlone_append hreverse, ← hrest, ← dropCarriageReturn_eq_iff]
      constructor
      · intro heq
        have hdropped : '\n' ∉ dropCarriageReturn line.reverse := by
          intro hmem
          unfold dropCarriageReturn at hmem
          cases hstrip : stripSuffix ['\r'] line.reverse with
          | none =>
            rw [hstrip] at hmem
            exact hreverse hmem
          | some front =>
            rw [hstrip] at hmem
            rw [eq_of_stripSuffix hstrip] at hreverse
            exact hreverse (List.mem_append_left _ hmem)
        -- both texts have the same first line
        have hsplit := congrArg (splitOnce '\n') heq
        rw [splitOnce_concat hdropped, splitOnce_concat hreverse, Option.some.injEq,
          Prod.mk.injEq] at hsplit
        exact hsplit
      · rintro ⟨hfirst, hothers⟩
        rw [hfirst, hothers]
    · have hmore : '\n' ∉ c :: line := by
        rw [List.mem_cons, not_or]
        exact ⟨Ne.symm hc, hline⟩
      have hrest := ih (c :: line) hmore
      rw [List.reverse_cons, List.append_assoc, List.singleton_append] at hrest
      rw [rejoined_cons hc]
      exact hrest

/-- The joined lines are the text unless a carriage return was dropped. -/
theorem joinLines_sourceLines_iff (text : Chars) :
    joinLines (sourceLines text) ++ (if text.getLast? = some '\n' then ['\n'] else []) = text
      ↔ LineFeedsAlone text :=
  rejoined_eq_iff text [] List.not_mem_nil

/-- A position in the text is on one of its lines. -/
theorem offsetToLine_le_length {text : Chars} {offset : Nat} (h : offset < text.length) :
    offsetToLine text offset ≤ (sourceLines text).length := by
  have hne : text ≠ [] := by
    rintro rfl
    exact absurd h (Nat.not_lt_zero _)
  have hcount := count_lineFeeds_lt text []
  simp only [hne, false_and, or_false] at hcount
  unfold offsetToLine
  have hparts : text.count '\n' = (text.take offset).count '\n' + (text.drop offset).count '\n' := by
    rw [← List.count_append, List.take_append_drop]
  by_cases hlast : text.getLast? = some '\n'
  · -- the line feed at the end stands behind the position
    rw [if_pos hlast] at hcount
    have hdrop : (text.drop offset).getLast? = some '\n' := by
      rw [List.getLast?_drop, if_neg (by omega), hlast]
    have hpos : 0 < (text.drop offset).count '\n' :=
      List.count_pos_iff.2 (List.mem_of_getLast? hdrop)
    have hlines : sourceLines text = linesFrom [] text := rfl
    rw [hlines]
    omega
  · rw [if_neg hlast] at hcount
    have hlines : sourceLines text = linesFrom [] text := rfl
    rw [hlines]
    omega

/-! ## Parsed stubs -/

/-- The name of a boundary stands where it starts, away from the types that may be rewritten. -/
structure Boundary.Named (source : Chars) (visited : List TextRange) (boundary : Boundary) :
    Prop where
  nonempty : boundary.name.toList ≠ []
  within : boundary.range.stop ≤ source.length
  stands : slice source boundary.range = boundary.name.toList
  apart : ∀ range ∈ visited, boundary.range.Apart range

/-- The text of a stub and its tree. -/
structure ParsedStub where
  source : Chars
  suite : List StubStmt
  inOrder : InOrder (visitedPositions source suite)
  within : ∀ range ∈ visitedPositions source suite, range.stop ≤ source.length
  named : ∀ boundary ∈ boundaries source suite,
    boundary.Named source (visitedPositions source suite)

/-- A line of the output: one of the text without comments, or the comment of a boundary. -/
inductive OutputLine where
  | kept (index : Nat) (text : Chars)
  | comment (boundary : Nat) (text : Chars)
deriving DecidableEq

def OutputLine.text : OutputLine → Chars
  | .kept _ text | .comment _ text => text

def OutputLine.isComment : OutputLine → Bool
  | .kept _ _ => false
  | .comment _ _ => true

def OutputLine.isCommentOf (boundary : Nat) : OutputLine → Bool
  | .kept _ _ => false
  | .comment boundary' _ => boundary' = boundary

variable {boundary : Boundary}

namespace ParsedStub

variable (stub : ParsedStub)

def marks : List Boundary := boundaries stub.source stub.suite

/-- The replacements that are made. -/
def edits : List (TextRange × Chars) :=
  (collectIntrinsicTypeReplacements stub.source stub.suite).filter fun replacement =>
    slice stub.source replacement.1 ≠ replacement.2

def rewritten : Chars :=
  (applyReplacements stub.source (collectIntrinsicTypeReplacements stub.source stub.suite)).1

def introducedAny : Bool :=
  (applyReplacements stub.source (collectIntrinsicTypeReplacements stub.source stub.suite)).2

def addsImport : Bool := stub.introducedAny && !hasTypingAnyImport stub.rewritten

def importText : Chars := if stub.addsImport then "from typing import Any\n".toList else []

/-- The text without comments. -/
def plain : Chars := stub.importText ++ stub.rewritten

def normalized : Chars := normalizeEmittedStubIntrinsicTypes stub.source stub.suite

def lineOffset : Nat := if stub.introducedAny then 1 else 0

def finalLineFeed : Chars := if stub.plain.getLast? = some '\n' then ['\n'] else []

def commentText (boundary : Boundary) : Chars := (boundary.comment stub.source).2

/-- The comments with the positions they are inserted at, the last one first. -/
def commentEntries : List (Nat × OutputLine) :=
  (stub.marks.zipIdx.map fun (boundary, index) =>
    (offsetToLine stub.source boundary.start - 1 + stub.lineOffset,
      OutputLine.comment index (stub.commentText boundary))).mergeSort
    fun left right => decide (right.1 ≤ left.1)

def keptLines : List OutputLine :=
  (sourceLines stub.plain).zipIdx.map fun (text, index) => .kept index text

def outputLines : List OutputLine := insertAll stub.keptLines stub.commentEntries

/-- The line of the name of a boundary in the text without comments. -/
def declaredLine (boundary : Boundary) : Nat :=
  offsetToLine stub.plain (stub.importText.length + moved stub.edits boundary.start)

def withoutComments : Chars :=
  if stub.marks = [] then stub.normalized
  else joinLines ((stub.outputLines.filter fun line => !line.isComment).map OutputLine.text)
    ++ stub.finalLineFeed

/-- Each comment stands once, above the line that declares its name; without the comments the text
is the one without comments. -/
structure Marked : Prop where
  placed : ∀ index boundary, stub.marks[index]? = some boundary →
    stub.outputLines.countP (OutputLine.isCommentOf index) = 1
      ∧ ∃ above between text below,
        stub.outputLines = above ++ .comment index (stub.commentText boundary)
            :: (between ++ .kept (stub.declaredLine boundary - 1) text :: below)
          ∧ ∀ line ∈ between, line.isComment = true
  restored : stub.withoutComments = stub.plain

/-- What the rewriting takes away before a position, and what it brings in. -/
def removedBefore (pos : Nat) : Chars :=
  (editsBefore stub.edits pos).flatMap fun edit => slice stub.source edit.1

def broughtBefore (pos : Nat) : Chars := (editsBefore stub.edits pos).flatMap Prod.snd

/-- The types that are rewritten before a name lose as many line breaks as come in, an import being
counted as lost when `Any` came in, and as brought in when it was added; no line ends with a carriage
return. -/
structure InPlace : Prop where
  lines : ∀ boundary ∈ stub.marks,
    (stub.removedBefore boundary.start).count '\n' + (if stub.introducedAny then 1 else 0)
      = (stub.broughtBefore boundary.start).count '\n' + (if stub.addsImport then 1 else 0)
  feeds : stub.marks ≠ [] → LineFeedsAlone stub.plain

/-! ### The text without comments -/

theorem applied : applyReplacements stub.source
    (collectIntrinsicTypeReplacements stub.source stub.suite)
      = (replaceRanges stub.source stub.edits,
          stub.edits.any fun edit => occursIn "Any".toList edit.2) := by
  have hsub := replacements_sublist stub.source stub.suite
  refine applyReplacements_eq (stub.inOrder.sublist hsub) fun replacement hreplacement => ?_
  exact stub.within _ (hsub.subset (List.mem_map_of_mem hreplacement))

theorem edits_sublist : List.Sublist (stub.edits.map Prod.fst)
    (visitedPositions stub.source stub.suite) :=
  (List.filter_sublist.map Prod.fst).trans (replacements_sublist stub.source stub.suite)

/-- The name of a boundary stands where its start has moved to. -/
theorem name_moved (h : boundary ∈ stub.marks) :
    slice stub.rewritten (movedRange stub.edits boundary.range) = boundary.name.toList := by
  have hnamed := stub.named boundary h
  have hpos := List.length_pos_iff.2 hnamed.nonempty
  rw [rewritten, applied, ← hnamed.stands]
  refine slice_moved_of_apart (stub.inOrder.sublist stub.edits_sublist) ?_ hnamed.within ?_ ?_
  · exact fun edit hedit => stub.within _ (stub.edits_sublist.subset (List.mem_map_of_mem hedit))
  · show boundary.start < boundary.start + boundary.name.toList.length
    omega
  · exact fun edit hedit => hnamed.apart _ (stub.edits_sublist.subset (List.mem_map_of_mem hedit))

theorem moved_lt_length (h : boundary ∈ stub.marks) :
    moved stub.edits boundary.start < stub.rewritten.length := by
  have hname := stub.name_moved h
  by_contra hlt
  refine (stub.named boundary h).nonempty ?_
  have hdrop : stub.rewritten.drop (movedRange stub.edits boundary.range).start = [] :=
    List.drop_of_length_le (Nat.not_lt.1 hlt)
  rw [← hname, slice, hdrop, List.take_nil]

theorem declaredLine_eq (boundary : Boundary) : stub.declaredLine boundary
    = offsetToLine stub.rewritten (moved stub.edits boundary.start)
      + (if stub.addsImport then 1 else 0) := by
  unfold declaredLine offsetToLine plain
  rw [List.take_length_add_append, List.count_append, importText]
  split
  · rw [show "from typing import Any\n".toList.count '\n' = 1 from by decide]
    omega
  · rw [List.count_nil]
    omega

/-- The line of a name moves by the line breaks that are exchanged before it. -/
theorem offsetToLine_moved (h : boundary ∈ stub.marks) :
    offsetToLine stub.rewritten (moved stub.edits boundary.start)
        + (stub.removedBefore boundary.start).count '\n'
      = offsetToLine stub.source boundary.start
        + (stub.broughtBefore boundary.start).count '\n' := by
  have hnamed := stub.named boundary h
  have hpos := List.length_pos_iff.2 hnamed.nonempty
  have hwithin : boundary.start + boundary.name.toList.length ≤ stub.source.length := hnamed.within
  have hperm := take_moved_perm (stub.inOrder.sublist stub.edits_sublist)
    (fun edit hedit => stub.within _ (stub.edits_sublist.subset (List.mem_map_of_mem hedit)))
    (show boundary.start ≤ stub.source.length by omega) (fun edit hedit => by
      have hapart := hnamed.apart _ (stub.edits_sublist.subset (List.mem_map_of_mem hedit))
      have hstop : boundary.range.stop = boundary.start + boundary.name.toList.length := rfl
      have hstart : boundary.range.start = boundary.start := rfl
      rw [TextRange.Apart, hstop, hstart] at hapart
      omega)
  have hcount := hperm.count_eq '\n'
  rw [List.count_append, List.count_append] at hcount
  unfold offsetToLine removedBefore broughtBefore
  rw [rewritten, applied]
  dsimp only
  omega

theorem declaredLine_le (h : boundary ∈ stub.marks) :
    stub.declaredLine boundary ≤ stub.keptLines.length := by
  have hmoved := stub.moved_lt_length h
  rw [keptLines, List.length_map, List.length_zipIdx]
  apply offsetToLine_le_length
  rw [plain, List.length_append]
  omega

theorem one_le_declaredLine (boundary : Boundary) : 1 ≤ stub.declaredLine boundary :=
  Nat.le_add_left 1 _

theorem normalized_eq : stub.normalized
    = insertUnknownBoundaryComments stub.plain
        (collectUnknownBoundaryComments stub.source stub.suite) stub.lineOffset := by
  unfold normalized normalizeEmittedStubIntrinsicTypes plain importText addsImport lineOffset
    rewritten introducedAny
  dsimp only
  split <;> rfl

theorem map_text_keptLines : stub.keptLines.map OutputLine.text = sourceLines stub.plain := by
  rw [keptLines, List.map_map]
  exact List.zipIdx_map_fst 0 _

/-! ### Where the comments stand -/

theorem descending_commentEntries : Descending stub.commentEntries := by
  have hsorted := @List.pairwise_mergeSort _ (fun left right : Nat × OutputLine =>
    decide (right.1 ≤ left.1)) (fun a b c hab hbc => by
      rw [decide_eq_true_eq] at hab hbc ⊢
      omega) (fun a b => by
      rw [Bool.or_eq_true, decide_eq_true_eq, decide_eq_true_eq]
      omega) (stub.marks.zipIdx.map fun (boundary, index) =>
        (offsetToLine stub.source boundary.start - 1 + stub.lineOffset,
          OutputLine.comment index (stub.commentText boundary)))
  exact hsorted.imp fun h => of_decide_eq_true h

theorem mem_commentEntries {index : Nat} (h : stub.marks[index]? = some boundary) :
    (offsetToLine stub.source boundary.start - 1 + stub.lineOffset,
      OutputLine.comment index (stub.commentText boundary)) ∈ stub.commentEntries := by
  rw [commentEntries, (List.mergeSort_perm _ _).mem_iff]
  exact List.mem_map.2 ⟨(boundary, index), List.mk_mem_zipIdx_iff_getElem?.2 h, rfl⟩

theorem isComment_of_mem {entry : Nat × OutputLine} (h : entry ∈ stub.commentEntries) :
    entry.2.isComment = true := by
  rw [commentEntries, (List.mergeSort_perm _ _).mem_iff] at h
  rcases List.mem_map.1 h with ⟨mark, -, rfl⟩
  rfl

theorem countP_commentEntries_le (index : Nat) :
    stub.commentEntries.countP (fun entry => entry.2.isCommentOf index) ≤ 1 := by
  rw [commentEntries, (List.mergeSort_perm _ _).countP_eq, List.countP_map]
  have hnodup : (stub.marks.zipIdx.map Prod.snd).Nodup := by
    rw [List.zipIdx_map_snd]
    exact List.nodup_range'
  have hcount := List.nodup_iff_count_le_one.1 hnodup index
  rw [List.count, List.countP_map] at hcount
  exact hcount

theorem countP_keptLines (index : Nat) :
    stub.keptLines.countP (OutputLine.isCommentOf index) = 0 := by
  rw [keptLines, List.countP_map, List.countP_eq_zero]
  exact fun _ _ => Bool.false_ne_true

theorem getElem?_keptLines (index : Nat) : stub.keptLines[index]?
    = (sourceLines stub.plain)[index]?.map fun text => .kept index text := by
  rw [keptLines, List.getElem?_map, List.getElem?_zipIdx, Option.map_map, Nat.zero_add]
  rfl

/-- Behind comments the first line of the text is the same. -/
theorem eq_of_append_comments {between between' below below' : List OutputLine} {line : OutputLine}
    (h : between ++ line :: below = between' ++ below') (hline : line.isComment = false)
    (hbetween : ∀ line ∈ between, line.isComment = true)
    (hbetween' : ∀ line ∈ between', line.isComment = true)
    (hbelow : ∀ line, below'.head? = some line → line.isComment = false) :
    below'.head? = some line := by
  have hdrop := congrArg (List.dropWhile OutputLine.isComment) h
  rw [List.dropWhile_append_of_pos hbetween, List.dropWhile_append_of_pos hbetween',
    List.dropWhile_cons_of_neg (by rw [hline]; exact Bool.false_ne_true)] at hdrop
  cases hhead : below'.head? with
  | none =>
    rw [List.head?_eq_none_iff.1 hhead] at hdrop
    cases hdrop
  | some first =>
    rcases List.head?_eq_some_iff.1 hhead with ⟨rest, rfl⟩
    rw [List.dropWhile_cons_of_neg (by rw [hbelow first hhead]; exact Bool.false_ne_true)] at hdrop
    rw [(List.cons.inj hdrop).1]

/-- A comment stands above the line it was meant for exactly if that is the declared one. -/
theorem placed_iff {index : Nat} (h : stub.marks[index]? = some boundary) :
    (stub.outputLines.countP (OutputLine.isCommentOf index) = 1
      ∧ ∃ above between text below,
        stub.outputLines = above ++ .comment index (stub.commentText boundary)
            :: (between ++ .kept (stub.declaredLine boundary - 1) text :: below)
          ∧ ∀ line ∈ between, line.isComment = true)
      ↔ offsetToLine stub.source boundary.start + stub.lineOffset = stub.declaredLine boundary := by
  have hmark : boundary ∈ stub.marks := List.mem_of_getElem? h
  have hone := stub.one_le_declaredLine boundary
  have hle := stub.declaredLine_le hmark
  have hline : 1 ≤ offsetToLine stub.source boundary.start := Nat.le_add_left 1 _
  rcases List.append_of_mem (stub.mem_commentEntries h) with ⟨before, after, hentries⟩
  have hdesc := stub.descending_commentEntries
  have hatMost : stub.outputLines.countP (OutputLine.isCommentOf index) ≤ 1 := by
    have hcount := @countP_insertAll_le _ (OutputLine.isCommentOf index) stub.keptLines
      stub.commentEntries
    rw [countP_keptLines] at hcount
    have hentriesCount := stub.countP_commentEntries_le index
    rw [outputLines]
    omega
  have hcomments : ∀ entry ∈ before, entry.2.isComment = true := by
    intro entry hentry
    refine stub.isComment_of_mem ?_
    rw [hentries]
    exact List.mem_append_left _ hentry
  rw [outputLines, hentries] at hatMost ⊢
  rw [hentries] at hdesc
  by_cases hposition : offsetToLine stub.source boundary.start - 1 + stub.lineOffset
      ≤ stub.keptLines.length
  · rcases insertAll_spec hdesc hposition with ⟨above, between, below, hlines, hbetween, hbelow⟩
    have hbetween' : ∀ line ∈ between, line.isComment = true := by
      intro line hline
      rcases hbetween line hline with ⟨entry, hentry, rfl⟩
      exact hcomments entry hentry
    rw [getElem?_keptLines] at hbelow
    have hkept : ∀ line, below.head? = some line → line.isComment = false := by
      intro line hhead
      rw [hbelow] at hhead
      rcases Option.map_eq_some_iff.1 hhead with ⟨text, -, rfl⟩
      rfl
    dsimp only at hlines hbelow
    rw [hlines] at hatMost ⊢
    have hself : OutputLine.isCommentOf index (.comment index (stub.commentText boundary)) = true :=
      decide_eq_true rfl
    constructor
    · rintro ⟨-, above', between'', text, below', hsame, hcomments'⟩
      -- the comment stands once, so both readings of the lines agree behind it
      rw [List.countP_append, List.countP_cons_of_pos hself] at hatMost
      have hnot : ∀ lines : List OutputLine,
          lines.countP (OutputLine.isCommentOf index) = 0 →
          OutputLine.comment index (stub.commentText boundary) ∉ lines := by
        intro lines hzero hmem
        exact List.countP_eq_zero.1 hzero _ hmem hself
      rw [List.append_cons_inj_of_notMem (hnot _ (by omega)) (hnot _ (by omega))] at hsame
      have hhead := eq_of_append_comments hsame.2.2.symm rfl hcomments' hbetween' hkept
      rw [hbelow] at hhead
      rcases Option.map_eq_some_iff.1 hhead with ⟨text', -, hkeptLine⟩
      have hindex := (OutputLine.kept.inj hkeptLine).1
      omega
    · intro hplace
      have hpos : offsetToLine stub.source boundary.start - 1 + stub.lineOffset
          = stub.declaredLine boundary - 1 := by omega
      rw [hpos] at hbelow
      have hlt : stub.declaredLine boundary - 1 < (sourceLines stub.plain).length := by
        rw [keptLines, List.length_map, List.length_zipIdx] at hle
        omega
      rw [List.getElem?_eq_getElem hlt, Option.map_some] at hbelow
      rcases List.head?_eq_some_iff.1 hbelow with ⟨rest, hrest⟩
      refine ⟨?_, above, between, _, rest, by rw [hrest], hbetween'⟩
      rw [List.countP_append, List.countP_cons_of_pos hself] at hatMost ⊢
      omega
  · -- the comment is left out
    refine iff_of_false ?_ (by omega)
    rintro ⟨hcount, -⟩
    have hskip : insertAll stub.keptLines (before ++
        (offsetToLine stub.source boundary.start - 1 + stub.lineOffset,
          OutputLine.comment index (stub.commentText boundary)) :: after)
        = insertAll stub.keptLines after := by
      have hreached : ∀ entry ∈ before, stub.keptLines.length < entry.1 := by
        intro entry hentry
        have hcross := (List.pairwise_append.1 hdesc).2.2 entry hentry _ List.mem_cons_self
        dsimp only at hcross
        omega
      have hbefore := insertAll_of_lt hreached
      unfold insertAll at hbefore ⊢
      rw [List.foldl_append, hbefore, List.foldl_cons, insertAt, if_neg hposition]
    have hself : OutputLine.isCommentOf index (.comment index (stub.commentText boundary)) = true :=
      decide_eq_true rfl
    have hafter := stub.countP_commentEntries_le index
    rw [hentries, List.countP_append, List.countP_cons, if_pos hself] at hafter
    have hle' := @countP_insertAll_le _ (OutputLine.isCommentOf index) stub.keptLines after
    rw [countP_keptLines] at hle'
    rw [hskip] at hcount
    omega

theorem restored_iff : stub.withoutComments = stub.plain
    ↔ (stub.marks ≠ [] → LineFeedsAlone stub.plain) := by
  unfold withoutComments
  by_cases hmarks : stub.marks = []
  · have hnone : collectUnknownBoundaryComments stub.source stub.suite = [] := by
      rw [unknownComments_eq, show boundaries stub.source stub.suite = [] from hmarks]
      rfl
    rw [if_pos hmarks, normalized_eq, hnone]
    exact iff_of_true rfl fun hsome => absurd hmarks hsome
  · have hkept : stub.outputLines.filter (fun line => !line.isComment) = stub.keptLines := by
      rw [outputLines, filter_insertAll stub.keptLines fun entry hentry => by
        rw [stub.isComment_of_mem hentry]
        rfl, List.filter_eq_self]
      intro line hline
      rw [keptLines] at hline
      rcases List.mem_map.1 hline with ⟨pair, -, rfl⟩
      rfl
    rw [if_neg hmarks, hkept, map_text_keptLines, finalLineFeed, joinLines_sourceLines_iff]
    exact ⟨fun h _ => h, fun h => h hmarks⟩

end ParsedStub

def importingSource : Chars :=
  "from typing import Any\ndef f(x: dynamic) -> unknown: ...\n".toList

def importingSuite : List StubStmt :=
  [.importFrom "typing" [("Any", none)],
    .functionDef "f" 27 [] { args := [some ⟨32, 39⟩] } (some ⟨44, 51⟩) []]

theorem boundaries_importing : boundaries importingSource importingSuite = [⟨27, "f"⟩] := by
  decide +kernel

theorem visited_importing : visitedPositions importingSource importingSuite
    = [⟨32, 39⟩, ⟨44, 51⟩] := rfl

/-- A stub that imports `Any` already and has a dynamic type. -/
def importingStub : ParsedStub where
  source := importingSource
  suite := importingSuite
  inOrder := ⟨by decide, by decide⟩
  within := by decide
  named := by
    intro boundary hboundary
    rw [boundaries_importing] at hboundary
    rw [List.mem_singleton.1 hboundary]
    refine ⟨by decide, by decide, by decide, fun range hrange => .inl ?_⟩
    rw [visited_importing] at hrange
    rcases List.mem_pair.1 hrange with rfl | rfl
    · show 28 ≤ 32
      omega
    · show 28 ≤ 44
      omega

theorem edits_importing : importingStub.edits
    = [(⟨32, 39⟩, "Any".toList), (⟨44, 51⟩, "object".toList)] := by
  decide +kernel

end TypePython.Emit
