import TypePython.Lib.CodeUnits
import TypePython.Lib.NestedTexts
import TypePython.Lib.LastEntry
import TypePython.Pipeline.Transparency
import TypePython.Syntax.Normalization
import TypePython.Syntax.RoundTrip

/-!
# Type-ignore comments

The directives of a source are read off its lines: what follows the first `#` of a line is taken
for its comment. The comments themselves are given by the tokens of the lines.

* `readAlike_iff`: when the directive of a line is the one of its comment.
* `applyTypeIgnoreDirectives_eq`: which diagnostics are removed.
* `typeIgnoresExact_iff`: the two together, for the files of a project.
-/

namespace TypePython.Pipeline

open Std
open TypePython.Lib
open TypePython.Lib.Text
open TypePython.Syntax
open TypePython.Summaries

/-! ## Directives of a source -/

/-- The codes between two brackets. -/
def ignoredCodes (inner : Chars) : List String :=
  (((inner.splitOn ',').map trim).filter fun code => code ≠ []).map String.ofList

/-- What is read after the first `#` of a line. -/
def readDirective (comment : Chars) : Option (Option (List String)) :=
  (stripPrefix "type: ignore".toList (trim comment)).bind fun remainder =>
    if trim remainder = [] then some none
    else
      (stripPrefix ['['] (trim remainder)).bind fun listed =>
        (stripSuffix [']'] listed).map fun inner => some (ignoredCodes inner)

def parseTypeIgnoreDirectiveLine (lineNumber : Nat) (line : Chars) : Option TypeIgnoreDirective :=
  (splitOnce '#' line).bind fun (_, comment) =>
    (readDirective comment).map fun codes => { line := lineNumber, codes }

def parseTypeIgnoreDirectivesFrom : Nat → List Chars → List TypeIgnoreDirective
  | _, [] => []
  | lineNumber, line :: lines =>
    (parseTypeIgnoreDirectiveLine lineNumber line).toList
      ++ parseTypeIgnoreDirectivesFrom (lineNumber + 1) lines

def parseTypeIgnoreDirectives (text : Chars) : List TypeIgnoreDirective :=
  parseTypeIgnoreDirectivesFrom 1 (sourceLines text)

/-! ## Comments of a source -/

/-- What stands on a line before a comment; a string of several lines has a piece on each. -/
inductive Piece where
  | code (text : Chars)
  | quoted (text : Chars)

def Piece.text : Piece → Chars
  | .code text | .quoted text => text

/-- A comment without its `#`, up to the end of the line. A carriage return ends it too. -/
structure Comment where
  text : Chars
  after : Chars
  ends : after = [] ∨ after.head? = some '\r'

/-- The tokens of a line. Outside strings a `#` starts a comment. -/
structure LineTokens where
  pieces : List Piece
  comment : Option Comment
  plain : ∀ text, .code text ∈ pieces → '#' ∉ text

namespace LineTokens

def leading (line : LineTokens) : Chars := line.pieces.flatMap Piece.text

def text (line : LineTokens) : Chars :=
  line.leading ++ (line.comment.map fun comment => '#' :: (comment.text ++ comment.after)).getD []

end LineTokens

/-- A source with the tokens of its lines. -/
structure TokenizedSource where
  source : Source
  lines : List LineTokens
  reads : lines.map LineTokens.text = sourceLines source.text.toList

/-- The codes of a directive, and the remark behind it. -/
structure CommentDirective where
  codes : Option (List String)
  remark : Chars

/-- A directive ends with its comment or with a further remark. -/
def endDirective (codes : Option (List String)) (rest : Chars) : Option CommentDirective :=
  if trimStart rest = [] ∨ (trimStart rest).head? = some '#' then
    some { codes, remark := trimStart rest }
  else none

/-- The directive that a comment is. -/
def directiveOfComment (comment : Chars) : Option CommentDirective :=
  (stripPrefix "type: ignore".toList (trimStart comment)).bind fun remainder =>
    match stripPrefix ['['] (trimStart remainder) with
    | none => endDirective none remainder
    | some listed =>
      (splitOnce ']' listed).bind fun (inner, rest) =>
        endDirective (some (ignoredCodes inner)) rest

def LineTokens.directive (line : LineTokens) : Option CommentDirective :=
  line.comment.bind fun comment => directiveOfComment comment.text

/-- The directives that are comments. -/
def commentDirectivesFrom : Nat → List LineTokens → List TypeIgnoreDirective
  | _, [] => []
  | lineNumber, line :: lines =>
    (line.directive.map fun directive =>
      { line := lineNumber, codes := directive.codes : TypeIgnoreDirective }).toList
      ++ commentDirectivesFrom (lineNumber + 1) lines

def TokenizedSource.commentDirectives (source : TokenizedSource) : List TypeIgnoreDirective :=
  commentDirectivesFrom 1 source.lines

/-- A text that is a directive from end to end; its brackets may hold any text. -/
def PlainDirective (text : Chars) : Prop :=
  trim text = "type: ignore".toList
    ∨ ∃ gap inner, (∀ c ∈ gap, isWhitespace c = true)
      ∧ trim text = "type: ignore".toList ++ (gap ++ ('[' :: (inner ++ [']'])))

/-- A comment that is a directive starts at the first `#` of the line and has no remark; otherwise
what follows the first `#` is no directive. -/
def LineTokens.ReadAlike (line : LineTokens) : Prop :=
  match line.directive with
  | some directive => '#' ∉ line.leading ∧ directive.remark = []
      ∧ ∀ comment, line.comment = some comment → ∀ c ∈ comment.after, isWhitespace c = true
  | none => ∀ leading text, splitOnce '#' line.text = some (leading, text) → ¬ PlainDirective text

/-! ## Texts of directives -/

theorem notMem_of_splitOnce {c : Char} {text before after : Chars}
    (h : splitOnce c text = some (before, after)) : c ∉ before := by
  induction text generalizing before with
  | nil => cases h
  | cons d rest ih =>
    rw [splitOnce] at h
    split at h
    · cases h
      exact List.not_mem_nil
    · rename_i hd
      rcases Option.map_eq_some_iff.1 h with ⟨⟨before', after'⟩, hrest, heq⟩
      cases heq
      rw [List.mem_cons, not_or]
      exact ⟨Ne.symm hd, ih hrest⟩

theorem solid_ignore : Solid "type: ignore".toList :=
  ⟨⟨'t', _, rfl, rfl⟩, ⟨'e', "type: ignor".toList, rfl, rfl⟩⟩

theorem solid_listed (gap inner : Chars) :
    Solid ("type: ignore".toList ++ (gap ++ ('[' :: (inner ++ [']'])))) :=
  ⟨⟨'t', _, rfl, rfl⟩, ⟨']', "type: ignore".toList ++ (gap ++ ('[' :: inner)), by simp, rfl⟩⟩

theorem solid_brackets (inner : Chars) : Solid ('[' :: (inner ++ [']'])) :=
  ⟨⟨'[', _, rfl, rfl⟩, ⟨']', '[' :: inner, rfl, rfl⟩⟩

/-- A trimmed text does not end with white space. -/
theorem eq_nil_of_trim {text front space : Chars} (h : trim text = front ++ space)
    (hspace : ∀ c ∈ space, isWhitespace c = true) : space = [] := by
  by_contra hne
  have hlast : (trim text).getLast? = some (space.getLast hne) := by
    rw [h, List.getLast?_append_of_ne_nil _ hne, List.getLast?_eq_some_getLast hne]
  have hblank := hspace _ (List.getLast_mem hne)
  rw [getLast?_trim hlast] at hblank
  cases hblank

theorem exists_gap {text front rest : Chars} (h : trim text = front ++ rest) :
    ∃ gap, (∀ c ∈ gap, isWhitespace c = true) ∧ rest = gap ++ trim rest := by
  rcases exists_trim rest with ⟨gap, after, hrest, hgap, hafter⟩
  have hends : trim text = front ++ (gap ++ trim rest) ++ after := by
    rw [h, List.append_assoc, List.append_assoc, ← hrest]
  rw [eq_nil_of_trim hends hafter, List.append_nil] at hrest
  exact ⟨gap, hgap, hrest⟩

theorem readDirective_ignore {text : Chars} (h : trim text = "type: ignore".toList) :
    readDirective text = some none := by
  have hstrip := stripPrefix_append "type: ignore".toList []
  rw [List.append_nil] at hstrip
  unfold readDirective
  rw [h, hstrip]
  rfl

theorem readDirective_listed {text gap inner : Chars} (hgap : ∀ c ∈ gap, isWhitespace c = true)
    (h : trim text = "type: ignore".toList ++ (gap ++ ('[' :: (inner ++ [']'])))) :
    readDirective text = some (some (ignoredCodes inner)) := by
  have htrim : trim (gap ++ ('[' :: (inner ++ [']']))) = '[' :: (inner ++ [']']) := by
    have hspaced := (solid_brackets inner).trim_spaced hgap (List.forall_mem_nil _)
    rwa [List.append_nil] at hspaced
  have hsuffix : stripSuffix [']'] (inner ++ [']']) = some inner := by
    rw [stripSuffix, List.isSuffixOf?_eq_some_iff_append_eq]
  have hprefix : stripPrefix ['['] ('[' :: (inner ++ [']'])) = some (inner ++ [']']) :=
    stripPrefix_append ['['] (inner ++ [']'])
  unfold readDirective
  rw [h, stripPrefix_append, Option.bind_some, htrim, if_neg (List.cons_ne_nil _ _), hprefix,
    Option.bind_some, hsuffix]
  rfl

/-- The texts that are read as directives. -/
theorem readDirective_cases {text : Chars} {codes : Option (List String)}
    (h : readDirective text = some codes) :
    (trim text = "type: ignore".toList ∧ codes = none)
      ∨ ∃ gap inner, (∀ c ∈ gap, isWhitespace c = true)
        ∧ trim text = "type: ignore".toList ++ (gap ++ ('[' :: (inner ++ [']'])))
        ∧ codes = some (ignoredCodes inner) := by
  unfold readDirective at h
  rcases Option.bind_eq_some_iff.1 h with ⟨remainder, hremainder, hrest⟩
  have htext := eq_of_stripPrefix hremainder
  by_cases hempty : trim remainder = []
  · rw [if_pos hempty] at hrest
    cases hrest
    have hnil := eq_nil_of_trim htext (forall_isWhitespace_of_trim hempty)
    rw [hnil, List.append_nil] at htext
    exact .inl ⟨htext, rfl⟩
  · rw [if_neg hempty] at hrest
    rcases Option.bind_eq_some_iff.1 hrest with ⟨listed, hlisted, hinner⟩
    rcases Option.map_eq_some_iff.1 hinner with ⟨inner, hsuffix, rfl⟩
    rcases exists_gap htext with ⟨gap, hgap, hgapped⟩
    refine .inr ⟨gap, inner, hgap, ?_, rfl⟩
    rw [htext, hgapped, eq_of_stripPrefix hlisted, eq_of_stripSuffix hsuffix]
    rfl

theorem readDirective_isSome_iff {text : Chars} :
    (readDirective text).isSome = true ↔ PlainDirective text := by
  constructor
  · intro h
    rcases Option.isSome_iff_exists.1 h with ⟨codes, hcodes⟩
    rcases readDirective_cases hcodes with ⟨htext, -⟩ | ⟨gap, inner, hgap, htext, -⟩
    · exact .inl htext
    · exact .inr ⟨gap, inner, hgap, htext⟩
  · rintro (htext | ⟨gap, inner, hgap, htext⟩)
    · rw [readDirective_ignore htext]
      rfl
    · rw [readDirective_listed hgap htext]
      rfl

/-! ## Characters of codes -/

theorem beq_of_space {mark : Char} (hmark : isWhitespace mark = false) :
    ∀ c, isWhitespace c = true → (c == mark) = false := by
  intro c hc
  rw [beq_eq_false_iff_ne]
  rintro rfl
  rw [hmark] at hc
  cases hc

section Counts

variable {p : Char → Bool}

theorem countP_eq_zero_of_space (hp : ∀ c, isWhitespace c = true → p c = false) {gap : Chars}
    (hgap : ∀ c ∈ gap, isWhitespace c = true) : gap.countP p = 0 :=
  List.countP_eq_zero.2 fun c hc => by rw [hp c (hgap c hc)]; exact Bool.false_ne_true

theorem countP_trim (hp : ∀ c, isWhitespace c = true → p c = false) (text : Chars) :
    (trim text).countP p = text.countP p := by
  rcases exists_trim text with ⟨before, after, htext, hbefore, hafter⟩
  conv_rhs => rw [htext]
  rw [List.countP_append, List.countP_append, countP_eq_zero_of_space hp hbefore,
    countP_eq_zero_of_space hp hafter]
  omega

theorem countP_splitOn (hcomma : p ',' = false) (text : Chars) :
    (text.splitOn ',').flatten.countP p = text.countP p := by
  unfold List.splitOn
  induction text with
  | nil => rfl
  | cons c rest ih =>
    rw [List.splitOnP_cons_eq_if_modifyHead]
    split
    · rename_i hc
      rw [List.flatten_cons, List.nil_append, ih, beq_iff_eq.1 hc,
        List.countP_cons_of_neg (by rw [hcomma]; exact Bool.false_ne_true)]
    · cases hparts : List.splitOnP (fun x => x == ',') rest with
      | nil => exact absurd hparts (List.splitOnP_ne_nil _ _)
      | cons part parts =>
        rw [hparts] at ih
        rw [List.modifyHead_cons, List.flatten_cons, List.cons_append, List.countP_cons,
          List.countP_cons, ← ih, List.flatten_cons]

/-- Commas and white space apart, the codes are made of what stands between the brackets. -/
theorem countP_ignoredCodes (hp : ∀ c, isWhitespace c = true → p c = false)
    (hcomma : p ',' = false) (inner : Chars) :
    ((ignoredCodes inner).flatMap String.toList).countP p = inner.countP p := by
  rw [← countP_splitOn hcomma inner, ignoredCodes]
  induction inner.splitOn ',' with
  | nil => rfl
  | cons part parts ih =>
    rw [List.map_cons, List.flatten_cons, List.countP_append, ← countP_trim hp part, ← ih]
    by_cases hempty : trim part = []
    · rw [List.filter_cons_of_neg (by simpa using hempty), hempty, List.countP_nil, Nat.zero_add]
    · rw [List.filter_cons_of_pos (by simpa using hempty), List.map_cons, List.flatMap_cons,
        List.countP_append, String.toList_ofList]

theorem countP_eq_of_ignoredCodes (hp : ∀ c, isWhitespace c = true → p c = false)
    (hcomma : p ',' = false) {inner inner' : Chars} (h : ignoredCodes inner = ignoredCodes inner') :
    inner.countP p = inner'.countP p := by
  rw [← countP_ignoredCodes hp hcomma inner, h, countP_ignoredCodes hp hcomma]

end Counts

/-! ## Comments that are read -/

theorem exists_trimStart (text : Chars) :
    ∃ gap, (∀ c ∈ gap, isWhitespace c = true) ∧ text = gap ++ trimStart text :=
  ⟨text.takeWhile isWhitespace, fun _ hc => List.mem_takeWhile_imp hc,
    List.takeWhile_append_dropWhile.symm⟩

theorem endDirective_cases {codes : Option (List String)} {rest : Chars}
    {directive : CommentDirective} (h : endDirective codes rest = some directive) :
    directive.codes = codes ∧ (directive.remark = [] ∨ directive.remark.head? = some '#')
      ∧ ∃ gap, (∀ c ∈ gap, isWhitespace c = true) ∧ rest = gap ++ directive.remark := by
  unfold endDirective at h
  split at h
  · rename_i hend
    cases h
    exact ⟨rfl, hend, exists_trimStart rest⟩
  · cases h

/-- A directive without brackets is `type: ignore`, with them the codes follow it. -/
theorem directiveOfComment_cases {comment : Chars} {directive : CommentDirective}
    (h : directiveOfComment comment = some directive) :
    (directive.remark = [] ∨ directive.remark.head? = some '#')
      ∧ ∃ start gap, (∀ c ∈ start, isWhitespace c = true) ∧ (∀ c ∈ gap, isWhitespace c = true)
        ∧ ((directive.codes = none
            ∧ comment = start ++ ("type: ignore".toList ++ (gap ++ directive.remark)))
          ∨ ∃ inner gap', ']' ∉ inner ∧ (∀ c ∈ gap', isWhitespace c = true)
            ∧ directive.codes = some (ignoredCodes inner)
            ∧ comment = start ++ ("type: ignore".toList ++ (gap ++ ('[' :: (inner ++
              ']' :: (gap' ++ directive.remark)))))) := by
  unfold directiveOfComment at h
  rcases Option.bind_eq_some_iff.1 h with ⟨remainder, hremainder, hrest⟩
  rcases exists_trimStart comment with ⟨start, hstart, hcomment⟩
  rw [eq_of_stripPrefix hremainder] at hcomment
  split at hrest
  · rcases endDirective_cases hrest with ⟨hcodes, hremark, gap, hgap, hends⟩
    refine ⟨hremark, start, gap, hstart, hgap, .inl ⟨hcodes, ?_⟩⟩
    rw [hcomment, ← hends]
  · rename_i listed hlisted
    rcases exists_trimStart remainder with ⟨gap, hgap, hgapped⟩
    rcases Option.bind_eq_some_iff.1 hrest with ⟨⟨inner, rest⟩, hsplit, hend⟩
    rcases endDirective_cases hend with ⟨hcodes, hremark, gap', hgap', hends⟩
    refine ⟨hremark, start, gap, hstart, hgap,
      .inr ⟨inner, gap', notMem_of_splitOnce hsplit, hgap', hcodes, ?_⟩⟩
    rw [hcomment, hgapped, eq_of_stripPrefix hlisted, splitOnce_eq hsplit, hends]
    rfl

/-- A directive without a remark is read as it is. -/
theorem readDirective_of_comment {comment after : Chars} {directive : CommentDirective}
    (h : directiveOfComment comment = some directive) (hremark : directive.remark = [])
    (hafter : ∀ c ∈ after, isWhitespace c = true) :
    readDirective (comment ++ after) = some directive.codes := by
  rcases directiveOfComment_cases h with ⟨-, start, gap, hstart, hgap,
    ⟨hcodes, hcomment⟩ | ⟨inner, gap', -, hgap', hcodes, hcomment⟩⟩
  · rw [hcodes]
    apply readDirective_ignore
    have htrim := solid_ignore.trim_spaced hstart
      (List.forall_mem_append.2 ⟨hgap, hafter⟩)
    rw [hcomment, hremark, List.append_nil, List.append_assoc, List.append_assoc]
    exact htrim
  · rw [hcodes]
    apply readDirective_listed hgap
    have htrim := (solid_listed gap inner).trim_spaced hstart
      (List.forall_mem_append.2 ⟨hgap', hafter⟩)
    rw [hcomment, hremark, ← htrim]
    simp only [List.append_assoc, List.append_nil, List.cons_append, List.nil_append]

/-- What is read behind a `#` is the directive of a comment only where the comment starts there and
has no remark. -/
theorem of_readDirective {front comment after : Chars} {directive : CommentDirective}
    (h : directiveOfComment comment = some directive)
    (hread : readDirective (front ++ (comment ++ after)) = some directive.codes) :
    '#' ∉ front ∧ directive.remark = [] ∧ ∀ c ∈ after, isWhitespace c = true := by
  rcases directiveOfComment_cases h with ⟨hremark, start, gap, hstart, hgap, hkind⟩
  have hempty : directive.remark.count '#' = 0 → directive.remark = [] := by
    intro hzero
    rcases hremark with hnil | hhash
    · exact hnil
    · rcases List.head?_eq_some_iff.1 hhash with ⟨rest, hrest⟩
      rw [hrest, List.count_cons_self] at hzero
      omega
  have hblank : ∀ mark, isWhitespace mark = false → ∀ space : Chars,
      (∀ c ∈ space, isWhitespace c = true) → space.count mark = 0 :=
    fun mark hmark _ hspace => countP_eq_zero_of_space (beq_of_space hmark) hspace
  have htotal : ∀ p : Char → Bool, (∀ c, isWhitespace c = true → p c = false) →
      (trim (front ++ (comment ++ after))).countP p
        = front.countP p + (comment.countP p + after.countP p) := by
    intro p hp
    rw [countP_trim hp, List.countP_append, List.countP_append]
  rcases hkind with ⟨hcodes, hcomment⟩ | ⟨inner, gap', hinner, hgap', hcodes, hcomment⟩
  · rcases readDirective_cases hread with ⟨htrim, -⟩ | ⟨-, inner', -, -, hsome⟩
    · have hcount : ∀ p : Char → Bool, (∀ c, isWhitespace c = true → p c = false) →
          front.countP p + directive.remark.countP p + after.countP p = 0 := by
        intro p hp
        have hall := htotal p hp
        rw [htrim, hcomment] at hall
        simp only [List.countP_append, countP_eq_zero_of_space hp hstart,
          countP_eq_zero_of_space hp hgap] at hall
        omega
      have hhash : front.count '#' + directive.remark.count '#' + after.count '#' = 0 :=
        hcount (· == '#') (beq_of_space rfl)
      have hspace := hcount (fun c => !isWhitespace c) fun c hc => by rw [hc]; rfl
      refine ⟨List.count_eq_zero.1 (by omega), hempty (by omega), fun c hc => ?_⟩
      have hzero : after.countP (fun c => !isWhitespace c) = 0 := by omega
      have hblack := List.countP_eq_zero.1 hzero c hc
      rwa [Bool.not_eq_true, Bool.not_eq_false'] at hblack
    · rw [hcodes] at hsome
      cases hsome
  · rcases readDirective_cases hread with ⟨-, hnone⟩ | ⟨gap₀, inner', hgap₀, htrim, hsome⟩
    · rw [hcodes] at hnone
      cases hnone
    · have hsame : ignoredCodes inner' = ignoredCodes inner :=
        (Option.some.inj (hcodes.symm.trans hsome)).symm
      have hcount : ∀ mark, isWhitespace mark = false → mark ≠ ',' →
          front.count mark + directive.remark.count mark + after.count mark = 0 := by
        intro mark hmark hcomma
        have hinners : inner'.count mark = inner.count mark :=
          countP_eq_of_ignoredCodes (beq_of_space hmark) (beq_eq_false_iff_ne.2 hcomma.symm) hsame
        have hall : _ = front.count mark + (comment.count mark + after.count mark) :=
          htotal (· == mark) (beq_of_space hmark)
        rw [htrim, ← List.count, hcomment] at hall
        simp only [List.count_append, List.count_cons, List.count_nil, hblank mark hmark _ hstart,
          hblank mark hmark _ hgap, hblank mark hmark _ hgap', hblank mark hmark _ hgap₀,
          hinners] at hall
        omega
      have hhash := hcount '#' rfl (by decide)
      have hbracket := hcount ']' rfl (by decide)
      have hremarkNil := hempty (by omega)
      refine ⟨List.count_eq_zero.1 (by omega), hremarkNil, ?_⟩
      -- the bracket at the end is the one of the comment
      rcases exists_trim (front ++ (comment ++ after)) with ⟨before, behind, htext, -, hbehind⟩
      rw [htrim, hcomment, hremarkNil] at htext
      have hends : (front ++ (start ++ ("type: ignore".toList ++ (gap ++ '[' :: inner))))
            ++ ']' :: (gap' ++ after)
          = (before ++ ("type: ignore".toList ++ (gap₀ ++ '[' :: inner'))) ++ ']' :: behind := by
        simpa only [List.append_assoc, List.cons_append, List.append_nil, List.nil_append]
          using htext
      have hfirst : ']' ∉ front ++ (start ++ ("type: ignore".toList ++ (gap ++ '[' :: inner))) := by
        rw [← List.count_eq_zero]
        simp only [List.count_append, List.count_cons, hblank ']' rfl _ hstart,
          hblank ']' rfl _ hgap, List.count_eq_zero.2 hinner]
        have hzero : front.count ']' = 0 := by omega
        rw [hzero]
        rfl
      have hlast : ']' ∉ gap' ++ after := by
        rw [← List.count_eq_zero, List.count_append, hblank ']' rfl _ hgap']
        omega
      rw [List.append_cons_inj_of_notMem hfirst hlast] at hends
      rw [← hends.2.2] at hbehind
      exact fun c hc => hbehind c (List.mem_append_right _ hc)

/-- The directive of a line is the one of its comment. -/
theorem readAlike_iff (line : LineTokens) (lineNumber : Nat) :
    parseTypeIgnoreDirectiveLine lineNumber line.text
        = line.directive.map (fun directive => { line := lineNumber, codes := directive.codes })
      ↔ line.ReadAlike := by
  unfold LineTokens.ReadAlike
  cases hdirective : line.directive with
  | none =>
    dsimp only
    rw [Option.map_none, parseTypeIgnoreDirectiveLine, Option.bind_eq_none_iff]
    constructor
    · intro h leading text hsplit hplain
      have hnone := Option.map_eq_none_iff.1 (h (leading, text) hsplit)
      rw [← readDirective_isSome_iff, hnone] at hplain
      cases hplain
    · rintro h ⟨leading, text⟩ hsplit
      rw [Option.map_eq_none_iff, ← Option.not_isSome_iff_eq_none, readDirective_isSome_iff]
      exact h leading text hsplit
  | some directive =>
    dsimp only
    rcases Option.bind_eq_some_iff.1 hdirective with ⟨comment, hcomment, hread⟩
    have htext : line.text = line.leading ++ '#' :: (comment.text ++ comment.after) := by
      rw [LineTokens.text, hcomment]
      rfl
    rw [Option.map_some, htext]
    constructor
    · intro h
      by_cases hhash : '#' ∈ line.leading
      · -- the first one stands in a string
        rcases List.eq_append_cons_of_mem hhash with ⟨first, others, hleading, hfirst⟩
        rw [hleading, List.append_assoc, List.cons_append, parseTypeIgnoreDirectiveLine,
          splitOnce_concat hfirst, Option.bind_some] at h
        rcases Option.map_eq_some_iff.1 h with ⟨codes, hcodes, heq⟩
        cases heq
        have hfront := @of_readDirective (others ++ ['#']) _ _ _ hread
          (by rw [List.append_assoc]; exact hcodes)
        exact absurd (List.mem_append_right _ (List.mem_singleton_self _)) hfront.1
      · rw [parseTypeIgnoreDirectiveLine, splitOnce_concat hhash, Option.bind_some] at h
        rcases Option.map_eq_some_iff.1 h with ⟨codes, hcodes, heq⟩
        cases heq
        have hfront := @of_readDirective [] _ _ _ hread hcodes
        refine ⟨hhash, hfront.2.1, fun comment' hcomment' => ?_⟩
        rw [hcomment] at hcomment'
        cases hcomment'
        exact hfront.2.2
    · rintro ⟨hleading, hremark, hafter⟩
      rw [parseTypeIgnoreDirectiveLine, splitOnce_concat hleading, Option.bind_some]
      dsimp only
      rw [readDirective_of_comment hread hremark (hafter comment hcomment)]
      rfl

/-! ## Directives of whole sources -/

theorem le_line_of_parse {lines : List Chars} {start : Nat} {directive : TypeIgnoreDirective}
    (h : directive ∈ parseTypeIgnoreDirectivesFrom start lines) : start ≤ directive.line := by
  induction lines generalizing start with
  | nil => cases h
  | cons line rest ih =>
    rcases List.mem_append.1 h with hline | hrest
    · rw [Option.mem_toList] at hline
      rcases Option.bind_eq_some_iff.1 hline with ⟨parts, -, hread⟩
      rcases Option.map_eq_some_iff.1 hread with ⟨codes, -, rfl⟩
      exact le_rfl
    · exact (Nat.le_succ start).trans (ih hrest)

theorem le_line_of_comment {lines : List LineTokens} {start : Nat} {directive : TypeIgnoreDirective}
    (h : directive ∈ commentDirectivesFrom start lines) : start ≤ directive.line := by
  induction lines generalizing start with
  | nil => cases h
  | cons line rest ih =>
    rcases List.mem_append.1 h with hline | hrest
    · rw [Option.mem_toList] at hline
      rcases Option.map_eq_some_iff.1 hline with ⟨found, -, rfl⟩
      exact le_rfl
    · exact (Nat.le_succ start).trans (ih hrest)

/-- Two lists of at most one entry and later ones agree when their parts do. -/
theorem append_eq_append_iff_of_later {first second : Option TypeIgnoreDirective}
    {rest rest' : List TypeIgnoreDirective} {line : Nat}
    (hfirst : ∀ directive ∈ first, directive.line = line)
    (hsecond : ∀ directive ∈ second, directive.line = line)
    (hrest : ∀ directive ∈ rest, line < directive.line)
    (hrest' : ∀ directive ∈ rest', line < directive.line) :
    first.toList ++ rest = second.toList ++ rest' ↔ first = second ∧ rest = rest' := by
  constructor
  · intro h
    cases first with
    | none =>
      cases second with
      | none => exact ⟨rfl, h⟩
      | some directive =>
        have hlater := hrest directive (by
          rw [show rest = directive :: rest' from h]
          exact List.mem_cons_self)
        rw [hsecond directive rfl] at hlater
        omega
    | some directive =>
      cases second with
      | none =>
        have hlater := hrest' directive (by
          rw [show rest' = directive :: rest from h.symm]
          exact List.mem_cons_self)
        rw [hfirst directive rfl] at hlater
        omega
      | some other =>
        rcases List.cons.inj h with ⟨hsame, htails⟩
        exact ⟨congrArg some hsame, htails⟩
  · rintro ⟨rfl, rfl⟩
    rfl

theorem parseFrom_iff (lines : List LineTokens) (start : Nat) :
    parseTypeIgnoreDirectivesFrom start (lines.map LineTokens.text)
        = commentDirectivesFrom start lines
      ↔ ∀ line ∈ lines, line.ReadAlike := by
  induction lines generalizing start with
  | nil => exact iff_of_true rfl nofun
  | cons line rest ih =>
    rw [List.map_cons, List.forall_mem_cons, ← readAlike_iff line start, ← ih (start + 1)]
    apply append_eq_append_iff_of_later
    · intro directive hdirective
      rcases Option.bind_eq_some_iff.1 hdirective with ⟨parts, -, hread⟩
      rcases Option.map_eq_some_iff.1 hread with ⟨codes, -, rfl⟩
      rfl
    · intro directive hdirective
      rcases Option.map_eq_some_iff.1 hdirective with ⟨found, -, rfl⟩
      rfl
    · exact fun directive hdirective => le_line_of_parse hdirective
    · exact fun directive hdirective => le_line_of_comment hdirective

/-! ## Removed diagnostics -/

/-- The compiler, reading its directives off the text of a source. -/
def readingTypeIgnores (compiler : Compiler) : Compiler :=
  { compiler with
    typeIgnoreDirectives := fun source => parseTypeIgnoreDirectives source.text.toList }

/-- The file of a diagnostic has a directive for it on its first line. Of several sources with one
path the last one is the file. -/
def Suppressed (sources : List Source) (diagnostic : Diagnostic) : Prop :=
  ∃ span, diagnostic.span = some span
    ∧ ∃ before source after, sources = before ++ source :: after ∧ source.path = span.path
      ∧ (∀ other ∈ after, other.path ≠ span.path)
      ∧ ∃ directive ∈ parseTypeIgnoreDirectives source.text.toList, directive.line = span.line
        ∧ ∀ codes, directive.codes = some codes → diagnostic.code ∈ codes

theorem lastEntry_map_path {β : Type} {sources : List Source} {value : Source → β} {path : String}
    {found : β} :
    lastEntry (sources.map fun source => (source.path, value source)) path = some found
      ↔ ∃ before source after, sources = before ++ source :: after ∧ source.path = path
        ∧ (∀ other ∈ after, other.path ≠ path) ∧ value source = found := by
  have hfind : lastEntry (sources.map fun source => (source.path, value source)) path
      = (sources.reverse.find? fun source => source.path = path).map value := by
    unfold lastEntry
    rw [← List.map_reverse, List.find?_map, Option.map_map]
    rfl
  rw [hfind, Option.map_eq_some_iff]
  constructor
  · rintro ⟨source, hsource, rfl⟩
    rcases List.find?_eq_some_iff_append.1 hsource with ⟨hpath, after, before, hparts, hafter⟩
    refine ⟨before.reverse, source, after.reverse, ?_, of_decide_eq_true hpath, ?_, rfl⟩
    · rw [← List.reverse_reverse sources, hparts]
      simp
    · intro other hother
      have hnot := hafter other (List.mem_reverse.1 hother)
      simpa using hnot
  · rintro ⟨before, source, after, rfl, hpath, hafter, rfl⟩
    refine ⟨source, List.find?_eq_some_iff_append.2 ⟨decide_eq_true hpath, after.reverse,
      before.reverse, by simp, ?_⟩, rfl⟩
    intro other hother
    simpa using hafter other (List.mem_reverse.1 hother)

theorem covers_iff {directive : TypeIgnoreDirective} {span : Span} {code : String} :
    directive.covers span code = true
      ↔ directive.line = span.line ∧ ∀ codes, directive.codes = some codes → code ∈ codes := by
  rw [TypeIgnoreDirective.covers, Bool.and_eq_true, decide_eq_true_eq]
  cases directive.codes <;> simp

/-- The suppressed diagnostics are removed, the others stay in their order. -/
theorem applyTypeIgnoreDirectives_eq (compiler : Compiler) (sources : List Source) :
    ∃ keep : Diagnostic → Bool,
      (∀ diagnostic, keep diagnostic = false ↔ Suppressed sources diagnostic)
        ∧ ∀ diagnostics, applyTypeIgnoreDirectives (readingTypeIgnores compiler) sources diagnostics
          = diagnostics.filter keep := by
  refine ⟨_, ?_, fun diagnostics => rfl⟩
  intro diagnostic
  unfold Suppressed
  cases hspan : diagnostic.span with
  | none => exact iff_of_false nofun fun ⟨span, h, _⟩ => nomatch h
  | some span =>
    dsimp only
    rw [getElem?_foldl_insert, ExtTreeMap.getElem?_empty, Option.or_none]
    constructor
    · intro h
      split at h
      · cases h
      · rename_i directives hdirectives
        rcases lastEntry_map_path.1 hdirectives with
          ⟨before, source, after, hsources, hpath, hafter, rfl⟩
        rw [Bool.not_eq_false', List.any_eq_true] at h
        rcases h with ⟨directive, hdirective, hcovers⟩
        exact ⟨span, rfl, before, source, after, hsources, hpath, hafter, directive, hdirective,
          covers_iff.1 hcovers⟩
    · rintro ⟨span', hsame, before, source, after, hsources, hpath, hafter, directive, hdirective,
        hcovers⟩
      cases hsame
      rw [lastEntry_map_path.2 ⟨before, source, after, hsources, hpath, hafter, rfl⟩]
      dsimp only
      rw [Bool.not_eq_false', List.any_eq_true]
      exact ⟨directive, hdirective, covers_iff.2 hcovers⟩

/-! ## Type-ignore comments -/

/-- The directives of the files are their comments, and remove what they are for. -/
def TypeIgnoresExact (compiler : Compiler) (files : List TokenizedSource) : Prop :=
  (∀ file ∈ files,
      parseTypeIgnoreDirectives file.source.text.toList = file.commentDirectives)
    ∧ ∃ keep : Diagnostic → Bool,
      (∀ diagnostic, keep diagnostic = false
          ↔ Suppressed (files.map TokenizedSource.source) diagnostic)
        ∧ ∀ diagnostics, applyTypeIgnoreDirectives (readingTypeIgnores compiler)
            (files.map TokenizedSource.source) diagnostics = diagnostics.filter keep

theorem typeIgnoresExact_iff (compiler : Compiler) (files : List TokenizedSource) :
    TypeIgnoresExact compiler files ↔ ∀ file ∈ files, ∀ line ∈ file.lines, line.ReadAlike := by
  unfold TypeIgnoresExact
  rw [and_iff_left (applyTypeIgnoreDirectives_eq compiler _)]
  refine forall₂_congr fun file _ => ?_
  rw [parseTypeIgnoreDirectives, ← file.reads]
  exact parseFrom_iff file.lines 1

/-- A directive with a remark behind it. -/
def remarkedFile : TokenizedSource where
  source := ⟨"m.tpy", "m", .typePython, "x = y  # type: ignore  # later\n"⟩
  lines := [{
    pieces := [.code "x = y  ".toList]
    comment := some ⟨" type: ignore  # later".toList, [], .inl rfl⟩
    plain := by simp }]
  reads := by decide

/-- The remark is taken for a part of the directive. -/
theorem remarkedFile_not_exact : ¬ TypeIgnoresExact leakCompiler [remarkedFile] := by
  intro h
  have hnone : parseTypeIgnoreDirectives remarkedFile.source.text.toList = [] := by decide
  have hdirectives := h.1 remarkedFile (List.mem_singleton_self _)
  rw [hnone] at hdirectives
  exact absurd (congrArg List.length hdirectives) (by decide)

end TypePython.Pipeline
