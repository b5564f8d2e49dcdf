import TypePython.Emit.DualLines
import TypePython.Lib.BracketedText
import TypePython.Syntax.Normalization

/-!
# Dual emit

An asynchronous function under `@dual_emit` is emitted twice: once with the `await` operators
taken out and with `Client` for `AsyncClient`, and once as it is. The pass finds the function by
the indentation of its lines, so a line at the margin ends it, and rewrites each line by itself
(`dualEmitted_iff`).
-/

namespace TypePython.Emit

open TypePython.Lib.Text
open TypePython.Syntax (sourceLines joinLines)

/-! ## The pass -/

/-- The value of a keyword argument of the decorator, if it is a string literal. -/
def explicitDualEmitName (decorator key : Chars) : Option Chars :=
  (splitAtFirst (key ++ ['=']) decorator).bind fun (_, rest) =>
    match trimStart rest with
    | [] => none
    | quote :: value =>
      if quote = '"' || quote = '\'' then (splitOnce quote value).map Prod.fst else none

def isAsciiLowercase (c : Char) : Bool := 'a' ≤ c && c ≤ 'z'

def defaultSyncDualName (name : Chars) : Chars :=
  match name with
  | 'a' :: rest => if rest.head?.any isAsciiLowercase then rest else name
  | _ => name

def defaultAsyncDualName (name : Chars) : Chars :=
  if name.head? = some 'a' then name else 'a' :: name

def indentationOf (line : Chars) : Chars := line.takeWhile isWhitespace

def indentationWidth (line : Chars) : Nat := byteLen (indentationOf line)

/-- The two headers that a decorator and the line below it lead to. -/
structure DualHeaders where
  width : Nat
  sync : Chars
  async : Chars

def dualHeaders (decorator function : Chars) : Option DualHeaders :=
  if (stripPrefix "@dual_emit".toList (trimStart decorator)).isNone then none
  else
    (stripPrefix "async def ".toList (trimStart function)).bind fun declared =>
      (splitOnce '(' declared).map fun (name, signature) =>
        let syncName := (explicitDualEmitName (trimStart decorator) "sync_name".toList).getD
          (defaultSyncDualName name)
        let asyncName := (explicitDualEmitName (trimStart decorator) "async_name".toList).getD
          (defaultAsyncDualName name)
        { width := indentationWidth function
          sync := syncDualLine
            (indentationOf function ++ "def ".toList ++ syncName ++ '(' :: signature)
          async := indentationOf function ++ "async def ".toList ++ asyncName ++ '(' :: signature }

/-- A line below a header of this width that belongs to its function. -/
def belongsBelow (width : Nat) (line : Chars) : Bool :=
  trimStart line = [] || width < indentationWidth line

def dualEmitLines : List Chars → List Chars
  | [] => []
  | [line] => [line]
  | line :: next :: rest =>
    match dualHeaders line next with
    | none => line :: dualEmitLines (next :: rest)
    | some headers =>
      headers.sync :: ((rest.takeWhile (belongsBelow headers.width)).map syncDualLine
        ++ [] :: headers.async :: (rest.takeWhile (belongsBelow headers.width)
          ++ dualEmitLines (rest.dropWhile (belongsBelow headers.width))))
termination_by lines => lines.length
decreasing_by
  · simp
  · have := (List.dropWhile_sublist (belongsBelow headers.width) (l := rest)).length_le
    simp only [List.length_cons]
    omega

def applyDualEmitDecoratorLowering (source : Chars) : Chars :=
  joinLines (dualEmitLines (sourceLines source))

/-! ## Functions among other lines -/

/-- A decorated function: its decorator, its header up to the end of the line, and the lines below
that belong to it. -/
structure DualFunction where
  decorator : Chars
  indentation : Chars
  name : Chars
  signature : DualLine
  lines : List DualLine

namespace DualFunction

def header (function : DualFunction) : Chars :=
  function.indentation ++ "async def ".toList ++ function.name ++ '(' :: function.signature.text

def syncName (function : DualFunction) : Chars :=
  (explicitDualEmitName (trimStart function.decorator) "sync_name".toList).getD
    (defaultSyncDualName function.name)

def asyncName (function : DualFunction) : Chars :=
  (explicitDualEmitName (trimStart function.decorator) "async_name".toList).getD
    (defaultAsyncDualName function.name)

/-- The header of the synchronous function, before its names are replaced. -/
def syncHeader (function : DualFunction) : DualLine :=
  .verbatim (function.indentation ++ "def ".toList ++ function.syncName ++ ['('])
    :: function.signature

def asyncHeader (function : DualFunction) : Chars :=
  function.indentation ++ "async def ".toList ++ function.asyncName
    ++ '(' :: function.signature.text

def width (function : DualFunction) : Nat := byteLen function.indentation

def source (function : DualFunction) : List Chars :=
  function.decorator :: function.header :: function.lines.map DualLine.text

/-- The synchronous and the asynchronous function. -/
def pair (function : DualFunction) : List Chars :=
  function.syncHeader.sync :: (function.lines.map DualLine.sync
    ++ [] :: function.asyncHeader :: function.lines.map DualLine.text)

/-- What the source of a function is. A line at the margin has more than operators. -/
structure WellFormed (function : DualFunction) : Prop where
  decorated : (stripPrefix "@dual_emit".toList (trimStart function.decorator)).isSome = true
  indented : ∀ c ∈ function.indentation, isWhitespace c = true
  named : '(' ∉ function.name
  header : NoNameBefore function.syncHeader
  lines : ∀ line ∈ function.lines, NoNameBefore line
  margin : ∀ line ∈ function.lines, belongsBelow function.width line.text = false → line.sync ≠ []

/-- The pass rewrites the function as a whole and line by line. -/
structure Rewritable (function : DualFunction) : Prop where
  header : RewritableAsText function.syncHeader
  lines : ∀ line ∈ function.lines, RewritableAsText line
  below : ∀ line ∈ function.lines, belongsBelow function.width line.text = true

theorem dualHeaders_eq {function : DualFunction} (h : function.WellFormed) :
    dualHeaders function.decorator function.header
      = some ⟨function.width, syncDualLine function.syncHeader.text, function.asyncHeader⟩ := by
  have hindentation : indentationOf function.header = function.indentation := by
    unfold indentationOf DualFunction.header
    rw [List.append_assoc, List.append_assoc, List.takeWhile_append_of_pos h.indented]
    exact List.append_nil _
  have htrim : trimStart function.header
      = "async def ".toList ++ (function.name ++ '(' :: function.signature.text) := by
    unfold DualFunction.header
    rw [List.append_assoc, List.append_assoc, trimStart_append h.indented]
    rfl
  have hdecorated : (stripPrefix "@dual_emit".toList (trimStart function.decorator)).isNone = false := by
    rw [← Option.not_isSome, h.decorated]
    rfl
  unfold dualHeaders
  rw [hdecorated, if_neg Bool.false_ne_true, htrim, stripPrefix_append, Option.bind_some,
    splitOnce_concat h.named, Option.map_some]
  simp only [Option.some.injEq, DualHeaders.mk.injEq]
  refine ⟨?_, ?_, ?_⟩
  · rw [indentationWidth, hindentation, width]
  · rw [hindentation]
    congr 1
    unfold syncHeader DualFunction.syncName
    rw [DualLine.text_cons]
    simp [DualToken.text]
  · rw [hindentation]
    rfl

end DualFunction

inductive DualBlock where
  | line (text : Chars)
  | function (dual : DualFunction)

namespace DualBlock

def source : DualBlock → List Chars
  | line text => [text]
  | function dual => dual.source

def emitted : DualBlock → List Chars
  | line text => [text]
  | function dual => dual.pair

/-- A block and what follows it are told apart: a line is not a decorator of the next, and a
function ends where a line of its margin follows. -/
def Ends (next : Option Chars) : DualBlock → Prop
  | line text => ∀ line, next = some line → dualHeaders text line = none
  | function dual =>
    dual.WellFormed ∧ ∀ line, next = some line → belongsBelow dual.width line = false

end DualBlock

/-- A division of a source into functions and other lines. -/
def Divided : List DualBlock → Prop
  | [] => True
  | block :: rest => block.Ends (rest.flatMap DualBlock.source).head? ∧ Divided rest

theorem dualEmitLines_line {text : Chars} {rest : List Chars}
    (h : ∀ line, rest.head? = some line → dualHeaders text line = none) :
    dualEmitLines (text :: rest) = text :: dualEmitLines rest := by
  cases rest with
  | nil => simp [dualEmitLines]
  | cons next rest =>
    rw [dualEmitLines, h next rfl]

/-- A function, whether or not all of its lines are found. -/
theorem dualEmitLines_function {function : DualFunction} (h : function.WellFormed)
    (rest : List Chars) :
    dualEmitLines (function.source ++ rest)
      = syncDualLine function.syncHeader.text
        :: (((function.lines.map DualLine.text ++ rest).takeWhile
              (belongsBelow function.width)).map syncDualLine
          ++ [] :: function.asyncHeader
            :: ((function.lines.map DualLine.text ++ rest).takeWhile (belongsBelow function.width)
              ++ dualEmitLines ((function.lines.map DualLine.text ++ rest).dropWhile
                (belongsBelow function.width)))) := by
  rw [DualFunction.source, List.cons_append, List.cons_append, dualEmitLines,
    function.dualHeaders_eq h]

/-- A function whose lines are all below its header. -/
theorem dualEmitLines_below {function : DualFunction} (h : function.WellFormed)
    (hbelow : ∀ line ∈ function.lines, belongsBelow function.width line.text = true)
    {rest : List Chars}
    (hrest : ∀ line, rest.head? = some line → belongsBelow function.width line = false) :
    dualEmitLines (function.source ++ rest)
      = syncDualLine function.syncHeader.text
        :: (function.lines.map (fun line => syncDualLine line.text)
          ++ [] :: function.asyncHeader
            :: (function.lines.map DualLine.text ++ dualEmitLines rest)) := by
  have hall : ∀ line ∈ function.lines.map DualLine.text, belongsBelow function.width line = true := by
    intro line hline
    obtain ⟨tokens, htokens, rfl⟩ := List.mem_map.1 hline
    exact hbelow tokens htokens
  have hstop : rest.takeWhile (belongsBelow function.width) = []
      ∧ rest.dropWhile (belongsBelow function.width) = rest := by
    cases rest with
    | nil => exact ⟨rfl, rfl⟩
    | cons line rest =>
      have hline := hrest line rfl
      constructor
      · rw [List.takeWhile_cons_of_neg (by rw [hline]; exact Bool.false_ne_true)]
      · rw [List.dropWhile_cons_of_neg (by rw [hline]; exact Bool.false_ne_true)]
  rw [dualEmitLines_function h, List.takeWhile_append_of_pos hall, List.dropWhile_append_of_pos hall,
    hstop.1, hstop.2, List.append_nil, List.map_map]
  rfl

/-- A function with a line at the margin is cut there. -/
theorem dualEmitLines_margin {function : DualFunction} (h : function.WellFormed)
    {before after : List DualLine} {line : DualLine} (hlines : function.lines = before ++ line :: after)
    (hbefore : ∀ line ∈ before, belongsBelow function.width line.text = true)
    (hline : belongsBelow function.width line.text = false) (rest rest' : List Chars) :
    dualEmitLines (function.source ++ rest) ≠ function.pair ++ rest' := by
  have hall : ∀ line ∈ before.map DualLine.text, belongsBelow function.width line = true := by
    intro line hline
    obtain ⟨tokens, htokens, rfl⟩ := List.mem_map.1 hline
    exact hbefore tokens htokens
  have hsplit : function.lines.map DualLine.text ++ rest
      = before.map DualLine.text ++ (line.text :: (after.map DualLine.text ++ rest)) := by
    rw [hlines]
    simp
  rw [dualEmitLines_function h, hsplit, List.takeWhile_append_of_pos hall,
    List.takeWhile_cons_of_neg (by rw [hline]; exact Bool.false_ne_true), List.append_nil,
    DualFunction.pair, hlines]
  intro hsame
  rw [List.cons_append, List.cons.injEq] at hsame
  have htail := hsame.2
  rw [List.map_append, List.append_assoc, List.append_assoc] at htail
  obtain ⟨-, hnext⟩ := List.append_inj htail (by simp)
  rw [List.map_cons, List.cons_append, List.cons.injEq] at hnext
  -- the blank line between the two functions stands where the line should be
  have hmem : line ∈ function.lines := by
    rw [hlines]
    simp
  exact h.margin line hmem hline hnext.1.symm

theorem map_syncDualLine_iff {lines : List DualLine} (h : ∀ line ∈ lines, NoNameBefore line) :
    lines.map (fun line => syncDualLine line.text) = lines.map DualLine.sync
      ↔ ∀ line ∈ lines, RewritableAsText line := by
  rw [List.map_inj_left]
  exact forall₂_congr fun line hline => syncDualLine_iff (h line hline)

/-- The first line at the margin, if there is one. -/
theorem exists_margin {function : DualFunction}
    (h : ¬ ∀ line ∈ function.lines, belongsBelow function.width line.text = true) :
    ∃ before line after, function.lines = before ++ line :: after
      ∧ (∀ line ∈ before, belongsBelow function.width (DualLine.text line) = true)
      ∧ belongsBelow function.width (DualLine.text line) = false := by
  generalize function.lines = lines at h ⊢
  induction lines with
  | nil => exact absurd (fun _ hmem => absurd hmem List.not_mem_nil) h
  | cons line lines ih =>
    by_cases hline : belongsBelow function.width line.text = true
    · obtain ⟨before, line', after, rfl, hbefore, hline'⟩ := ih fun hall =>
        h (List.forall_mem_cons.2 ⟨hline, hall⟩)
      exact ⟨line :: before, line', after, rfl, List.forall_mem_cons.2 ⟨hline, hbefore⟩, hline'⟩
    · exact ⟨[], line, lines, rfl, fun _ hmem => absurd hmem List.not_mem_nil,
        Bool.eq_false_iff.2 hline⟩

/-- The emitted lines are the other lines and the two functions of each decorated function exactly
if every decorated function is found as a whole and its lines can be rewritten as text. -/
theorem dualEmitLines_iff {blocks : List DualBlock} (h : Divided blocks) :
    dualEmitLines (blocks.flatMap DualBlock.source) = blocks.flatMap DualBlock.emitted
      ↔ ∀ function, DualBlock.function function ∈ blocks → function.Rewritable := by
  induction blocks with
  | nil => simp [dualEmitLines]
  | cons block rest ih =>
    obtain ⟨hends, hrest⟩ := h
    rw [List.flatMap_cons, List.flatMap_cons]
    cases block with
    | line text =>
      have hline : dualEmitLines ((DualBlock.line text).source ++ rest.flatMap DualBlock.source)
          = text :: dualEmitLines (rest.flatMap DualBlock.source) := dualEmitLines_line hends
      have hmem : ∀ function, DualBlock.function function ∈ DualBlock.line text :: rest
          ↔ DualBlock.function function ∈ rest := by simp
      rw [hline]
      simp only [hmem, DualBlock.emitted, List.cons_append, List.nil_append, List.cons.injEq,
        true_and]
      exact ih hrest
    | function dual =>
      obtain ⟨hformed, hnext⟩ := hends
      have hmem : (∀ function, DualBlock.function function ∈ DualBlock.function dual :: rest →
            function.Rewritable)
          ↔ dual.Rewritable ∧ ∀ function, DualBlock.function function ∈ rest →
            function.Rewritable := by simp
      rw [hmem, ← ih hrest]
      change dualEmitLines (dual.source ++ _) = dual.pair ++ _ ↔ _
      by_cases hbelow : ∀ line ∈ dual.lines, belongsBelow dual.width line.text = true
      · rw [dualEmitLines_below hformed hbelow hnext, DualFunction.pair]
        constructor
        · intro hsame
          rw [List.cons_append, List.cons.injEq] at hsame
          obtain ⟨hheader, hlines⟩ := hsame
          rw [List.append_assoc] at hlines
          obtain ⟨hbody, htail⟩ := List.append_inj hlines (by simp)
          rw [List.cons_append, List.cons_append, List.cons.injEq, List.cons.injEq] at htail
          exact ⟨⟨(syncDualLine_iff hformed.header).1 hheader,
            (map_syncDualLine_iff hformed.lines).1 hbody, hbelow⟩,
            List.append_cancel_left htail.2.2⟩
        · rintro ⟨hrewritable, htail⟩
          rw [(syncDualLine_iff hformed.header).2 hrewritable.header,
            (map_syncDualLine_iff hformed.lines).2 hrewritable.lines, htail]
          simp
      · obtain ⟨before, line, after, hlines, hbefore, hline⟩ := exists_margin hbelow
        refine iff_of_false (dualEmitLines_margin hformed hlines hbefore hline _ _) ?_
        exact fun hboth => hbelow hboth.1.below

/-- The functions are emitted twice, and no line loses its place when its operators are taken
out. -/
structure DualEmitted (blocks : List DualBlock) : Prop where
  lines : dualEmitLines (blocks.flatMap DualBlock.source) = blocks.flatMap DualBlock.emitted
  indented : ∀ function, DualBlock.function function ∈ blocks → ∀ line ∈ function.lines,
    indentationOf line.sync = indentationOf line.text

theorem dualEmitted_iff {blocks : List DualBlock} (h : Divided blocks) :
    DualEmitted blocks ↔ ∀ function, DualBlock.function function ∈ blocks →
      function.Rewritable
        ∧ ∀ line ∈ function.lines, indentationOf line.sync = indentationOf line.text := by
  constructor
  · intro hemitted function hfunction
    exact ⟨(dualEmitLines_iff h).1 hemitted.lines function hfunction,
      hemitted.indented function hfunction⟩
  · intro hall
    exact ⟨(dualEmitLines_iff h).2 fun function hfunction => (hall function hfunction).1,
      fun function hfunction => (hall function hfunction).2⟩

/-- A method with one operator. -/
def fetchUser : DualFunction where
  decorator := "@dual_emit".toList
  indentation := []
  name := "fetch_user".toList
  signature := [.verbatim "client: ".toList, .asyncClient, .verbatim ") -> User:".toList]
  lines := [[.verbatim "    return ".toList, .awaitOperator true, .verbatim "client.get()".toList]]

theorem fetchUser_emitted :
    DualEmitted [.line "import httpx".toList, .function fetchUser, .line "x = 1".toList] := by
  have hformed : fetchUser.WellFormed := by
    constructor
    · decide
    · exact fun c hc => absurd hc List.not_mem_nil
    · decide
    · exact .inl rfl
    · exact List.forall_mem_singleton.2 (by decide)
    · exact List.forall_mem_singleton.2 (by decide)
  have hdivided : Divided
      [.line "import httpx".toList, .function fetchUser, .line "x = 1".toList] := by
    refine ⟨?_, ⟨hformed, ?_⟩, ?_, trivial⟩
    · intro line hline
      cases hline
      decide
    · intro line hline
      cases hline
      decide
    · intro line hline
      cases hline
  refine (dualEmitted_iff hdivided).2 ?_
  intro function hfunction
  have hsame : function = fetchUser := by simpa using hfunction
  rw [hsame]
  refine ⟨⟨⟨.inl ⟨rfl, by decide⟩, by decide⟩, ?_, ?_⟩, ?_⟩
  · refine List.forall_mem_singleton.2 ⟨.inr ⟨[.verbatim "    return ".toList],
      [.verbatim "client.get()".toList], rfl, rfl, rfl, by decide⟩, by decide⟩
  · exact List.forall_mem_singleton.2 (by decide)
  · exact List.forall_mem_singleton.2 (by decide)

/-- A function with two operators in one line. -/
def addBoth : DualFunction where
  decorator := "@dual_emit".toList
  indentation := []
  name := "add".toList
  signature := [.verbatim "):".toList]
  lines := [[.verbatim "    return ".toList, .awaitOperator true, .verbatim "a() + ".toList,
    .awaitOperator true, .verbatim "b()".toList]]

theorem addBoth_awaits :
    Divided [.function addBoth] ∧ ¬ DualEmitted [.function addBoth] := by
  have hformed : addBoth.WellFormed := by
    constructor
    · decide
    · exact fun c hc => absurd hc List.not_mem_nil
    · decide
    · exact .inl rfl
    · exact List.forall_mem_singleton.2 (by decide)
    · exact List.forall_mem_singleton.2 (by decide)
  have hnone : ∀ line : Chars, ([] : List Chars).head? = some line →
      belongsBelow addBoth.width line = false := by
    intro line hline
    cases hline
  refine ⟨⟨⟨hformed, hnone⟩, trivial⟩, ?_⟩
  intro hemitted
  have hlines := hemitted.lines
  change dualEmitLines (addBoth.source ++ []) = addBoth.pair ++ [] at hlines
  rw [dualEmitLines_below hformed (List.forall_mem_singleton.2 (by decide)) hnone, dualEmitLines]
    at hlines
  revert hlines
  decide +kernel

end TypePython.Emit
