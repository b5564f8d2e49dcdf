import Mathlib.Algebra.Group.Nat.Defs
import TypePython.Lib.CodeUnits

/-!
# Positions

The program counts the bytes of a text, the client its lines and their UTF-16 code units. The
program's counters are 32 bits wide: one wraps, the others stay at the largest number.

A position with its text stands for the characters before it (`prefixAt`), and both countings
find it there: `byteOffsetAtPosition_toOption` for the program, `unitOffset_codeUnits` for the
client.
-/

namespace TypePython.Lsp

open TypePython.Lib.Text

structure LspPosition where
  line : Nat
  character : Nat
deriving DecidableEq, Repr

structure LspRange where
  start : LspPosition
  stop : LspPosition
deriving DecidableEq, Repr

inductive PositionConversionError where
  | lineOutOfBounds
  | characterOutOfBounds
  | splitsCodePoint
deriving DecidableEq, Repr

/-- `u32::saturating_add` -/
def saturatingAdd (a b : Nat) : Nat := min (a + b) (2 ^ 32 - 1)

/-- `utf16_len` -/
def utf16LenU32 (text : Chars) : Nat :=
  text.foldl (fun length character => saturatingAdd length (lenUtf16 character)) 0

def positionAtByteOffset (text : Chars) (offset : Nat) : Option LspPosition :=
  (splitAtByte text offset).map fun (before, _) =>
    { line := before.count '\n' % 2 ^ 32, character := utf16LenU32 (lastLine before) }

/-- The loop over the characters of a line, from one with these offsets on. -/
def byteOffsetAtUtf16Column (character : Nat) :
    Nat → Nat → Chars → Except PositionConversionError Nat
  | utf16Offset, byteOffset, [] =>
    if utf16Offset = character then .ok byteOffset else .error .characterOutOfBounds
  | utf16Offset, byteOffset, c :: rest =>
    if utf16Offset = character then .ok byteOffset
    else if character < saturatingAdd utf16Offset (lenUtf16 c) then .error .splitsCodePoint
    else
      byteOffsetAtUtf16Column character (saturatingAdd utf16Offset (lenUtf16 c))
        (byteOffset + c.utf8Size) rest

/-- The loop over the lines of a text. -/
def byteOffsetFrom (position : LspPosition) :
    Nat → Nat → List Chars → Except PositionConversionError Nat
  | _, _, [] => .error .lineOutOfBounds
  | lineStart, lineNumber, line :: rest =>
    if lineNumber = position.line then
      (byteOffsetAtUtf16Column position.character 0 0 (stripCarriageReturn line)).map
        (lineStart + ·)
    else
      byteOffsetFrom position (lineStart + byteLen line + 1) (saturatingAdd lineNumber 1) rest

def byteOffsetAtPosition (text : Chars) (position : LspPosition) :
    Except PositionConversionError Nat :=
  byteOffsetFrom position 0 0 (rawLines text)

/-! ## The client's positions -/

/-- A line ends before a line feed, a carriage return or both. -/
def isLineEnd (codeUnit : Nat) : Bool := codeUnit = 10 || codeUnit = 13

/-- What follows the first line break. -/
def unitsBelow : List Nat → Option (List Nat)
  | [] => none
  | codeUnit :: rest =>
    if codeUnit = 10 then some rest
    else if codeUnit = 13 then some (if rest.head? = some 10 then rest.tail else rest)
    else unitsBelow rest

/-- The code units before a position: of the lines above, and of the line. -/
def unitOffset : Nat → Nat → List Nat → Option Nat
  | 0, character, units =>
    if character ≤ (units.takeWhile fun codeUnit => !isLineEnd codeUnit).length
        && !splitsPair (units.take character) (units.drop character) then
      some character
    else none
  | line + 1, character, units =>
    (unitsBelow units).bind fun below =>
      (unitOffset line character below).map (units.length - below.length + ·)

def offsetOf (units : List Nat) (position : LspPosition) : Option Nat :=
  unitOffset position.line position.character units

/-! ## The characters before a position -/

/-- The characters that so many code units take. -/
def columnPrefix : Nat → Chars → Option Chars
  | 0, _ => some []
  | _ + 1, [] => none
  | character + 1, c :: rest =>
    if lenUtf16 c ≤ character + 1 then
      (columnPrefix (character + 1 - lenUtf16 c) rest).map (c :: ·)
    else none

def prefixAt : Nat → Nat → Chars → Option Chars
  | 0, character, text => columnPrefix character (stripCarriageReturn (rawLine text))
  | line + 1, character, text =>
    (skipLine text).bind fun rest =>
      (prefixAt line character rest).map fun before => rawLine text ++ '\n' :: before

theorem columnPrefix_append (before after : Chars) :
    columnPrefix (utf16Len before) (before ++ after) = some before := by
  induction before with
  | nil => rw [utf16Len, columnPrefix]
  | cons c rest ih =>
    have hpos := lenUtf16_pos c
    obtain ⟨n, hn⟩ : ∃ n, utf16Len (c :: rest) = n + 1 :=
      ⟨utf16Len (c :: rest) - 1, by rw [utf16Len]; omega⟩
    rw [hn, List.cons_append, columnPrefix, ← hn, utf16Len, if_pos (by omega),
      Nat.add_sub_cancel_left, ih]
    rfl

variable {text before : Chars} {character : Nat}

theorem columnPrefix_eq_some (h : columnPrefix character text = some before) :
    ∃ after, text = before ++ after ∧ utf16Len before = character := by
  induction text generalizing character before with
  | nil =>
    cases character with
    | zero =>
      cases h
      exact ⟨[], rfl, rfl⟩
    | succ character => cases h
  | cons c rest ih =>
    cases character with
    | zero =>
      cases h
      exact ⟨c :: rest, rfl, rfl⟩
    | succ character =>
      rw [columnPrefix] at h
      split_ifs at h with hsize
      obtain ⟨before', hrest, rfl⟩ := Option.map_eq_some_iff.1 h
      obtain ⟨after, htext, hlen⟩ := ih hrest
      refine ⟨after, by rw [htext, List.cons_append], ?_⟩
      rw [utf16Len, hlen]
      omega

/-! ## The program's counting -/

theorem saturatingAdd_eq {a b : Nat} (h : a + b < 2 ^ 32) : saturatingAdd a b = a + b := by
  unfold saturatingAdd
  omega

theorem foldl_saturatingAdd (text : Chars) (length : Nat) (h : length + utf16Len text < 2 ^ 32) :
    text.foldl (fun length character => saturatingAdd length (lenUtf16 character)) length
      = length + utf16Len text := by
  induction text generalizing length with
  | nil => rfl
  | cons c rest ih =>
    rw [utf16Len] at h
    rw [List.foldl_cons, saturatingAdd_eq (by omega), ih _ (by omega), utf16Len]
    omega

theorem utf16LenU32_eq (h : utf16Len text < 2 ^ 32) : utf16LenU32 text = utf16Len text := by
  rw [utf16LenU32, foldl_saturatingAdd text 0 (by omega), Nat.zero_add]

theorem byteOffsetAtUtf16Column_toOption (character utf16Offset byteOffset : Nat) (text : Chars)
    (hle : utf16Offset ≤ character) (h : utf16Offset + utf16Len text < 2 ^ 32) :
    (byteOffsetAtUtf16Column character utf16Offset byteOffset text).toOption
      = (columnPrefix (character - utf16Offset) text).map (byteOffset + byteLen ·) := by
  induction text generalizing utf16Offset byteOffset with
  | nil =>
    rw [byteOffsetAtUtf16Column]
    split_ifs with heq
    · rw [heq, Nat.sub_self]
      rfl
    · obtain ⟨n, hn⟩ : ∃ n, character - utf16Offset = n + 1 :=
        ⟨character - utf16Offset - 1, by omega⟩
      rw [hn]
      rfl
  | cons c rest ih =>
    have hpos := lenUtf16_pos c
    rw [utf16Len] at h
    rw [byteOffsetAtUtf16Column, saturatingAdd_eq (by omega)]
    split_ifs with heq hlt
    · rw [heq, Nat.sub_self]
      rfl
    · obtain ⟨n, hn⟩ : ∃ n, character - utf16Offset = n + 1 :=
        ⟨character - utf16Offset - 1, by omega⟩
      rw [hn, columnPrefix, if_neg (by omega)]
      rfl
    · obtain ⟨n, hn⟩ : ∃ n, character - utf16Offset = n + 1 :=
        ⟨character - utf16Offset - 1, by omega⟩
      rw [ih _ _ (by omega) (by omega), hn, columnPrefix, if_pos (by omega), ← hn,
        Nat.sub_sub, Option.map_map]
      congr 1
      funext before
      simp only [Function.comp_apply, byteLen]
      omega

theorem utf16Len_stripCarriageReturn (line : Chars) :
    utf16Len (stripCarriageReturn line) ≤ utf16Len line := by
  unfold stripCarriageReturn stripSuffix
  cases hsuffix : List.isSuffixOf? ['\r'] line with
  | none => exact Nat.le_refl _
  | some before =>
    rw [List.isSuffixOf?_eq_some_iff_append_eq] at hsuffix
    rw [← hsuffix, utf16Len_append]
    exact Nat.le_add_right _ _

/-- A line of the text, `lines` lines below the one the loop is at. -/
theorem byteOffsetFrom_toOption (character lines lineStart lineNumber : Nat) (text : Chars)
    (h : lineNumber + utf16Len text < 2 ^ 32) :
    (byteOffsetFrom ⟨lineNumber + lines, character⟩ lineStart lineNumber (rawLines text)).toOption
      = (prefixAt lines character text).map (lineStart + byteLen ·) := by
  induction lines generalizing lineStart lineNumber text with
  | zero =>
    -- the first line, whether or not others follow
    have hline : ∀ line others, utf16Len line < 2 ^ 32 →
        (byteOffsetFrom ⟨lineNumber + 0, character⟩ lineStart lineNumber
            (line :: others)).toOption
          = (columnPrefix character (stripCarriageReturn line)).map (lineStart + byteLen ·) := by
      intro line others hshort
      have hstrip := utf16Len_stripCarriageReturn line
      have hcolumn := byteOffsetAtUtf16Column_toOption character 0 0 (stripCarriageReturn line)
        (Nat.zero_le _) (by omega)
      rw [byteOffsetFrom, if_pos (by simp)]
      rw [Nat.sub_zero] at hcolumn
      cases hresult : byteOffsetAtUtf16Column character 0 0 (stripCarriageReturn line) with
      | error error =>
        rw [hresult] at hcolumn
        cases hfront : columnPrefix character (stripCarriageReturn line) with
        | none => rfl
        | some before =>
          rw [hfront] at hcolumn
          cases hcolumn
      | ok offset =>
        rw [hresult] at hcolumn
        cases hfront : columnPrefix character (stripCarriageReturn line) with
        | none =>
          rw [hfront] at hcolumn
          cases hcolumn
        | some before =>
          rw [hfront] at hcolumn
          have hoffset : offset = 0 + byteLen before := Option.some.inj hcolumn
          rw [hoffset, Nat.zero_add]
          rfl
    rw [prefixAt]
    rcases line_cases text with hnone | ⟨raw, rest, hraw, rfl⟩
    · rw [rawLines_of_notMem hnone, rawLine_of_notMem hnone]
      exact hline text [] (by omega)
    · rw [rawLines_append hraw, rawLine_append hraw]
      rw [utf16Len_append] at h
      exact hline raw _ (by omega)
  | succ lines ih =>
    rw [prefixAt]
    rcases line_cases text with hnone | ⟨raw, rest, hraw, rfl⟩
    · rw [rawLines_of_notMem hnone, skipLine_of_notMem hnone, byteOffsetFrom,
        if_neg (by simp), byteOffsetFrom]
      rfl
    · rw [utf16Len_append, utf16Len] at h
      have hfeed : lenUtf16 '\n' = 1 := rfl
      have hrest := ih (lineStart + byteLen raw + 1) (lineNumber + 1) rest (by omega)
      rw [rawLines_append hraw, skipLine_append hraw, rawLine_append hraw, byteOffsetFrom,
        if_neg (by simp), saturatingAdd_eq (by omega), Option.bind_some, Option.map_map,
        show lineNumber + (lines + 1) = lineNumber + 1 + lines by omega, hrest]
      congr 1
      funext before
      have hsize : ('\n' : Char).utf8Size = 1 := rfl
      rw [Function.comp_apply, byteLen_append, byteLen, hsize]
      omega

theorem byteOffsetAtPosition_toOption (h : utf16Len text < 2 ^ 32) (position : LspPosition) :
    (byteOffsetAtPosition text position).toOption
      = (prefixAt position.line position.character text).map byteLen := by
  have hloop := byteOffsetFrom_toOption position.character position.line 0 0 text (by omega)
  rw [Nat.zero_add] at hloop
  rw [byteOffsetAtPosition]
  simpa using hloop

/-! ## The position of a place -/

/-- A place in a text that is not inside a line break. -/
structure PlaceIn (text before after : Chars) : Prop where
  split : text = before ++ after
  whole : ¬ (before.getLast? = some '\r' ∧ after.head? = some '\n')

theorem notMem_lineText {rest : Chars} (h : lineText text = before ++ rest) :
    '\n' ∉ before ∧ '\r' ∉ before := by
  have hall : ∀ c ∈ before, c ≠ '\n' ∧ c ≠ '\r' := by
    intro c hc
    have hmem : c ∈ lineText text := h ▸ List.mem_append_left _ hc
    have hp := List.mem_takeWhile_imp hmem
    rwa [Bool.and_eq_true, decide_eq_true_iff, decide_eq_true_iff] at hp
  exact ⟨fun hmem => (hall _ hmem).1 rfl, fun hmem => (hall _ hmem).2 rfl⟩

/-- What a position stands for is the text before it. -/
theorem prefixAt_eq_some {line : Nat} (hfed : LineFed text)
    (h : prefixAt line character text = some before) :
    ∃ after, PlaceIn text before after ∧ before.count '\n' = line
      ∧ utf16Len (lastLine before) = character := by
  induction line generalizing text before with
  | zero =>
    rw [prefixAt, stripCarriageReturn_rawLine hfed] at h
    obtain ⟨rest, hline, hcharacter⟩ := columnPrefix_eq_some h
    obtain ⟨hfeed, hreturn⟩ := notMem_lineText hline
    have htext := List.takeWhile_append_dropWhile (p := fun c => c ≠ '\n' && c ≠ '\r') (l := text)
    refine ⟨rest ++ text.dropWhile fun c => c ≠ '\n' && c ≠ '\r', ⟨?_, ?_⟩, ?_, ?_⟩
    · conv_lhs => rw [← htext]
      rw [← List.append_assoc, ← hline]
      rfl
    · intro hinside
      exact hreturn (List.mem_of_getLast? hinside.1)
    · exact List.count_eq_zero.2 hfeed
    · rw [lastLine_of_notMem hfeed, hcharacter]
  | succ line ih =>
    rw [prefixAt] at h
    rcases line_cases text with hnone | ⟨raw, rest, hraw, rfl⟩
    · rw [skipLine_of_notMem hnone] at h
      cases h
    · rw [skipLine_append hraw, rawLine_append hraw, Option.bind_some] at h
      obtain ⟨before', hrest, rfl⟩ := Option.map_eq_some_iff.1 h
      obtain ⟨after, hplace, hcount, hcharacter⟩ := ih (LineFed.suffix hfed).tail hrest
      refine ⟨after, ⟨?_, ?_⟩, ?_, ?_⟩
      · rw [hplace.split]
        simp
      · rintro ⟨hlast, hhead⟩
        -- the last character is one of the lines below, or the line feed
        rw [List.getLast?_append, List.getLast?_cons, Option.some_or, Option.some.injEq] at hlast
        cases hend : before'.getLast? with
        | none =>
          rw [hend] at hlast
          cases hlast
        | some c =>
          rw [hend, Option.getD_some] at hlast
          exact hplace.whole ⟨hlast ▸ hend, hhead⟩
      · rw [List.count_append, List.count_eq_zero.2 hraw, List.count_cons_self, hcount]
        omega
      · rw [lastLine_append, hcharacter]

/-- Every place has a position. -/
theorem prefixAt_of_place {after : Chars} (hfed : LineFed text) (h : PlaceIn text before after) :
    prefixAt (before.count '\n') (utf16Len (lastLine before)) text = some before := by
  have htext := h.split
  induction hline : before.count '\n' generalizing text before with
  | zero =>
    have hfeed := List.count_eq_zero.1 hline
    have hreturn : '\r' ∉ before :=
      (LineFed.initial (htext ▸ hfed) h.whole).notMem_carriageReturn hfeed
    rw [prefixAt, stripCarriageReturn_rawLine hfed, lastLine_of_notMem hfeed, htext,
      lineText_append hfeed hreturn, columnPrefix_append]
  | succ line ih =>
    rcases line_cases before with hnone | ⟨raw, rest, hraw, rfl⟩
    · rw [List.count_eq_zero.2 hnone] at hline
      cases hline
    · rw [List.count_append, List.count_eq_zero.2 hraw, List.count_cons_self] at hline
      rw [List.append_assoc, List.cons_append] at htext
      have hfed' : LineFed (rest ++ after) := (LineFed.suffix (htext ▸ hfed)).tail
      have hplace : PlaceIn (rest ++ after) rest after := by
        refine ⟨rfl, ?_⟩
        rintro ⟨hlast, hhead⟩
        refine h.whole ⟨?_, hhead⟩
        rw [List.getLast?_append, List.getLast?_cons, hlast]
        rfl
      have hrest := ih hfed' hplace rfl (by omega)
      rw [prefixAt, htext, skipLine_append hraw, rawLine_append hraw, lastLine_append,
        Option.bind_some, hrest]
      rfl

/-! ## The client's counting -/

theorem isLineEnd_eq_false {codeUnit : Nat} (hfeed : codeUnit ≠ 10) (hreturn : codeUnit ≠ 13) :
    isLineEnd codeUnit = false := by
  unfold isLineEnd
  rw [Bool.or_eq_false_iff, decide_eq_false_iff_not, decide_eq_false_iff_not]
  exact ⟨hfeed, hreturn⟩

/-- Only the two characters of a line break have a code unit that ends a line. -/
theorem isLineEnd_of_mem {c : Char} (hfeed : c ≠ '\n') (hreturn : c ≠ '\r') {codeUnit : Nat}
    (h : codeUnit ∈ charUnits c) : isLineEnd codeUnit = false := by
  unfold charUnits at h
  split at h
  · rw [List.mem_singleton] at h
    rw [h]
    refine isLineEnd_eq_false (fun heq => hfeed ?_) fun heq => hreturn ?_
    · exact Char.toNat_inj.1 heq
    · exact Char.toNat_inj.1 heq
  · rw [List.mem_pair] at h
    refine isLineEnd_eq_false ?_ ?_
    · omega
    · omega

/-- The line of the code units is the line of the text. -/
theorem takeWhile_codeUnits (text : Chars) :
    (codeUnits text).takeWhile (fun codeUnit => !isLineEnd codeUnit) = codeUnits (lineText text) := by
  induction text with
  | nil => rfl
  | cons c rest ih =>
    rw [codeUnits_cons, lineText, List.takeWhile_cons]
    by_cases hfeed : c = '\n'
    · rw [hfeed]
      rfl
    · by_cases hreturn : c = '\r'
      · rw [hreturn]
        rfl
      · rw [if_pos (by simp [hfeed, hreturn]), codeUnits_cons, List.takeWhile_append_of_pos, ih]
        · rfl
        · intro codeUnit hmem
          rw [isLineEnd_of_mem hfeed hreturn hmem]
          rfl

theorem unitsBelow_append {units : List Nat} (h : ∀ codeUnit ∈ units, isLineEnd codeUnit = false)
    (rest : List Nat) : unitsBelow (units ++ rest) = unitsBelow rest := by
  induction units with
  | nil => rfl
  | cons codeUnit units ih =>
    rw [List.forall_mem_cons] at h
    have hends := h.1
    unfold isLineEnd at hends
    rw [Bool.or_eq_false_iff, decide_eq_false_iff_not, decide_eq_false_iff_not] at hends
    rw [List.cons_append, unitsBelow, if_neg hends.1, if_neg hends.2, ih h.2]

theorem skipLine_cons {c : Char} (h : c ≠ '\n') (rest : Chars) : skipLine (c :: rest) = skipLine rest := by
  unfold skipLine
  rw [splitOnce, if_neg h, Option.map_map]
  rfl

theorem unitsBelow_codeUnits (h : LineFed text) :
    unitsBelow (codeUnits text) = (skipLine text).map codeUnits := by
  induction text with
  | nil => rfl
  | cons c rest ih =>
    by_cases hfeed : c = '\n'
    · rw [hfeed]
      rfl
    · by_cases hreturn : c = '\r'
      · rw [hreturn] at h ⊢
        obtain ⟨below, rfl⟩ := List.head?_eq_some_iff.1 (h [] rest rfl)
        rfl
      · rw [skipLine_cons hfeed, ← ih h.tail, codeUnits_cons]
        exact unitsBelow_append (fun codeUnit hmem => isLineEnd_of_mem hfeed hreturn hmem) _

/-- Where no number of characters takes so many code units. -/
theorem columnPrefix_eq_none (h : columnPrefix character text = none) :
    utf16Len text < character ∨ ∃ before c after, text = before ++ c :: after
      ∧ character = utf16Len before + 1 ∧ lenUtf16 c = 2 := by
  induction text generalizing character with
  | nil =>
    cases character with
    | zero => cases h
    | succ character => exact .inl (Nat.succ_pos character)
  | cons c rest ih =>
    cases character with
    | zero => cases h
    | succ character =>
      rw [columnPrefix] at h
      split_ifs at h with hsize
      · rw [Option.map_eq_none_iff] at h
        rcases ih h with hlt | ⟨before, d, after, htext, hlen, hd⟩
        · rw [utf16Len]
          exact .inl (by omega)
        · refine .inr ⟨c :: before, d, after, by rw [htext, List.cons_append], ?_, hd⟩
          rw [utf16Len]
          omega
      · have hpos := lenUtf16_pos c
        refine .inr ⟨[], c, rest, rfl, ?_, ?_⟩
        · rw [utf16Len]
          unfold lenUtf16 at hsize
          split_ifs at hsize <;> omega
        · unfold lenUtf16 at hsize ⊢
          split_ifs at hsize ⊢ <;> omega

theorem splitsPair_concat_cons {high low : Nat} (hhigh : 0xD800 ≤ high ∧ high < 0xDC00)
    (hlow : 0xDC00 ≤ low ∧ low < 0xE000) (units units' : List Nat) :
    splitsPair (units ++ [high]) (low :: units') = true := by
  unfold splitsPair
  rw [List.getLast?_concat, List.head?_cons, Option.any_some, Option.any_some, isHighSurrogate,
    isLowSurrogate, Bool.and_eq_true, Bool.and_eq_true, Bool.and_eq_true, decide_eq_true_iff,
    decide_eq_true_iff, decide_eq_true_iff, decide_eq_true_iff]
  exact ⟨hhigh, hlow⟩

theorem splitsPair_of_lenUtf16 {c : Char} (h : lenUtf16 c = 2) (units units' : List Nat) :
    ∃ high low, charUnits c = [high, low] ∧ splitsPair (units ++ [high]) (low :: units') = true := by
  have hvalid := toNat_valid c
  have hlarge : ¬ c.toNat < 0x10000 := by
    intro hlt
    rw [lenUtf16, if_pos hlt] at h
    cases h
  refine ⟨0xD800 + (c.toNat - 0x10000) / 0x400, 0xDC00 + (c.toNat - 0x10000) % 0x400, if_neg hlarge,
    ?_⟩
  apply splitsPair_concat_cons
  · omega
  · omega

/-- So many code units are a number of whole characters, or they end inside a pair. -/
theorem columnPrefix_codeUnits (character : Nat) (text below : Chars) :
    (if character ≤ (codeUnits text).length
        && !splitsPair ((codeUnits (text ++ below)).take character)
          ((codeUnits (text ++ below)).drop character) then some character else none)
      = (columnPrefix character text).map utf16Len := by
  cases hfront : columnPrefix character text with
  | some before =>
    obtain ⟨after, rfl, rfl⟩ := columnPrefix_eq_some hfront
    have hlen := length_codeUnits before
    rw [List.append_assoc, codeUnits_append before (after ++ below), ← hlen, List.take_left,
      List.drop_left, not_splitsPair, codeUnits_append, List.length_append, if_pos]
    · rw [Option.map_some, hlen]
    · simp
  | none =>
    rw [Option.map_none, if_neg]
    rw [Bool.and_eq_true, decide_eq_true_iff, Bool.not_eq_true']
    rintro ⟨hle, hsplits⟩
    rw [length_codeUnits] at hle
    rcases columnPrefix_eq_none hfront with hlt | ⟨before, c, after, rfl, rfl, hc⟩
    · omega
    · obtain ⟨high, low, hunits, hpair⟩ := splitsPair_of_lenUtf16 hc (codeUnits before)
        (codeUnits (after ++ below))
      have hall : codeUnits (before ++ c :: after ++ below)
          = (codeUnits before ++ [high]) ++ low :: codeUnits (after ++ below) := by
        rw [List.append_assoc, codeUnits_append, List.cons_append, codeUnits_cons, hunits]
        simp
      have hlen : utf16Len before + 1 = (codeUnits before ++ [high]).length := by
        rw [List.length_append, length_codeUnits, List.length_singleton]
      rw [hall, hlen, List.take_left, List.drop_left, hpair] at hsplits
      cases hsplits

theorem unitOffset_codeUnits {line character : Nat} {text : Chars} (h : LineFed text) :
    unitOffset line character (codeUnits text)
      = (prefixAt line character text).map utf16Len := by
  induction line generalizing text with
  | zero =>
    have htext := List.takeWhile_append_dropWhile (p := fun c => c ≠ '\n' && c ≠ '\r') (l := text)
    have hcolumn := columnPrefix_codeUnits character (lineText text)
      (text.dropWhile fun c => c ≠ '\n' && c ≠ '\r')
    rw [lineText, htext] at hcolumn
    rw [unitOffset, prefixAt, takeWhile_codeUnits, stripCarriageReturn_rawLine h]
    exact hcolumn
  | succ line ih =>
    rw [unitOffset, prefixAt, unitsBelow_codeUnits h]
    rcases line_cases text with hnone | ⟨raw, rest, hraw, rfl⟩
    · rw [skipLine_of_notMem hnone]
      rfl
    · rw [skipLine_append hraw, rawLine_append hraw, Option.map_some, Option.bind_some,
        Option.bind_some, ih (LineFed.suffix h).tail, Option.map_map, Option.map_map]
      congr 1
      funext before
      have hfeed : lenUtf16 '\n' = 1 := rfl
      rw [Function.comp_apply, Function.comp_apply, length_codeUnits, length_codeUnits,
        utf16Len_append, utf16Len_append, utf16Len, utf16Len, hfeed]
      omega

/-! ## There and back -/

theorem utf16Len_lastLine_le (text : Chars) : utf16Len (lastLine text) ≤ utf16Len text := by
  have hsplit := List.takeWhile_append_dropWhile (p := (· ≠ '\n')) (l := text.reverse)
  have htext := congrArg List.reverse hsplit
  rw [List.reverse_append, List.reverse_reverse] at htext
  have hlen := congrArg utf16Len htext
  rw [utf16Len_append] at hlen
  unfold lastLine
  omega

theorem positionAtByteOffset_append {after : Chars} (h : utf16Len (before ++ after) < 2 ^ 32) :
    positionAtByteOffset (before ++ after) (byteLen before)
      = some ⟨before.count '\n', utf16Len (lastLine before)⟩ := by
  rw [utf16Len_append] at h
  have hcount : before.count '\n' ≤ before.length := List.count_le_length
  have hlength := length_le_utf16Len before
  have hlast := utf16Len_lastLine_le before
  unfold positionAtByteOffset
  rw [splitAtByte_append, Option.map_some]
  simp only
  rw [Nat.mod_eq_of_lt (by omega), utf16LenU32_eq (by omega)]

/-- The positions that are accepted are those of the places, each with the offset of its own. -/
theorem byteOffsetAtPosition_iff (hfed : LineFed text) (h : utf16Len text < 2 ^ 32)
    (position : LspPosition) (offset : Nat) : byteOffsetAtPosition text position = .ok offset
      ↔ (∃ before after, PlaceIn text before after ∧ byteLen before = offset)
        ∧ positionAtByteOffset text offset = some position := by
  have hfound := byteOffsetAtPosition_toOption h position
  constructor
  · intro hok
    rw [hok] at hfound
    obtain ⟨before, hbefore, hlen⟩ := Option.map_eq_some_iff.1 hfound.symm
    obtain ⟨after, hplace, hline, hcharacter⟩ := prefixAt_eq_some hfed hbefore
    refine ⟨⟨before, after, hplace, hlen⟩, ?_⟩
    rw [← hlen, hplace.split, positionAtByteOffset_append (hplace.split ▸ h), hline, hcharacter]
  · rintro ⟨⟨before, after, hplace, rfl⟩, hposition⟩
    rw [hplace.split, positionAtByteOffset_append (hplace.split ▸ h), Option.some.injEq] at hposition
    rw [← hposition, prefixAt_of_place hfed hplace, Option.map_some] at hfound
    rw [← hposition]
    cases hresult : byteOffsetAtPosition text ⟨before.count '\n', utf16Len (lastLine before)⟩ with
    | error error =>
      rw [hresult] at hfound
      cases hfound
    | ok offset =>
      rw [hresult] at hfound
      exact congrArg Except.ok (Option.some.inj hfound)

end TypePython.Lsp
