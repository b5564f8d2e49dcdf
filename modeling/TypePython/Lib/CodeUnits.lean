import TypePython.Lib.Text
import Mathlib.Data.List.TakeWhile
import Mathlib.Tactic.SplitIfs

/-!
# Bytes and code units

A text is a sequence of UTF-8 bytes for the program and a sequence of UTF-16 code units for its
client. Both only need to agree on where a character begins. Code units are numbers.

* `byteLen`, `splitAtByte` count and cut by bytes;
* `codeUnits` are those of a text, and `splitsPair` finds the places inside a character;
* `lineText`, `skipLine` take the first line of a text apart from the others.
-/

namespace TypePython.Lib.Text

/-! ## Bytes -/

def byteLen : Chars → Nat
  | [] => 0
  | c :: rest => c.utf8Size + byteLen rest

@[simp] theorem byteLen_append (text text' : Chars) :
    byteLen (text ++ text') = byteLen text + byteLen text' := by
  induction text with
  | nil => simp [byteLen]
  | cons c rest ih =>
    rw [List.cons_append, byteLen, byteLen, ih]
    omega

/-- The characters before and behind a byte, if a character begins there or the text ends. -/
def splitAtByte : Chars → Nat → Option (Chars × Chars)
  | text, 0 => some ([], text)
  | [], _ + 1 => none
  | c :: rest, offset + 1 =>
    if c.utf8Size ≤ offset + 1 then
      (splitAtByte rest (offset + 1 - c.utf8Size)).map fun (before, after) => (c :: before, after)
    else none

theorem splitAtByte_append (before after : Chars) :
    splitAtByte (before ++ after) (byteLen before) = some (before, after) := by
  induction before with
  | nil => rw [List.nil_append, byteLen, splitAtByte]
  | cons c rest ih =>
    have hpos := Char.utf8Size_pos c
    obtain ⟨offset, hoffset⟩ : ∃ offset, byteLen (c :: rest) = offset + 1 :=
      ⟨byteLen (c :: rest) - 1, by rw [byteLen]; omega⟩
    rw [hoffset, List.cons_append, splitAtByte, ← hoffset, byteLen, if_pos (by omega),
      Nat.add_sub_cancel_left, ih]
    rfl

theorem splitAtByte_eq_some {text before after : Chars} {offset : Nat}
    (h : splitAtByte text offset = some (before, after)) :
    text = before ++ after ∧ byteLen before = offset := by
  induction text generalizing offset before with
  | nil =>
    cases offset with
    | zero =>
      rw [splitAtByte, Option.some.injEq, Prod.mk.injEq] at h
      rw [← h.1, ← h.2]
      exact ⟨rfl, rfl⟩
    | succ offset => cases h
  | cons c rest ih =>
    cases offset with
    | zero =>
      rw [splitAtByte, Option.some.injEq, Prod.mk.injEq] at h
      rw [← h.1, ← h.2]
      exact ⟨rfl, rfl⟩
    | succ offset =>
      rw [splitAtByte] at h
      split_ifs at h with hsize
      obtain ⟨⟨before', after'⟩, hrest, hcons⟩ := Option.map_eq_some_iff.1 h
      rw [Prod.mk.injEq] at hcons
      rcases hcons with ⟨rfl, rfl⟩
      obtain ⟨htext, hlen⟩ := ih hrest
      refine ⟨by rw [htext, List.cons_append], ?_⟩
      rw [byteLen, hlen]
      omega

theorem byteLen_lt_of_ne_nil {text : Chars} (h : text ≠ []) : 0 < byteLen text := by
  obtain ⟨c, rest, rfl⟩ := List.exists_cons_of_ne_nil h
  have hpos := Char.utf8Size_pos c
  rw [byteLen]
  omega

/-! ## Code units -/

/-- `char::len_utf16` -/
def lenUtf16 (c : Char) : Nat := if c.toNat < 0x10000 then 1 else 2

def utf16Len : Chars → Nat
  | [] => 0
  | c :: rest => lenUtf16 c + utf16Len rest

theorem lenUtf16_pos (c : Char) : 0 < lenUtf16 c := by
  unfold lenUtf16
  split <;> omega

@[simp] theorem utf16Len_append (text text' : Chars) :
    utf16Len (text ++ text') = utf16Len text + utf16Len text' := by
  induction text with
  | nil => simp [utf16Len]
  | cons c rest ih =>
    rw [List.cons_append, utf16Len, utf16Len, ih]
    omega

theorem length_le_utf16Len (text : Chars) : text.length ≤ utf16Len text := by
  induction text with
  | nil => exact Nat.le_refl 0
  | cons c rest ih =>
    have hpos := lenUtf16_pos c
    rw [List.length_cons, utf16Len]
    omega

/-- A character above the basic plane is a pair of surrogates. -/
def charUnits (c : Char) : List Nat :=
  if c.toNat < 0x10000 then [c.toNat]
  else [0xD800 + (c.toNat - 0x10000) / 0x400, 0xDC00 + (c.toNat - 0x10000) % 0x400]

def codeUnits (text : Chars) : List Nat := text.flatMap charUnits

theorem length_charUnits (c : Char) : (charUnits c).length = lenUtf16 c := by
  unfold charUnits lenUtf16
  split <;> rfl

@[simp] theorem codeUnits_append (text text' : Chars) :
    codeUnits (text ++ text') = codeUnits text ++ codeUnits text' := List.flatMap_append

theorem codeUnits_cons (c : Char) (text : Chars) :
    codeUnits (c :: text) = charUnits c ++ codeUnits text := List.flatMap_cons

theorem length_codeUnits (text : Chars) : (codeUnits text).length = utf16Len text := by
  induction text with
  | nil => rfl
  | cons c rest ih => rw [codeUnits_cons, List.length_append, length_charUnits, ih, utf16Len]

def isHighSurrogate (codeUnit : Nat) : Bool := 0xD800 ≤ codeUnit && codeUnit < 0xDC00

def isLowSurrogate (codeUnit : Nat) : Bool := 0xDC00 ≤ codeUnit && codeUnit < 0xE000

/-- Between the two halves of a pair. -/
def splitsPair (before after : List Nat) : Bool :=
  before.getLast?.any isHighSurrogate && after.head?.any isLowSurrogate

/-- No character is a surrogate. -/
theorem toNat_valid (c : Char) : c.toNat < 0xD800 ∨ 0xDFFF < c.toNat ∧ c.toNat < 0x110000 := by
  have hvalid := c.valid
  simp only [UInt32.isValidChar, Nat.isValidChar] at hvalid
  rw [← Char.toNat_val]
  exact hvalid

theorem isLowSurrogate_eq_false {codeUnit : Nat} (h : codeUnit < 0xDC00 ∨ 0xE000 ≤ codeUnit) :
    isLowSurrogate codeUnit = false := by
  unfold isLowSurrogate
  rw [Bool.and_eq_false_iff, decide_eq_false_iff_not, decide_eq_false_iff_not]
  omega

/-- A character does not begin with a low surrogate. -/
theorem not_isLowSurrogate_head (c : Char) : (charUnits c).head?.any isLowSurrogate = false := by
  have hvalid := toNat_valid c
  unfold charUnits
  split
  · rw [List.head?_cons, Option.any_some]
    exact isLowSurrogate_eq_false (by omega)
  · rw [List.head?_cons, Option.any_some]
    exact isLowSurrogate_eq_false (by omega)

/-- No character begins inside a pair. -/
theorem not_splitsPair (units : List Nat) (text : Chars) :
    splitsPair units (codeUnits text) = false := by
  unfold splitsPair
  have hhead : (codeUnits text).head?.any isLowSurrogate = false := by
    cases text with
    | nil => rfl
    | cons c rest =>
      have hc := not_isLowSurrogate_head c
      cases hunits : charUnits c with
      | nil =>
        have hlength := length_charUnits c
        have hpos := lenUtf16_pos c
        rw [hunits, List.length_nil] at hlength
        omega
      | cons codeUnit others =>
        rw [hunits] at hc
        rw [codeUnits_cons, hunits]
        exact hc
  rw [hhead, Bool.and_false]

/-! ## Lines -/

/-- What stands before the first line feed. -/
def rawLine (text : Chars) : Chars := text.takeWhile (· ≠ '\n')

/-- What follows the first line feed. -/
def skipLine (text : Chars) : Option Chars := (splitOnce '\n' text).map Prod.snd

/-- What follows the last line feed. -/
def lastLine (text : Chars) : Chars := (text.reverse.takeWhile (· ≠ '\n')).reverse

/-- The lines that line feeds separate. -/
def rawLines : Chars → List Chars
  | [] => [[]]
  | c :: rest =>
    if c = '\n' then [] :: rawLines rest
    else (c :: (rawLines rest).headD []) :: (rawLines rest).tail

/-- A line without the carriage return of its line break. -/
def stripCarriageReturn (line : Chars) : Chars := (stripSuffix ['\r'] line).getD line

/-- Every carriage return belongs to a line feed. -/
def LineFed (text : Chars) : Prop :=
  ∀ before after, text = before ++ '\r' :: after → after.head? = some '\n'

theorem takeWhile_append_cons {p : Char → Bool} {c : Char} (hc : p c = false) (text rest : Chars) :
    (text ++ c :: rest).takeWhile p = text.takeWhile p := by
  induction text with
  | nil => rw [List.nil_append, List.takeWhile_cons, hc]; rfl
  | cons d text ih =>
    rw [List.cons_append, List.takeWhile_cons, List.takeWhile_cons, ih]

theorem takeWhile_eq_self_of_notMem {text : Chars} {c : Char} (h : c ∉ text) :
    text.takeWhile (· ≠ c) = text := by
  rw [List.takeWhile_eq_self_iff]
  intro d hd
  exact decide_eq_true fun heq => h (heq ▸ hd)

theorem rawLine_of_notMem {text : Chars} (h : '\n' ∉ text) : rawLine text = text :=
  takeWhile_eq_self_of_notMem h

theorem rawLine_append {raw : Chars} (h : '\n' ∉ raw) (rest : Chars) :
    rawLine (raw ++ '\n' :: rest) = raw := by
  unfold rawLine
  rw [takeWhile_append_cons (by decide)]
  exact rawLine_of_notMem h

theorem skipLine_of_notMem {text : Chars} (h : '\n' ∉ text) : skipLine text = none := by
  rw [skipLine, splitOnce_of_notMem h]
  rfl

theorem skipLine_append {raw : Chars} (h : '\n' ∉ raw) (rest : Chars) :
    skipLine (raw ++ '\n' :: rest) = some rest := by
  rw [skipLine, splitOnce_concat h]
  rfl

theorem rawLines_of_notMem {text : Chars} (h : '\n' ∉ text) : rawLines text = [text] := by
  induction text with
  | nil => rfl
  | cons c rest ih =>
    rw [List.mem_cons, not_or] at h
    rw [rawLines, if_neg (Ne.symm h.1), ih h.2]
    rfl

theorem rawLines_append {raw : Chars} (h : '\n' ∉ raw) (rest : Chars) :
    rawLines (raw ++ '\n' :: rest) = raw :: rawLines rest := by
  induction raw with
  | nil => rw [List.nil_append, rawLines, if_pos rfl]
  | cons c raw ih =>
    rw [List.mem_cons, not_or] at h
    rw [List.cons_append, rawLines, if_neg (Ne.symm h.1), ih h.2]
    rfl

/-- A text is one line, or a line and a text. -/
theorem line_cases (text : Chars) :
    '\n' ∉ text ∨ ∃ raw rest, '\n' ∉ raw ∧ text = raw ++ '\n' :: rest := by
  by_cases h : '\n' ∈ text
  · obtain ⟨raw, rest, htext, hraw⟩ := List.eq_append_cons_of_mem h
    exact .inr ⟨raw, rest, hraw, htext⟩
  · exact .inl h

theorem lastLine_of_notMem {text : Chars} (h : '\n' ∉ text) : lastLine text = text := by
  have hreverse : '\n' ∉ text.reverse := fun hmem => h (List.mem_reverse.1 hmem)
  rw [lastLine, takeWhile_eq_self_of_notMem hreverse, List.reverse_reverse]

theorem lastLine_append (raw rest : Chars) : lastLine (raw ++ '\n' :: rest) = lastLine rest := by
  unfold lastLine
  have hreverse : (raw ++ '\n' :: rest).reverse = rest.reverse ++ '\n' :: raw.reverse := by simp
  rw [hreverse, takeWhile_append_cons (by decide)]

theorem stripCarriageReturn_concat (line : Chars) :
    stripCarriageReturn (line ++ ['\r']) = line := by
  unfold stripCarriageReturn stripSuffix
  have hsuffix : List.isSuffixOf? ['\r'] (line ++ ['\r']) = some line := by
    rw [List.isSuffixOf?_eq_some_iff_append_eq]
  rw [hsuffix, Option.getD_some]

theorem stripCarriageReturn_eq {line : Chars} (h : line.getLast? ≠ some '\r') :
    stripCarriageReturn line = line := by
  unfold stripCarriageReturn stripSuffix
  cases hsuffix : List.isSuffixOf? ['\r'] line with
  | none => rfl
  | some before =>
    rw [List.isSuffixOf?_eq_some_iff_append_eq] at hsuffix
    rw [← hsuffix, List.getLast?_concat] at h
    exact absurd rfl h

namespace LineFed

variable {text before after : Chars}

theorem suffix (h : LineFed (before ++ after)) : LineFed after := by
  intro first rest hafter
  exact h (before ++ first) rest (by rw [hafter, List.append_assoc])

theorem tail {c : Char} (h : LineFed (c :: text)) : LineFed text :=
  suffix (show LineFed ([c] ++ text) from h)

/-- The text before a place that is not inside a line break. -/
theorem initial (h : LineFed (before ++ after))
    (hwhole : ¬ (before.getLast? = some '\r' ∧ after.head? = some '\n')) : LineFed before := by
  intro first rest hbefore
  have hfed := h first (rest ++ after) (by rw [hbefore]; simp)
  cases rest with
  | nil =>
    rw [List.nil_append] at hfed
    refine absurd ⟨?_, hfed⟩ hwhole
    rw [hbefore, List.getLast?_concat]
  | cons c rest => exact hfed

theorem append (h : LineFed before) (h' : LineFed after) : LineFed (before ++ after) := by
  intro first rest htext
  rcases List.append_eq_append_iff.1 htext with ⟨middle, hfirst, hafter⟩ | ⟨middle, hbefore, hrest⟩
  · exact h' middle rest hafter
  · cases middle with
    | nil => exact h' [] rest hrest.symm
    | cons c middle =>
      rw [List.cons_append, List.cons.injEq] at hrest
      rw [← hrest.1] at hbefore
      have hfed := h first middle hbefore
      rw [hrest.2]
      cases middle with
      | nil => cases hfed
      | cons d middle => exact hfed

/-- A line that is not broken has no carriage return either. -/
theorem notMem_carriageReturn (h : LineFed text) (hfeed : '\n' ∉ text) : '\r' ∉ text := by
  intro hmem
  obtain ⟨first, rest, htext, -⟩ := List.eq_append_cons_of_mem hmem
  refine hfeed ?_
  rw [htext]
  exact List.mem_append_right _ (List.mem_cons_of_mem _ (List.mem_of_mem_head? (h first rest htext)))

end LineFed

/-- The first line of a text, without its line break. -/
def lineText (text : Chars) : Chars := text.takeWhile fun c => c ≠ '\n' && c ≠ '\r'

theorem lineText_append {text : Chars} (hfeed : '\n' ∉ text) (hreturn : '\r' ∉ text)
    (rest : Chars) : lineText (text ++ rest) = text ++ lineText rest := by
  unfold lineText
  rw [List.takeWhile_append_of_pos]
  intro c hc
  rw [Bool.and_eq_true, decide_eq_true_iff, decide_eq_true_iff]
  exact ⟨fun heq => hfeed (heq ▸ hc), fun heq => hreturn (heq ▸ hc)⟩

/-- Where carriage returns belong to line feeds, taking one from the end of a line is enough. -/
theorem stripCarriageReturn_rawLine {text : Chars} (h : LineFed text) :
    stripCarriageReturn (rawLine text) = lineText text := by
  obtain ⟨below, htext, hbelow, hnotMem⟩ : ∃ below, text = rawLine text ++ below
      ∧ (below = [] ∨ below.head? = some '\n') ∧ '\n' ∉ rawLine text := by
    rcases line_cases text with hnone | ⟨raw, rest, hraw, rfl⟩
    · exact ⟨[], by rw [rawLine_of_notMem hnone, List.append_nil], .inl rfl,
        by rwa [rawLine_of_notMem hnone]⟩
    · exact ⟨'\n' :: rest, by rw [rawLine_append hraw], .inr rfl, by rwa [rawLine_append hraw]⟩
  have hnoLine : below = [] ∨ below.head? = some '\n' → lineText below = [] := by
    rintro (rfl | hhead)
    · rfl
    · obtain ⟨rest, rfl⟩ := List.head?_eq_some_iff.1 hhead
      rfl
  by_cases hlast : (rawLine text).getLast? = some '\r'
  · obtain ⟨line, hline⟩ := List.getLast?_eq_some_iff.1 hlast
    have hsplit : text = line ++ '\r' :: below := by
      rw [htext, hline]
      simp
    have hfed : LineFed line := by
      refine LineFed.initial (hsplit ▸ h) ?_
      rintro ⟨-, hhead⟩
      cases hhead
    have hfeed : '\n' ∉ line := fun hmem => hnotMem (hline ▸ List.mem_append_left _ hmem)
    rw [hline, stripCarriageReturn_concat]
    conv_rhs => rw [hsplit, lineText_append hfeed (hfed.notMem_carriageReturn hfeed)]
    exact (List.append_nil line).symm
  · have hfed : LineFed (rawLine text) :=
      LineFed.initial (htext ▸ h) fun hinside => hlast hinside.1
    rw [stripCarriageReturn_eq hlast]
    conv_rhs =>
      rw [htext, lineText_append hnotMem (hfed.notMem_carriageReturn hnotMem), hnoLine hbelow]
    exact (List.append_nil _).symm

end TypePython.Lib.Text
