import Mathlib.Data.List.Induction
import TypePython.Lib.BracketedText

/-!
# Texts with nested brackets and strings

A reader of Python text that knows which brackets are open and which string it is in, and the parts
between the delimiters outside of all brackets and strings (`splitNested`). A string literal ends
with the quote it starts with; a triple-quoted one is read as three that follow each other.

Splitting goes piece by piece (`splitScan_append`), drops nothing but delimiters
(`count_splitScan`), and cuts joined texts apart again (`lists_joinTexts`).
-/

namespace TypePython.Lib.Text

/-! ## The reader -/

inductive Quote where
  | single
  | double
deriving DecidableEq

def Quote.char : Quote → Char
  | .single => '\''
  | .double => '"'

inductive BracketKind where
  | paren
  | bracket
  | brace
deriving DecidableEq

/-- What a character is to the reader outside of strings. -/
inductive CharKind where
  | quote (quote : Quote)
  | opens (kind : BracketKind)
  | closes (kind : BracketKind)
  | other

def charKind : Char → CharKind
  | '\'' => .quote .single
  | '"' => .quote .double
  | '(' => .opens .paren
  | '[' => .opens .bracket
  | '{' => .opens .brace
  | ')' => .closes .paren
  | ']' => .closes .bracket
  | '}' => .closes .brace
  | _ => .other

/-- The open brackets, the innermost first, and the string that is read, with whether the next
character is escaped. -/
structure ScanState where
  opened : List BracketKind := []
  string : Option (Quote × Bool) := none
deriving DecidableEq

/-- Nothing where a bracket is closed that is not the innermost open one. -/
def ScanState.next (state : ScanState) (c : Char) : Option ScanState :=
  match state.string with
  | some (quote, true) => some { state with string := some (quote, false) }
  | some (quote, false) =>
    if c = '\\' then some { state with string := some (quote, true) }
    else if c = quote.char then some { state with string := none }
    else some state
  | none =>
    match charKind c with
    | .quote quote => some { state with string := some (quote, false) }
    | .opens kind => some { state with opened := kind :: state.opened }
    | .closes kind =>
      if state.opened.head? = some kind then some { state with opened := state.opened.tail }
      else none
    | .other => some state

/-- The parts between the delimiters outside of brackets and strings, and where the reader ends. -/
def splitScan (delim : Char) : ScanState → Chars → Option (List Chars × ScanState)
  | state, [] => some ([[]], state)
  | state, c :: rest =>
    if c = delim ∧ state = {} then
      (splitScan delim {} rest).map fun split => ([] :: split.1, split.2)
    else
      (state.next c).bind fun state' =>
        (splitScan delim state' rest).map fun split => (consFirst c split.1, split.2)

attribute [grind =] splitScan

/-- The parts of a text that closes all it opens. -/
def splitNested (delim : Char) (text : Chars) : Option (List Chars) :=
  (splitScan delim {} text).bind fun split => if split.2 = {} then some split.1 else none

/-! ## Piece by piece -/

/-- Parts that go on: the last part is followed by the first one. -/
def glue : List Chars → List Chars → List Chars
  | [], parts => parts
  | [part], [] => [part]
  | [part], next :: rest => (part ++ next) :: rest
  | part :: more :: rest, parts => part :: glue (more :: rest) parts

variable {parts : List Chars}

theorem glue_cons (h : parts ≠ []) (part : Chars) (more : List Chars) :
    glue (part :: parts) more = part :: glue parts more := by
  cases parts with
  | nil => exact absurd rfl h
  | cons next rest => rfl

theorem glue_ne_nil (h : parts ≠ []) (more : List Chars) : glue parts more ≠ [] := by
  match parts, more with
  | [part], [] => exact List.cons_ne_nil _ _
  | [part], next :: rest => exact List.cons_ne_nil _ _
  | part :: next :: rest, more => exact List.cons_ne_nil _ _

theorem glue_concat (before : List Chars) (part next : Chars) (rest : List Chars) :
    glue (before ++ [part]) (next :: rest) = before ++ (part ++ next) :: rest := by
  induction before with
  | nil => rfl
  | cons first before ih =>
    rw [List.cons_append, glue_cons (by simp), ih, List.cons_append]

theorem consFirst_ne_nil (c : Char) (parts : List Chars) : consFirst c parts ≠ [] := by
  cases parts <;> exact List.cons_ne_nil _ _

theorem consFirst_glue (h : parts ≠ []) (c : Char) (more : List Chars) :
    consFirst c (glue parts more) = glue (consFirst c parts) more := by
  match parts, more with
  | [part], [] => rfl
  | [part], next :: rest => rfl
  | part :: next :: rest, more => rfl

variable {delim : Char}

variable {state last : ScanState} {c : Char}

/-- What is read of a text is read of its first character. -/
theorem splitScan_cons_iff {rest : Chars} : splitScan delim state (c :: rest) = some (parts, last)
      ↔ (∃ more, (c = delim ∧ state = {}) ∧ splitScan delim {} rest = some (more, last)
            ∧ [] :: more = parts)
        ∨ ∃ state' more, ¬ (c = delim ∧ state = {}) ∧ state.next c = some state'
            ∧ splitScan delim state' rest = some (more, last) ∧ consFirst c more = parts := by
  rw [splitScan]
  by_cases hdelim : c = delim ∧ state = {}
  · simp [hdelim, Option.map_eq_some_iff]
  · rw [if_neg hdelim]
    simp [hdelim, Option.map_eq_some_iff, Option.bind_eq_some_iff]

variable {text : Chars}

theorem splitScan_ne_nil (h : splitScan delim state text = some (parts, last)) : parts ≠ [] := by
  cases text with
  | nil =>
    rw [splitScan, Option.some.injEq, Prod.mk.injEq] at h
    rw [← h.1]
    exact List.cons_ne_nil _ _
  | cons c rest =>
    rcases splitScan_cons_iff.1 h with ⟨more, -, -, rfl⟩ | ⟨state', more, -, -, -, rfl⟩
    · exact List.cons_ne_nil _ _
    · exact consFirst_ne_nil _ _

variable {parts' : List Chars}

theorem splitScan_append {text' : Chars} {middle : ScanState}
    (h : splitScan delim state text = some (parts, middle))
    (h' : splitScan delim middle text' = some (parts', last)) :
    splitScan delim state (text ++ text') = some (glue parts parts', last) := by
  induction text generalizing state parts with
  | nil =>
    rw [splitScan, Option.some.injEq, Prod.mk.injEq] at h
    rcases h with ⟨rfl, rfl⟩
    cases parts' with
    | nil => exact absurd rfl (splitScan_ne_nil h')
    | cons next rest => exact h'
  | cons c rest ih =>
    rw [List.cons_append, splitScan_cons_iff]
    rcases splitScan_cons_iff.1 h with ⟨more, hdelim, hrest, rfl⟩ | ⟨state', more, hdelim, hstep,
      hrest, rfl⟩
    · exact .inl ⟨_, hdelim, ih hrest, (glue_cons (splitScan_ne_nil hrest) _ _).symm⟩
    · exact .inr ⟨state', _, hdelim, hstep, ih hrest, consFirst_glue (splitScan_ne_nil hrest) _ _⟩

/-- A text that can be read can be read up to any point. -/
theorem splitScan_append_inv {text' : Chars}
    (h : splitScan delim state (text ++ text') = some (parts, last)) :
    ∃ before middle after, splitScan delim state text = some (before, middle)
      ∧ splitScan delim middle text' = some (after, last) ∧ parts = glue before after := by
  induction text generalizing state parts with
  | nil =>
    refine ⟨[[]], state, parts, rfl, h, ?_⟩
    cases parts with
    | nil => exact absurd rfl (splitScan_ne_nil h)
    | cons next rest => rfl
  | cons c rest ih =>
    rw [List.cons_append] at h
    rcases splitScan_cons_iff.1 h with ⟨more, hdelim, hrest, rfl⟩ | ⟨state', more, hdelim, hstep,
      hrest, rfl⟩
    · obtain ⟨before, middle, after, hbefore, hafter, rfl⟩ := ih hrest
      exact ⟨[] :: before, middle, after, splitScan_cons_iff.2 (.inl ⟨before, hdelim, hbefore, rfl⟩),
        hafter, (glue_cons (splitScan_ne_nil hbefore) _ _).symm⟩
    · obtain ⟨before, middle, after, hbefore, hafter, rfl⟩ := ih hrest
      exact ⟨consFirst c before, middle, after,
        splitScan_cons_iff.2 (.inr ⟨state', before, hdelim, hstep, hbefore, rfl⟩), hafter,
        consFirst_glue (splitScan_ne_nil hbefore) _ _⟩

/-- A text without delimiters is one part. -/
theorem splitScan_single (hdelim : delim ∉ text)
    (h : splitScan delim state text = some (parts, last)) : parts = [text] := by
  induction text generalizing state parts with
  | nil =>
    rw [splitScan, Option.some.injEq, Prod.mk.injEq] at h
    exact h.1.symm
  | cons c rest ih =>
    rw [List.mem_cons, not_or] at hdelim
    rcases splitScan_cons_iff.1 h with ⟨more, heq, -, -⟩ | ⟨state', more, -, -, hrest, rfl⟩
    · exact absurd heq.1.symm hdelim.1
    · rw [ih hdelim.2 hrest]
      rfl

/-- A delimiter after a text that closes all it opens cuts. -/
theorem splitScan_cut {rest : Chars} {more : List Chars}
    (h : splitScan delim {} text = some (parts, {}))
    (hrest : splitScan delim {} rest = some (more, last)) :
    splitScan delim {} (text ++ delim :: rest) = some (parts ++ more, last) := by
  have hcut : splitScan delim {} (delim :: rest) = some ([] :: more, last) :=
    splitScan_cons_iff.2 (.inl ⟨more, ⟨rfl, rfl⟩, hrest, rfl⟩)
  rw [splitScan_append h hcut]
  have hlast := List.dropLast_append_getLast (splitScan_ne_nil h)
  rw [← hlast, glue_concat, List.append_nil]
  simp

/-! ## What is not dropped -/

theorem flatten_consFirst (c : Char) (parts : List Chars) :
    (consFirst c parts).flatten = c :: parts.flatten := by
  cases parts <;> rfl

/-- Every character that is no delimiter is in a part. -/
theorem count_splitScan (hc : c ≠ delim) (h : splitScan delim state text = some (parts, last)) :
    parts.flatten.count c = text.count c := by
  induction text generalizing state parts with
  | nil =>
    rw [splitScan, Option.some.injEq, Prod.mk.injEq] at h
    rw [← h.1]
    rfl
  | cons first rest ih =>
    rcases splitScan_cons_iff.1 h with ⟨more, heq, hrest, rfl⟩ | ⟨state', more, -, -, hrest, rfl⟩
    · rw [List.flatten_cons, List.nil_append, ih hrest, List.count_cons_of_ne]
      rw [heq.1]
      exact Ne.symm hc
    · rw [flatten_consFirst, List.count_cons, List.count_cons, ih hrest]

/-- Texts with a separator between them. -/
def joinTexts (sep : Chars) : List Chars → Chars
  | [] => []
  | [text] => text
  | text :: next :: rest => text ++ sep ++ joinTexts sep (next :: rest)

theorem joinTexts_cons {sep : Chars} {rest : List Chars} (h : rest ≠ []) (text : Chars) :
    joinTexts sep (text :: rest) = text ++ sep ++ joinTexts sep rest := by
  cases rest with
  | nil => exact absurd rfl h
  | cons next rest => rfl

theorem joinTexts_consFirst (sep : Chars) (c : Char) (h : parts ≠ []) :
    joinTexts sep (consFirst c parts) = c :: joinTexts sep parts := by
  match parts with
  | [part] => rfl
  | part :: next :: rest => rfl

theorem joinTexts_concat {sep : Chars} {texts : List Chars} (h : texts ≠ []) (text : Chars) :
    joinTexts sep (texts ++ [text]) = joinTexts sep texts ++ sep ++ text := by
  induction texts with
  | nil => exact absurd rfl h
  | cons first rest ih =>
    by_cases hrest : rest = []
    · rw [hrest]
      rfl
    · rw [List.cons_append, joinTexts_cons (by simp), ih hrest, joinTexts_cons hrest]
      simp only [List.append_assoc]

/-- The parts with the delimiters between them are the text. -/
theorem joinTexts_splitScan (h : splitScan delim state text = some (parts, last)) :
    joinTexts [delim] parts = text := by
  induction text generalizing state parts with
  | nil =>
    rw [splitScan, Option.some.injEq, Prod.mk.injEq] at h
    rw [← h.1]
    rfl
  | cons c rest ih =>
    rcases splitScan_cons_iff.1 h with ⟨more, heq, hrest, rfl⟩ | ⟨state', more, -, -, hrest, rfl⟩
    · rw [joinTexts_cons (splitScan_ne_nil hrest), ih hrest, heq.1]
      rfl
    · rw [joinTexts_consFirst _ _ (splitScan_ne_nil hrest), ih hrest]

/-! ## Single parts -/

/-- Each part is read as one, from where the text starts or from the start. -/
theorem splitScan_parts {part : Chars} {rest : List Chars}
    (h : splitScan delim state text = some (part :: rest, last)) :
    splitScan delim state part = some ([part], if rest = [] then last else {})
      ∧ (last = {} → ∀ part' ∈ rest, splitScan delim {} part' = some ([part'], {})) := by
  induction text generalizing state part rest with
  | nil =>
    rw [splitScan, Option.some.injEq, Prod.mk.injEq, List.cons.injEq] at h
    rcases h with ⟨⟨rfl, rfl⟩, rfl⟩
    exact ⟨rfl, fun _ part' hmem => absurd hmem List.not_mem_nil⟩
  | cons c text ih =>
    rcases splitScan_cons_iff.1 h with ⟨more, heq, hrest, hparts⟩ | ⟨state', more, hdelim, hstep,
      hrest, hparts⟩
    · rw [List.cons.injEq] at hparts
      rcases hparts with ⟨rfl, rfl⟩
      cases more with
      | nil => exact absurd rfl (splitScan_ne_nil hrest)
      | cons next others =>
        obtain ⟨hnext, hothers⟩ := ih hrest
        refine ⟨?_, ?_⟩
        · rw [if_neg (List.cons_ne_nil _ _), heq.2]
          rfl
        · intro hlast part' hmem
          rcases List.mem_cons.1 hmem with rfl | hmem
          · rw [hnext, hlast, ite_self]
          · exact hothers hlast part' hmem
    · cases more with
      | nil => exact absurd rfl (splitScan_ne_nil hrest)
      | cons next others =>
        rw [consFirst, List.cons.injEq] at hparts
        rcases hparts with ⟨rfl, rfl⟩
        obtain ⟨hnext, hothers⟩ := ih hrest
        exact ⟨splitScan_cons_iff.2 (.inr ⟨state', [next], hdelim, hstep, hnext, rfl⟩), hothers⟩

/-! ## White space -/

theorem ne_of_isWhitespace {c' : Char} (hc : isWhitespace c = true)
    (hc' : isWhitespace c' = false) : c ≠ c' := by
  rintro rfl
  rw [hc] at hc'
  cases hc'

theorem charKind_space (hc : isWhitespace c = true) : charKind c = .other := by
  unfold charKind
  split <;> first | rfl | exact absurd hc (by decide)

theorem next_space (hstring : state.string = none) (hc : isWhitespace c = true) :
    state.next c = some state := by
  unfold ScanState.next
  rw [hstring, charKind_space hc]

/-- Only a quote opens or closes a string. -/
theorem string_of_next {state' : ScanState} (hc : ∀ quote : Quote, c ≠ quote.char)
    (h : state.next c = some state') : state'.string = none ↔ state.string = none := by
  unfold ScanState.next at h
  cases hstring : state.string with
  | none =>
    rw [hstring] at h
    dsimp only at h
    have hkind : ∀ quote, charKind c ≠ .quote quote := by
      intro quote hquote
      unfold charKind at hquote
      split at hquote <;> cases hquote
      · exact hc .single rfl
      · exact hc .double rfl
    cases hcase : charKind c with
    | quote quote => exact absurd hcase (hkind quote)
    | opens kind =>
      rw [hcase] at h
      rw [← Option.some.inj h]
    | closes kind =>
      rw [hcase] at h
      dsimp only at h
      split at h
      · rw [← Option.some.inj h]
      · cases h
    | other =>
      rw [hcase] at h
      rw [← Option.some.inj h, hstring]
  | some string =>
    rcases string with ⟨quote, escaped⟩
    rw [hstring] at h
    cases escaped with
    | true =>
      rw [← Option.some.inj h]
      simp
    | false =>
      dsimp only at h
      rw [if_neg (hc quote)] at h
      split at h
      · rw [← Option.some.inj h]
        simp
      · rw [← Option.some.inj h, hstring]

theorem quote_ne_of_space (hc : isWhitespace c = true) (quote : Quote) :
    c ≠ quote.char := ne_of_isWhitespace hc (by cases quote <;> decide)

/-- White space before a text goes to its first part. -/
theorem splitScan_space (space : Chars) (hstring : state.string = none)
    (hdelim : isWhitespace delim = false) (hspace : ∀ c ∈ space, isWhitespace c = true) :
    splitScan delim state space = some ([space], state) := by
  induction space with
  | nil => rfl
  | cons c rest ih =>
    rw [List.forall_mem_cons] at hspace
    refine splitScan_cons_iff.2 (.inr ⟨state, [rest], ?_, next_space hstring hspace.1,
      ih hspace.2, rfl⟩)
    rintro ⟨rfl, -⟩
    rw [hspace.1] at hdelim
    cases hdelim

/-- White space after which no string is read leaves the reader where it was. -/
theorem splitScan_space_inv (hdelim : isWhitespace delim = false) {space : Chars}
    (hspace : ∀ c ∈ space, isWhitespace c = true)
    (h : splitScan delim state space = some (parts, last)) (hstring : last.string = none) :
    parts = [space] ∧ state = last := by
  have hstate : state.string = none := by
    induction space generalizing state parts with
    | nil =>
      rw [splitScan, Option.some.injEq, Prod.mk.injEq] at h
      rw [h.2, hstring]
    | cons c rest ih =>
      rw [List.forall_mem_cons] at hspace
      rcases splitScan_cons_iff.1 h with ⟨more, heq, -, -⟩ | ⟨state', more, -, hstep, hrest, -⟩
      · rw [heq.1] at hspace
        rw [hspace.1] at hdelim
        cases hdelim
      · rw [← string_of_next (quote_ne_of_space hspace.1) hstep]
        exact ih hspace.2 hrest
  rw [splitScan_space space hstate hdelim hspace, Option.some.injEq, Prod.mk.injEq] at h
  exact ⟨h.1.symm, h.2⟩

theorem exists_trim (text : Chars) : ∃ before after, text = before ++ (trim text ++ after)
    ∧ (∀ c ∈ before, isWhitespace c = true) ∧ ∀ c ∈ after, isWhitespace c = true := by
  refine ⟨text.takeWhile isWhitespace,
    ((trimStart text).reverse.takeWhile isWhitespace).reverse, ?_, ?_, ?_⟩
  · have hend : trim text ++ ((trimStart text).reverse.takeWhile isWhitespace).reverse
        = trimStart text := by
      unfold trim trimEnd
      rw [← List.reverse_append, List.takeWhile_append_dropWhile, List.reverse_reverse]
    rw [hend]
    exact (List.takeWhile_append_dropWhile).symm
  · exact fun c hc => List.mem_takeWhile_imp hc
  · exact fun c hc => List.mem_takeWhile_imp (List.mem_reverse.1 hc)

theorem trim_spaced_of_forall (before text after : Chars)
    (hbefore : ∀ c ∈ before, isWhitespace c = true) (hafter : ∀ c ∈ after, isWhitespace c = true) :
    trim (before ++ (text ++ after)) = trim text := by
  unfold trim
  rw [trimStart_append hbefore]
  unfold trimStart
  rw [List.dropWhile_append]
  split
  · rename_i hempty
    rw [List.isEmpty_iff] at hempty
    rw [hempty, List.dropWhile_eq_nil_iff.2 hafter]
  · exact trimEnd_append hafter _

theorem trim_trim (text : Chars) : trim (trim text) = trim text := by
  obtain ⟨before, after, htext, hbefore, hafter⟩ := exists_trim text
  conv_rhs => rw [htext, trim_spaced_of_forall _ _ _ hbefore hafter]

theorem forall_isWhitespace_of_trim (h : trim text = []) : ∀ c ∈ text, isWhitespace c = true := by
  obtain ⟨before, after, htext, hbefore, hafter⟩ := exists_trim text
  rw [h, List.nil_append] at htext
  intro c hc
  rw [htext, List.mem_append] at hc
  rcases hc with hc | hc
  · exact hbefore c hc
  · exact hafter c hc

theorem trim_eq_nil (h : ∀ c ∈ text, isWhitespace c = true) : trim text = [] := by
  have hspaced := trim_spaced_of_forall text [] [] h (by simp)
  rw [List.nil_append, List.append_nil] at hspaced
  rw [hspaced]
  rfl

theorem getLast?_trim (h : (trim text).getLast? = some c) : isWhitespace c = false := by
  unfold trim trimEnd at h
  rw [List.getLast?_reverse] at h
  have hhead := List.head?_dropWhile_not isWhitespace (trimStart text).reverse
  rw [h] at hhead
  simpa using hhead

/-- White space around a text changes nothing but the space around its parts. -/
theorem splitScan_trim (hdelim : isWhitespace delim = false)
    (h : splitScan delim state text = some (parts, last)) (hstate : state.string = none)
    (hlast : last.string = none) : ∃ parts', splitScan delim state (trim text) = some (parts', last)
      ∧ parts'.map trim = parts.map trim := by
  obtain ⟨before, after, htext, hbefore, hafter⟩ := exists_trim text
  rw [htext] at h
  obtain ⟨first, middle, rest, hfirst, hrest, rfl⟩ := splitScan_append_inv h
  rw [splitScan_space before hstate hdelim hbefore, Option.some.injEq, Prod.mk.injEq] at hfirst
  rcases hfirst with ⟨rfl, rfl⟩
  obtain ⟨parts', middle, space, hparts', hspace, rfl⟩ := splitScan_append_inv hrest
  obtain ⟨rfl, rfl⟩ := splitScan_space_inv hdelim hafter hspace hlast
  refine ⟨parts', hparts', ?_⟩
  have hne := splitScan_ne_nil hparts'
  rw [← List.dropLast_append_getLast hne, glue_concat]
  cases hdrop : parts'.dropLast with
  | nil =>
    have htrim := trim_spaced_of_forall before (parts'.getLast hne) after hbefore hafter
    simp [glue, htrim]
  | cons part others =>
    have hstart := trim_spaced_of_forall before part [] hbefore (by simp)
    have hend := trim_spaced_of_forall [] (parts'.getLast hne) after (by simp) hafter
    rw [List.append_nil] at hstart
    rw [List.nil_append] at hend
    simp [glue, hstart, hend]

theorem count_trim (hc : isWhitespace c = false) (text : Chars) :
    (trim text).count c = text.count c := by
  obtain ⟨before, after, htext, hbefore, hafter⟩ := exists_trim text
  have hnone : ∀ {space : Chars}, (∀ c' ∈ space, isWhitespace c' = true) → space.count c = 0 := by
    intro space hspace
    rw [List.count_eq_zero]
    intro hmem
    rw [hspace c hmem] at hc
    cases hc
  conv_rhs => rw [htext, List.count_append, List.count_append, hnone hbefore, hnone hafter]
  omega

theorem count_flatten_map_trim (hc : isWhitespace c = false) (parts : List Chars) :
    (parts.map trim).flatten.count c = parts.flatten.count c := by
  induction parts with
  | nil => rfl
  | cons part rest ih =>
    rw [List.map_cons, List.flatten_cons, List.flatten_cons, List.count_append, List.count_append,
      count_trim hc, ih]

/-! ## Joined texts -/

/-- The parts of a text that closes all it opens, without the space around them. -/
def Lists (delim : Char) (text : Chars) (parts : List Chars) : Prop :=
  ∃ raw, splitScan delim {} text = some (raw, {}) ∧ raw.map trim = parts

/-- A text that is one part. -/
structure IsPart (delim : Char) (text : Chars) : Prop where
  single : splitScan delim {} text = some ([text], {})
  trimmed : trim text = text

theorem IsPart.lists (h : IsPart delim text) : Lists delim text [text] :=
  ⟨[text], h.single, by rw [List.map_singleton, h.trimmed]⟩

theorem Lists.append {text' : Chars} (hdelim : isWhitespace delim = false)
    (h : Lists delim text parts) (h' : Lists delim text' parts') :
    Lists delim (text ++ [delim, ' '] ++ text') (parts ++ parts') := by
  obtain ⟨raw, hraw, rfl⟩ := h
  obtain ⟨raw', hraw', rfl⟩ := h'
  have hspace : splitScan delim {} (' ' :: text') = some (glue [[' ']] raw', {}) :=
    splitScan_append (splitScan_space [' '] rfl hdelim (List.forall_mem_singleton.2 rfl)) hraw'
  refine ⟨raw ++ glue [[' ']] raw', ?_, ?_⟩
  · have hcut := splitScan_cut hraw hspace
    simpa using hcut
  · rw [List.map_append]
    congr 1
    cases raw' with
    | nil => exact absurd rfl (splitScan_ne_nil hraw')
    | cons part rest =>
      have hstart := trim_spaced_of_forall [' '] part [] (List.forall_mem_singleton.2 rfl) (by simp)
      rw [List.append_nil] at hstart
      simp [glue, ← hstart]

/-- Texts that are joined are listed again. -/
theorem lists_joinTexts (hdelim : isWhitespace delim = false) {texts : List Chars}
    (hne : texts ≠ []) (h : ∀ text ∈ texts, IsPart delim text) :
    Lists delim (joinTexts [delim, ' '] texts) texts := by
  induction texts with
  | nil => exact absurd rfl hne
  | cons text rest ih =>
    rw [List.forall_mem_cons] at h
    by_cases hrest : rest = []
    · rw [hrest]
      exact h.1.lists
    · rw [joinTexts_cons hrest]
      exact h.1.lists.append hdelim (ih hrest h.2)

theorem Lists.count (h : Lists delim text parts) (hdelim : c ≠ delim)
    (hc : isWhitespace c = false) : parts.flatten.count c = text.count c := by
  obtain ⟨raw, hraw, rfl⟩ := h
  rw [count_flatten_map_trim hc, count_splitScan hdelim hraw]

/-- A text is split in one way only. -/
theorem Lists.unique (h : Lists delim text parts) (h' : Lists delim text parts') :
    parts = parts' := by
  obtain ⟨raw, hraw, rfl⟩ := h
  obtain ⟨raw', hraw', rfl⟩ := h'
  rw [hraw, Option.some.injEq, Prod.mk.injEq] at hraw'
  rw [hraw'.1]

theorem isPart_trim (hdelim : isWhitespace delim = false)
    (h : splitScan delim {} text = some ([text], {})) : IsPart delim (trim text) := by
  obtain ⟨parts, hparts, htrim⟩ := splitScan_trim hdelim h rfl rfl
  have hlength := congrArg List.length htrim
  rw [List.length_map, List.length_map, List.length_singleton] at hlength
  obtain ⟨part, rfl⟩ := List.length_eq_one_iff.1 hlength
  have hjoin : part = trim text := joinTexts_splitScan hparts
  rw [hjoin] at hparts htrim
  exact ⟨hparts, by simpa using htrim⟩

/-- Each of the listed parts is one part. -/
theorem Lists.isPart {part : Chars} (hdelim : isWhitespace delim = false)
    (h : Lists delim text parts) (hmem : part ∈ parts) : IsPart delim part := by
  obtain ⟨raw, hraw, rfl⟩ := h
  obtain ⟨rawPart, hrawPart, rfl⟩ := List.mem_map.1 hmem
  cases raw with
  | nil => exact absurd hrawPart List.not_mem_nil
  | cons first rest =>
    obtain ⟨hfirst, hrest⟩ := splitScan_parts hraw
    rw [ite_self] at hfirst
    apply isPart_trim hdelim
    rcases List.mem_cons.1 hrawPart with rfl | hmemRest
    · exact hfirst
    · exact hrest rfl rawPart hmemRest

end TypePython.Lib.Text
