import TypePython.Emit.TypedDictTransforms
import TypePython.Lib.NestedTexts

/-!
# Suffixes of class headers

What the lowering does to the argument list of a class: it appends bases, and takes the keyword
arguments out that only the checker reads. Both edit the text between the parentheses.
-/

namespace TypePython.Emit

open TypePython.Lib.Text

/-! ## The model -/

structure SplitState where
  parenDepth : Nat := 0
  bracketDepth : Nat := 0
  braceDepth : Nat := 0
  stringQuote : Option Char := none
  escaped : Bool := false

namespace SplitState

/-- A closing bracket at depth zero leaves it at zero. -/
def next (state : SplitState) (character : Char) : SplitState :=
  match state.stringQuote with
  | some quote =>
    if state.escaped then { state with escaped := false }
    else if character = '\\' then { state with escaped := true }
    else if character = quote then { state with stringQuote := none }
    else state
  | none =>
    match character with
    | '\'' | '"' => { state with stringQuote := some character }
    | '(' => { state with parenDepth := state.parenDepth + 1 }
    | ')' => { state with parenDepth := state.parenDepth - 1 }
    | '[' => { state with bracketDepth := state.bracketDepth + 1 }
    | ']' => { state with bracketDepth := state.bracketDepth - 1 }
    | '{' => { state with braceDepth := state.braceDepth + 1 }
    | '}' => { state with braceDepth := state.braceDepth - 1 }
    | _ => state

def atTop (state : SplitState) : Bool :=
  state.stringQuote = none && state.parenDepth = 0 && state.bracketDepth = 0
    && state.braceDepth = 0

end SplitState

/-- An empty part is left out. -/
def pushPart (current : Chars) (parts : List Chars) : List Chars :=
  if trim current = [] then parts else trim current :: parts

/-- `current` is the part that is read. -/
def splitHeaderSuffixArgsFrom : SplitState → Chars → Chars → List Chars
  | _, current, [] => pushPart current []
  | state, current, character :: rest =>
    if character = ',' && state.atTop then
      pushPart current (splitHeaderSuffixArgsFrom state [] rest)
    else splitHeaderSuffixArgsFrom (state.next character) (current ++ [character]) rest

def splitHeaderSuffixArgs (text : Chars) : List Chars := splitHeaderSuffixArgsFrom {} [] text

def typedDictRuntimeKeywords : List Chars := ["closed".toList, "extra_items".toList]

/-- What stands before the first `=` is one of the keywords. -/
def startsWithRuntimeKeyword (part : Chars) : Bool :=
  match splitOnce '=' part with
  | some (name, _) => trim name ∈ typedDictRuntimeKeywords
  | none => false

/-- The text between the parentheses, as it is cut out of a suffix. -/
def unwrapHeaderSuffix (trimmed : Chars) : Chars :=
  trim (trimEndMatches ')' (trimmed.dropWhile (· = '(')))

def wrapParts (parts : List Chars) : Chars := '(' :: (joinTexts [',', ' '] parts ++ [')'])

def stripTypedDictRuntimeKeywords (headerSuffix : Chars) : Chars :=
  if trim headerSuffix = [] then []
  else if unwrapHeaderSuffix (trim headerSuffix) = [] then []
  else
    let parts := (splitHeaderSuffixArgs (unwrapHeaderSuffix (trim headerSuffix))).filter fun part =>
      !startsWithRuntimeKeyword part
    if parts = [] then [] else wrapParts parts

/-- The arguments that are there already, as one text. -/
def innerParts (headerSuffix : Chars) : List Chars :=
  if trim headerSuffix = [] || unwrapHeaderSuffix (trim headerSuffix) = [] then []
  else [unwrapHeaderSuffix (trim headerSuffix)]

def appendBases (headerSuffix : Chars) (extras : List Chars) : Chars :=
  if extras = [] then headerSuffix else wrapParts (innerParts headerSuffix ++ extras)

/-! ## What the suffixes say -/

/-- A character of a name, as opposed to white space, brackets, quotes and operators. -/
def isNameCharacter (c : Char) : Bool :=
  !isWhitespace c && c ∉ "()[]{}'\",.:;+-*/%&|^~<>=!@#$?\\\x60".toList

/-- The name of a keyword argument. A comparison is none. -/
def keywordName (argument : Chars) : Option Chars :=
  match splitOnce '=' argument with
  | some (name, value) =>
    if value.head? ≠ some '=' && trim name ≠ [] && (trim name).all isNameCharacter then
      some (trim name)
    else none
  | none => none

/-- The bases of a class and its keyword arguments, each as its text. -/
structure HeaderArguments where
  positional : List Chars
  keywords : List Chars
deriving DecidableEq

/-- Bases stand before the keyword arguments. -/
def sortArguments : List Chars → Option HeaderArguments
  | [] => some ⟨[], []⟩
  | argument :: rest =>
    (sortArguments rest).bind fun arguments =>
      if (keywordName argument).isNone then
        some { arguments with positional := argument :: arguments.positional }
      else if arguments.positional = [] then
        some { arguments with keywords := argument :: arguments.keywords }
      else none

/-- A comma may follow the last argument. -/
def dropTrailingBlank (parts : List Chars) : List Chars :=
  if parts.getLast? = some [] then parts.dropLast else parts

def parseArguments (content : Chars) : Option HeaderArguments :=
  (splitNested ',' content).bind fun parts =>
    let arguments := dropTrailingBlank (parts.map trim)
    if [] ∈ arguments then none else sortArguments arguments

/-- What stands between the parentheses of a suffix. -/
def headerContent (trimmed : Chars) : Option Chars :=
  (stripPrefix ['('] trimmed).bind (stripSuffix [')'])

/-- The arguments of a class with this suffix; nothing, when it is not an argument list. -/
def parseHeaderSuffix (headerSuffix : Chars) : Option HeaderArguments :=
  if trim headerSuffix = [] then some ⟨[], []⟩
  else (headerContent (trim headerSuffix)).bind parseArguments

/-! ## Splitting -/

/-- The depths of the splitter are those of the reader, up to so many parentheses that it has not
seen open. -/
structure Tracks (missing : Nat) (split : SplitState) (scan : ScanState) : Prop where
  quote : split.stringQuote = scan.string.map fun string => string.1.char
  escaped : split.escaped = (scan.string.map Prod.snd).getD false
  paren_le : split.parenDepth ≤ scan.opened.count .paren
  le_paren : scan.opened.count .paren ≤ split.parenDepth + missing
  bracket : split.bracketDepth = scan.opened.count .bracket
  brace : split.braceDepth = scan.opened.count .brace

variable {c : Char}

namespace Tracks

variable {missing : Nat} {split : SplitState} {scan : ScanState}

theorem start (missing : Nat) : Tracks missing {} {} where
  quote := rfl
  escaped := rfl
  paren_le := Nat.le_refl 0
  le_paren := Nat.zero_le _
  bracket := rfl
  brace := rfl

/-- Where no bracket is open, the splitter has not missed one. -/
theorem eq_start (h : Tracks missing split {}) : split = {} := by
  obtain ⟨hquote, hescaped, hparen, -, hbracket, hbrace⟩ := h
  cases split
  simp_all

theorem atTop (h : Tracks 0 split scan) (hsplit : split.atTop = true) : scan = {} := by
  obtain ⟨hquote, -, -, hparen, hbracket, hbrace⟩ := h
  unfold SplitState.atTop at hsplit
  simp only [Bool.and_eq_true, decide_eq_true_eq] at hsplit
  obtain ⟨⟨⟨hquote', hparen'⟩, hbracket'⟩, hbrace'⟩ := hsplit
  obtain ⟨opened, string⟩ := scan
  have hopened : opened = [] := by
    rw [List.eq_nil_iff_forall_not_mem]
    intro kind hmem
    have hcount := List.count_pos_iff.2 hmem
    dsimp only at hparen hbracket hbrace
    cases kind <;> omega
  have hstring : string = none := by
    rw [hquote'] at hquote
    exact Option.map_eq_none_iff.1 hquote.symm
  rw [hopened, hstring]

/-- A bracket or a quote outside of strings. -/
def step (split : SplitState) : CharKind → SplitState
  | .quote quote => { split with stringQuote := some quote.char }
  | .opens .paren => { split with parenDepth := split.parenDepth + 1 }
  | .opens .bracket => { split with bracketDepth := split.bracketDepth + 1 }
  | .opens .brace => { split with braceDepth := split.braceDepth + 1 }
  | .closes .paren => { split with parenDepth := split.parenDepth - 1 }
  | .closes .bracket => { split with bracketDepth := split.bracketDepth - 1 }
  | .closes .brace => { split with braceDepth := split.braceDepth - 1 }
  | .other => split

theorem next_eq_step (hquote : split.stringQuote = none) (c : Char) :
    split.next c = step split (charKind c) := by
  obtain ⟨paren, bracket, brace, quote, escaped⟩ := split
  dsimp only at hquote
  subst hquote
  unfold SplitState.next charKind
  dsimp only
  split <;> first | rfl | split <;> first | rfl | simp_all

theorem next (h : Tracks missing split scan) {scan' : ScanState}
    (hnext : scan.next c = some scan') : Tracks missing (split.next c) scan' := by
  obtain ⟨hquote, hescaped, hle, hge, hbracket, hbrace⟩ := h
  unfold ScanState.next at hnext
  cases hstring : scan.string with
  | none =>
    rw [hstring] at hquote hescaped hnext
    rw [next_eq_step hquote]
    dsimp only at hnext
    cases hkind : charKind c with
    | quote quote =>
      rw [hkind] at hnext
      cases hnext
      exact ⟨rfl, hescaped, hle, hge, hbracket, hbrace⟩
    | opens kind =>
      rw [hkind] at hnext
      cases hnext
      cases kind <;>
        exact ⟨hquote, hescaped, by simp [step]; omega, by simp [step]; omega,
          by simp [step]; omega, by simp [step]; omega⟩
    | closes kind =>
      rw [hkind] at hnext
      dsimp only at hnext
      split_ifs at hnext with hhead
      cases hnext
      obtain ⟨rest, hopened⟩ := List.head?_eq_some_iff.1 hhead
      rw [hopened] at hle hge hbracket hbrace
      rw [hopened]
      cases kind <;> simp only [List.count_cons_self, List.count_cons_of_ne, ne_eq,
        reduceCtorEq, not_false_eq_true] at hle hge hbracket hbrace <;>
        exact ⟨hquote, hescaped, by simp [step]; omega, by simp [step]; omega,
          by simp [step]; omega, by simp [step]; omega⟩
    | other =>
      rw [hkind] at hnext
      cases hnext
      exact ⟨by rw [hstring]; exact hquote, by rw [hstring]; exact hescaped, hle, hge, hbracket,
        hbrace⟩
  | some string =>
    rcases string with ⟨quote, escaped⟩
    rw [hstring] at hquote hescaped hnext
    simp only [Option.map_some, Option.getD_some] at hquote hescaped
    unfold SplitState.next
    rw [hquote]
    dsimp only
    cases escaped with
    | true =>
      cases hnext
      rw [hescaped, if_pos rfl]
      exact ⟨rfl, rfl, hle, hge, hbracket, hbrace⟩
    | false =>
      rw [hescaped, if_neg Bool.false_ne_true]
      dsimp only at hnext
      split_ifs at hnext ⊢
      · cases hnext
        exact ⟨rfl, rfl, hle, hge, hbracket, hbrace⟩
      · cases hnext
        exact ⟨rfl, rfl, hle, hge, hbracket, hbrace⟩
      · cases hnext
        exact ⟨by rw [hquote, hstring]; rfl, by rw [hescaped, hstring]; rfl, hle, hge, hbracket,
          hbrace⟩

end Tracks

/-- The parts that are not empty. -/
def keepParts (parts : List Chars) : List Chars := (parts.map trim).filter (· ≠ [])

theorem pushPart_eq (current : Chars) (parts : List Chars) :
    pushPart current parts = keepParts [current] ++ parts := by
  unfold pushPart keepParts
  by_cases h : trim current = []
  · rw [if_pos h]
    simp [h]
  · rw [if_neg h]
    simp [h]

theorem keepParts_cons (part : Chars) (rest : List Chars) :
    keepParts (part :: rest) = keepParts [part] ++ keepParts rest := by
  unfold keepParts
  rw [← List.filter_append, ← List.map_append, List.singleton_append]

variable {text : Chars} {rest : List Chars} {last : ScanState}

/-- Knowing every open bracket, the splitter finds the parts of the reader. -/
theorem splitHeaderSuffixArgsFrom_eq {current part : Chars} {split : SplitState}
    {scan : ScanState} (h : Tracks 0 split scan)
    (hscan : splitScan ',' scan text = some (part :: rest, last)) :
    splitHeaderSuffixArgsFrom split current text = keepParts ((current ++ part) :: rest) := by
  induction text generalizing split scan current part rest with
  | nil =>
    rw [splitScan, Option.some.injEq, Prod.mk.injEq, List.cons.injEq] at hscan
    rcases hscan with ⟨⟨rfl, rfl⟩, rfl⟩
    rw [splitHeaderSuffixArgsFrom, pushPart_eq, List.append_nil, List.append_nil]
  | cons c text ih =>
    rw [splitHeaderSuffixArgsFrom]
    rcases splitScan_cons_iff.1 hscan with ⟨more, hcut, hrest, hparts⟩ | ⟨scan', more, hcut, hnext,
      hrest, hparts⟩
    · rw [hcut.2] at h
      rw [List.cons.injEq] at hparts
      rcases hparts with ⟨rfl, rfl⟩
      rw [h.eq_start, hcut.1, if_pos (by decide), pushPart_eq, List.append_nil]
      cases more with
      | nil => exact absurd rfl (splitScan_ne_nil hrest)
      | cons part rest =>
        rw [ih (Tracks.start 0) hrest, List.nil_append, ← keepParts_cons]
    · have hkept : ¬ (decide (c = ',') && split.atTop) = true := by
        rw [Bool.and_eq_true, decide_eq_true_eq]
        exact fun htop => hcut ⟨htop.1, h.atTop htop.2⟩
      rw [if_neg hkept]
      cases more with
      | nil => exact absurd rfl (splitScan_ne_nil hrest)
      | cons part' rest' =>
        rw [consFirst, List.cons.injEq] at hparts
        rcases hparts with ⟨rfl, rfl⟩
        rw [ih (h.next hnext) hrest, List.append_assoc]
        rfl

theorem count_keepParts (hc : isWhitespace c = false) (parts : List Chars) :
    (keepParts parts).flatten.count c = parts.flatten.count c := by
  unfold keepParts
  rw [List.flatten_filter_ne_nil, count_flatten_map_trim hc]

/-- Having missed open brackets, the splitter may cut the part that they are in, no other. -/
theorem splitHeaderSuffixArgsFrom_missing (current : Chars) {part : Chars} {missing : Nat}
    {split : SplitState} {scan : ScanState} (h : Tracks missing split scan)
    (hscan : splitScan ',' scan text = some (part :: rest, last)) :
    ∃ pieces, splitHeaderSuffixArgsFrom split current text = pieces ++ keepParts rest
      ∧ ∀ c, isWhitespace c = false → pieces.flatten.count c ≤ (current ++ part).count c := by
  induction text generalizing split scan current part rest with
  | nil =>
    rw [splitScan, Option.some.injEq, Prod.mk.injEq, List.cons.injEq] at hscan
    rcases hscan with ⟨⟨rfl, rfl⟩, rfl⟩
    refine ⟨keepParts [current], ?_, ?_⟩
    · rw [splitHeaderSuffixArgsFrom, pushPart_eq]
      rfl
    · intro c hc
      rw [count_keepParts hc]
      simp
  | cons c text ih =>
    rw [splitHeaderSuffixArgsFrom]
    rcases splitScan_cons_iff.1 hscan with ⟨more, hcut, hrest, hparts⟩ | ⟨scan', more, hcut, hnext,
      hrest, hparts⟩
    · rw [hcut.2] at h
      rw [List.cons.injEq] at hparts
      rcases hparts with ⟨rfl, rfl⟩
      refine ⟨keepParts [current], ?_, ?_⟩
      · rw [h.eq_start, hcut.1, if_pos (by decide), pushPart_eq]
        cases more with
        | nil => exact absurd rfl (splitScan_ne_nil hrest)
        | cons part rest => rw [splitHeaderSuffixArgsFrom_eq (Tracks.start 0) hrest,
            List.nil_append]
      · intro c hc
        rw [count_keepParts hc]
        simp
    · cases more with
      | nil => exact absurd rfl (splitScan_ne_nil hrest)
      | cons part' rest' =>
        rw [consFirst, List.cons.injEq] at hparts
        rcases hparts with ⟨rfl, rfl⟩
        by_cases htop : (decide (c = ',') && split.atTop) = true
        · -- a comma inside of brackets that the splitter has not seen open
          rw [if_pos htop, pushPart_eq]
          rw [Bool.and_eq_true, decide_eq_true_eq] at htop
          have hstay : split.next c = split := by
            have hquote : split.stringQuote = none := by
              have htop' := htop.2
              unfold SplitState.atTop at htop'
              simp only [Bool.and_eq_true, decide_eq_true_eq] at htop'
              exact htop'.1.1.1
            rw [Tracks.next_eq_step hquote, htop.1]
            rfl
          have htracks := h.next hnext
          rw [hstay] at htracks
          obtain ⟨pieces, hpieces, hcount⟩ := ih [] htracks hrest
          refine ⟨keepParts [current] ++ pieces, ?_, ?_⟩
          · rw [hpieces, List.append_assoc]
          · intro c' hc'
            have hle := hcount c' hc'
            rw [List.flatten_append, List.count_append, count_keepParts hc', List.count_append,
              List.count_cons]
            simp only [List.flatten_cons, List.flatten_nil, List.append_nil,
              List.nil_append] at hle ⊢
            omega
        · rw [if_neg htop]
          obtain ⟨pieces, hpieces, hcount⟩ := ih (current ++ [c]) (h.next hnext) hrest
          refine ⟨pieces, hpieces, ?_⟩
          intro c' hc'
          have hle := hcount c' hc'
          rwa [List.append_assoc] at hle

/-! ## Parsing -/

theorem sortArguments_eq_some {arguments : List Chars} {sorted : HeaderArguments} :
    sortArguments arguments = some sorted
      ↔ arguments = sorted.positional ++ sorted.keywords
        ∧ (∀ argument ∈ sorted.positional, keywordName argument = none)
        ∧ ∀ argument ∈ sorted.keywords, keywordName argument ≠ none := by
  induction arguments generalizing sorted with
  | nil =>
    obtain ⟨positional, keywords⟩ := sorted
    rw [sortArguments, Option.some.injEq, HeaderArguments.mk.injEq]
    constructor
    · rintro ⟨rfl, rfl⟩
      simp
    · intro h
      have hnil := List.append_eq_nil_iff.1 h.1.symm
      exact ⟨hnil.1.symm, hnil.2.symm⟩
  | cons argument rest ih =>
    obtain ⟨positional, keywords⟩ := sorted
    rw [sortArguments, Option.bind_eq_some_iff]
    dsimp only
    constructor
    · rintro ⟨sorted, hsorted, hargument⟩
      obtain ⟨hrest, hpositional, hkeywords⟩ := ih.1 hsorted
      split_ifs at hargument with hname hempty
      · cases hargument
        refine ⟨by rw [hrest]; rfl, ?_, hkeywords⟩
        rw [List.forall_mem_cons]
        exact ⟨Option.isNone_iff_eq_none.1 hname, hpositional⟩
      · cases hargument
        refine ⟨by rw [hrest, hempty]; rfl, hpositional, ?_⟩
        rw [List.forall_mem_cons]
        exact ⟨fun hnone => hname (Option.isNone_iff_eq_none.2 hnone), hkeywords⟩
    · rintro ⟨happend, hpositional, hkeywords⟩
      cases positional with
      | nil =>
        cases keywords with
        | nil => cases happend
        | cons first keywords =>
          rw [List.nil_append, List.cons.injEq] at happend
          rcases happend with ⟨rfl, rfl⟩
          rw [List.forall_mem_cons] at hkeywords
          refine ⟨⟨[], rest⟩, ih.2 ⟨rfl, hpositional, hkeywords.2⟩, ?_⟩
          rw [if_neg, if_pos rfl]
          exact fun hnone => hkeywords.1 (Option.isNone_iff_eq_none.1 hnone)
      | cons first positional =>
        rw [List.cons_append, List.cons.injEq] at happend
        rcases happend with ⟨rfl, rfl⟩
        rw [List.forall_mem_cons] at hpositional
        refine ⟨⟨positional, keywords⟩, ih.2 ⟨rfl, hpositional.2, hkeywords⟩, ?_⟩
        rw [if_pos (Option.isNone_iff_eq_none.2 hpositional.1)]

/-- The arguments that the parts of a content are: each of them, but for a last empty one. -/
structure Arranges (parts : List Chars) (arguments : HeaderArguments) : Prop where
  all : dropTrailingBlank parts = arguments.positional ++ arguments.keywords
  nonempty : [] ∉ dropTrailingBlank parts
  positional : ∀ argument ∈ arguments.positional, keywordName argument = none
  keywords : ∀ argument ∈ arguments.keywords, keywordName argument ≠ none

variable {arguments : HeaderArguments}

theorem parseArguments_eq_some {content : Chars} : parseArguments content = some arguments
      ↔ ∃ parts, Lists ',' content parts ∧ Arranges parts arguments := by
  unfold parseArguments splitNested
  constructor
  · intro h
    obtain ⟨raw, hraw, hsorted⟩ := Option.bind_eq_some_iff.1 h
    obtain ⟨⟨raw', last⟩, hscan, hlast⟩ := Option.bind_eq_some_iff.1 hraw
    dsimp only at hlast hsorted
    split_ifs at hlast hsorted with hstart hempty
    · cases hlast
      rw [hstart] at hscan
      obtain ⟨hall, hpositional, hkeywords⟩ := sortArguments_eq_some.1 hsorted
      exact ⟨_, ⟨raw, hscan, rfl⟩, ⟨hall, hempty, hpositional, hkeywords⟩⟩
  · rintro ⟨parts, ⟨raw, hraw, rfl⟩, h⟩
    rw [hraw, Option.bind_some, if_pos rfl, Option.bind_some, if_neg h.nonempty]
    exact sortArguments_eq_some.2 ⟨h.all, h.positional, h.keywords⟩

theorem headerContent_eq {content : Chars} :
    headerContent text = some content ↔ text = '(' :: (content ++ [')']) := by
  unfold headerContent stripPrefix stripSuffix
  constructor
  · intro h
    obtain ⟨rest, hrest, hcontent⟩ := Option.bind_eq_some_iff.1 h
    rw [List.isPrefixOf?_eq_some_iff_append_eq] at hrest
    rw [List.isSuffixOf?_eq_some_iff_append_eq] at hcontent
    rw [← hrest, ← hcontent]
    rfl
  · rintro rfl
    refine Option.bind_eq_some_iff.2 ⟨content ++ [')'], ?_, ?_⟩
    · rw [List.isPrefixOf?_eq_some_iff_append_eq]
      rfl
    · rw [List.isSuffixOf?_eq_some_iff_append_eq]

theorem trim_wrapped (content : Chars) :
    trim ('(' :: (content ++ [')'])) = '(' :: (content ++ [')']) := by
  apply Solid.trim_eq
  constructor
  · exact ⟨'(', content ++ [')'], rfl, by decide⟩
  · exact ⟨')', '(' :: content, by simp, by decide⟩

theorem parseHeaderSuffix_wrapped (content : Chars) :
    parseHeaderSuffix ('(' :: (content ++ [')'])) = parseArguments content := by
  unfold parseHeaderSuffix
  rw [trim_wrapped, if_neg (List.cons_ne_nil _ _), headerContent_eq.2 rfl, Option.bind_some]

variable {headerSuffix : Chars}

/-- A suffix is empty, or a list in parentheses. -/
theorem parseHeaderSuffix_cases (h : parseHeaderSuffix headerSuffix = some arguments) :
    (trim headerSuffix = [] ∧ arguments = ⟨[], []⟩)
      ∨ ∃ content parts, trim headerSuffix = '(' :: (content ++ [')'])
        ∧ Lists ',' content parts ∧ Arranges parts arguments := by
  unfold parseHeaderSuffix at h
  by_cases hempty : trim headerSuffix = []
  · rw [if_pos hempty] at h
    exact .inl ⟨hempty, (Option.some.inj h).symm⟩
  · rw [if_neg hempty] at h
    obtain ⟨content, hcontent, harguments⟩ := Option.bind_eq_some_iff.1 h
    obtain ⟨parts, hparts, harranges⟩ := parseArguments_eq_some.1 harguments
    exact .inr ⟨content, parts, headerContent_eq.1 hcontent, hparts, harranges⟩

theorem flatten_dropTrailingBlank (parts : List Chars) :
    (dropTrailingBlank parts).flatten = parts.flatten := by
  unfold dropTrailingBlank
  split
  · rename_i hlast
    obtain ⟨before, rfl⟩ := List.getLast?_eq_some_iff.1 hlast
    simp
  · rfl

/-- The characters of a list in parentheses are those of its arguments. -/
theorem count_arguments {content : Chars} (h : parseArguments content = some arguments)
    (hcomma : c ≠ ',') (hspace : isWhitespace c = false) :
    (arguments.positional ++ arguments.keywords).flatten.count c = content.count c := by
  obtain ⟨parts, hparts, harranges⟩ := parseArguments_eq_some.1 h
  rw [← harranges.all, flatten_dropTrailingBlank, hparts.count hcomma hspace]

/-! ## Cutting the parentheses off -/

theorem trimEndMatches_concat (c : Char) (text : Chars) :
    trimEndMatches c (text ++ [c]) = trimEndMatches c text := by
  unfold trimEndMatches
  rw [List.reverse_append, List.reverse_singleton, List.singleton_append,
    List.dropWhile_cons_of_pos (by simp)]

theorem trimEndMatches_sublist (c : Char) (text : Chars) :
    (trimEndMatches c text).Sublist text := by
  have h := (List.dropWhile_sublist (l := text.reverse) (fun c' => decide (c' = c))).reverse
  rwa [List.reverse_reverse] at h

theorem dropWhile_concat {opener closer : Char} (h : closer ≠ opener) (text : Chars) :
    (text ++ [closer]).dropWhile (fun c => decide (c = opener))
      = text.dropWhile (fun c => decide (c = opener)) ++ [closer] := by
  rw [List.dropWhile_append]
  split
  · rename_i hempty
    rw [List.isEmpty_iff.1 hempty, List.dropWhile_cons_of_neg (by simpa using h)]
    rfl
  · rfl

theorem unwrapHeaderSuffix_wrapped (content : Chars) :
    unwrapHeaderSuffix ('(' :: (content ++ [')']))
      = trim (trimEndMatches ')' (content.dropWhile fun c => decide (c = '('))) := by
  unfold unwrapHeaderSuffix
  rw [List.dropWhile_cons_of_pos (by simp), dropWhile_concat (by decide), trimEndMatches_concat]

theorem dropWhile_eq_of_head (h : text.head? ≠ some c) :
    text.dropWhile (fun c' => decide (c' = c)) = text := by
  cases text with
  | nil => rfl
  | cons first rest =>
    rw [List.dropWhile_cons_of_neg]
    intro heq
    rw [of_decide_eq_true heq] at h
    exact h rfl

theorem trimEndMatches_eq_of_last (h : text.getLast? ≠ some c) : trimEndMatches c text = text := by
  unfold trimEndMatches
  rw [dropWhile_eq_of_head, List.reverse_reverse]
  rwa [List.head?_reverse]

/-- The list starts and ends with an argument that has no parenthesis there. -/
structure Bare (content : Chars) : Prop where
  head : content.head? ≠ some '('
  last : content.getLast? ≠ some ')'

theorem Bare.unwrap {content : Chars} (h : Bare content) :
    unwrapHeaderSuffix ('(' :: (content ++ [')'])) = trim content := by
  rw [unwrapHeaderSuffix_wrapped, dropWhile_eq_of_head h.head, trimEndMatches_eq_of_last h.last]

/-- Of an argument that starts with a parenthesis, it is cut off. -/
theorem count_unwrap_head {content : Chars} (h : content.head? = some '(') :
    (unwrapHeaderSuffix ('(' :: (content ++ [')']))).count '(' < content.count '(' := by
  obtain ⟨rest, rfl⟩ := List.head?_eq_some_iff.1 h
  rw [unwrapHeaderSuffix_wrapped, count_trim (by decide), List.dropWhile_cons_of_pos (by simp),
    List.count_cons_self]
  have hle := ((trimEndMatches_sublist ')' _).trans
    (List.dropWhile_sublist (l := rest) (fun c => decide (c = '(')))).count_le '('
  omega

/-- Of an argument that ends with a parenthesis, it is cut off. -/
theorem count_unwrap_last {content : Chars} (h : content.getLast? = some ')') :
    (unwrapHeaderSuffix ('(' :: (content ++ [')']))).count ')' < content.count ')' := by
  obtain ⟨before, rfl⟩ := List.getLast?_eq_some_iff.1 h
  rw [unwrapHeaderSuffix_wrapped, count_trim (by decide), dropWhile_concat (by decide),
    trimEndMatches_concat, List.count_append]
  have hle := ((trimEndMatches_sublist ')' _).trans
    (List.dropWhile_sublist (l := before) (fun c => decide (c = '(')))).count_le ')'
  have hone : List.count ')' [')'] = 1 := by decide
  omega

theorem count_joinTexts (hcomma : c ≠ ',') (hspace : c ≠ ' ') (texts : List Chars) :
    (joinTexts [',', ' '] texts).count c = texts.flatten.count c := by
  induction texts with
  | nil => rfl
  | cons text rest ih =>
    by_cases hrest : rest = []
    · simp [hrest, joinTexts]
    · have hsep : List.count c [',', ' '] = 0 :=
        List.count_eq_zero.2 (by simp [hcomma, hspace])
      rw [joinTexts_cons hrest, List.count_append, List.count_append, ih, hsep,
        List.flatten_cons, List.count_append]
      omega

/-! ## Trailing commas -/

variable {parts : List Chars}

/-- A comma at the end of what the reader reads is outside of all brackets. -/
theorem splitScan_comma {state : ScanState} (h : splitScan ',' state [','] = some (parts, {})) :
    parts = [[], []] := by
  rcases splitScan_cons_iff.1 h with ⟨more, -, hrest, rfl⟩ | ⟨state', more, hcut, hnext, hrest, -⟩
  · rw [splitScan, Option.some.injEq, Prod.mk.injEq] at hrest
    rw [← hrest.1]
  · exfalso
    rw [splitScan, Option.some.injEq, Prod.mk.injEq] at hrest
    rw [hrest.2] at hnext
    unfold ScanState.next at hnext
    obtain ⟨opened, string⟩ := state
    rcases string with _ | ⟨quote, _ | _⟩
    · exact hcut ⟨rfl, Option.some.inj hnext⟩
    · have hquote : ',' ≠ quote.char := by cases quote <;> decide
      simp [hquote] at hnext
    · simp at hnext

/-- The last part is empty exactly if a comma is the last character. -/
theorem getLast?_parts_iff {content : Chars} (h : Lists ',' content parts)
    (hcontent : trim content ≠ []) :
    parts.getLast? = some [] ↔ (trim content).getLast? = some ',' := by
  obtain ⟨raw, hraw, rfl⟩ := h
  obtain ⟨raw', hraw', htrim⟩ := splitScan_trim (by decide) hraw rfl rfl
  rw [← htrim]
  constructor
  · intro hlast
    rw [List.getLast?_map, Option.map_eq_some_iff] at hlast
    obtain ⟨part, hpart, hblank⟩ := hlast
    obtain ⟨before, rfl⟩ := List.getLast?_eq_some_iff.1 hpart
    have hspace := forall_isWhitespace_of_trim hblank
    have hjoin := joinTexts_splitScan hraw'
    by_cases hbefore : before = []
    · rw [hbefore] at hjoin
      have hpart' : part = trim content := hjoin
      rw [hpart', trim_trim] at hblank
      exact absurd hblank hcontent
    · rw [joinTexts_concat hbefore] at hjoin
      cases hend : part.getLast? with
      | none =>
        rw [List.getLast?_eq_none_iff.1 hend, List.append_nil] at hjoin
        rw [← hjoin, List.getLast?_concat]
      | some c =>
        have hc : (trim content).getLast? = some c := by
          rw [← hjoin, List.getLast?_append, hend]
          rfl
        have hnot := getLast?_trim hc
        rw [hspace c (List.mem_of_getLast? hend)] at hnot
        cases hnot
  · intro hlast
    obtain ⟨before, hbefore⟩ := List.getLast?_eq_some_iff.1 hlast
    rw [hbefore] at hraw'
    obtain ⟨first, middle, after, hfirst, hafter, rfl⟩ := splitScan_append_inv hraw'
    rw [splitScan_comma hafter, ← List.dropLast_append_getLast (splitScan_ne_nil hfirst),
      glue_concat]
    simp [trim_eq_nil]

/-! ## Appending bases -/

/-- The text of a base. -/
structure IsBase (text : Chars) : Prop where
  isPart : IsPart ',' text
  nonempty : text ≠ []
  notKeyword : keywordName text = none

theorem dropTrailingBlank_of_last (h : parts.getLast? ≠ some []) :
    dropTrailingBlank parts = parts := if_neg h

variable {extras : List Chars}

theorem getLast?_bases (hbases : ∀ extra ∈ extras, IsBase extra) (hne : extras ≠ [])
    (parts : List Chars) : (parts ++ extras).getLast? ≠ some [] := by
  rw [List.getLast?_append_of_ne_nil _ hne]
  intro hlast
  exact (hbases [] (List.mem_of_getLast? hlast)).nonempty rfl

/-- Only bases. -/
theorem parseHeaderSuffix_bases (hbases : ∀ extra ∈ extras, IsBase extra) (hne : extras ≠ []) :
    parseHeaderSuffix (wrapParts extras) = some ⟨extras, []⟩ := by
  rw [wrapParts, parseHeaderSuffix_wrapped, parseArguments_eq_some]
  refine ⟨extras, lists_joinTexts (by decide) hne fun extra hextra => (hbases extra hextra).isPart,
    ?_⟩
  have hdrop := dropTrailingBlank_of_last (getLast?_bases hbases hne [])
  rw [List.nil_append] at hdrop
  constructor
  · rw [hdrop, List.append_nil]
  · rw [hdrop]
    exact fun hmem => (hbases [] hmem).nonempty rfl
  · exact fun extra hextra => (hbases extra hextra).notKeyword
  · exact fun _ hmem => absurd hmem List.not_mem_nil

/-- A list without arguments. -/
theorem Arranges.of_blank {content : Chars} (h : Arranges parts arguments)
    (hparts : Lists ',' content parts) (hblank : trim content = []) : arguments = ⟨[], []⟩ := by
  have hone : Lists ',' content [[]] :=
    ⟨[content], splitScan_space content rfl (by decide) (forall_isWhitespace_of_trim hblank),
      by rw [List.map_singleton, hblank]⟩
  have hall := h.all
  rw [hparts.unique hone] at hall
  obtain ⟨positional, keywords⟩ := arguments
  have hnil := List.append_eq_nil_iff.1 hall.symm
  rw [HeaderArguments.mk.injEq]
  exact hnil

theorem Bare.of_blank {content : Chars} (hblank : trim content = []) : Bare content := by
  have hspace := forall_isWhitespace_of_trim hblank
  constructor
  · intro hhead
    exact absurd (hspace _ (List.mem_of_mem_head? hhead)) (by decide)
  · intro hlast
    exact absurd (hspace _ (List.mem_of_getLast? hlast)) (by decide)

/-- Bases can follow the last argument. -/
structure BasesCanFollow (content : Chars) (arguments : HeaderArguments) : Prop where
  bare : Bare content
  noKeywords : arguments.keywords = []
  noComma : (trim content).getLast? ≠ some ','

/-- Bases behind keyword arguments are no argument list. -/
theorem keywords_eq_nil {positional keywords : List Chars} (hextras : extras ≠ [])
    (hbases : ∀ extra ∈ extras, IsBase extra)
    (hkeywords : ∀ argument ∈ keywords, keywordName argument ≠ none)
    (h : sortArguments (positional ++ keywords ++ extras) = some arguments) : keywords = [] := by
  obtain ⟨happend, hpositional, hrest⟩ := sortArguments_eq_some.1 h
  by_contra hne
  -- the last argument is a base, so that no argument is a keyword
  have hnone : arguments.keywords = [] := by
    by_contra hkeyword
    have hlast := congrArg List.getLast? happend
    rw [List.getLast?_append_of_ne_nil _ hextras, List.getLast?_append_of_ne_nil _ hkeyword] at hlast
    have hmem := List.getLast_mem hextras
    rw [List.getLast?_eq_some_getLast hextras] at hlast
    exact hrest _ (List.mem_of_getLast? hlast.symm) (hbases _ hmem).notKeyword
  rw [hnone, List.append_nil] at happend
  obtain ⟨keyword, hkeyword⟩ := List.exists_mem_of_ne_nil keywords hne
  refine hkeywords keyword hkeyword (hpositional keyword ?_)
  rw [← happend]
  simp [hkeyword]

/-- The arguments and the bases, read together. -/
theorem parseHeaderSuffix_append {content : Chars} (hparts : Lists ',' content parts)
    (hextras : extras ≠ []) (hbases : ∀ extra ∈ extras, IsBase extra) :
    parseHeaderSuffix (wrapParts (trim content :: extras))
      = if [] ∈ parts ++ extras then none else sortArguments (parts ++ extras) := by
  obtain ⟨raw, hraw, rfl⟩ := hparts
  obtain ⟨raw', hraw', htrim⟩ := splitScan_trim (by decide) hraw rfl rfl
  have hall : Lists ',' (joinTexts [',', ' '] (trim content :: extras)) (raw.map trim ++ extras) := by
    rw [joinTexts_cons hextras]
    exact (Lists.append (by decide) ⟨raw', hraw', htrim⟩
      (lists_joinTexts (by decide) hextras fun extra hextra => (hbases extra hextra).isPart))
  obtain ⟨all, hscan, hmap⟩ := hall
  rw [wrapParts, parseHeaderSuffix_wrapped, parseArguments, splitNested, hscan, Option.bind_some,
    if_pos rfl, Option.bind_some, hmap, dropTrailingBlank_of_last (getLast?_bases hbases hextras _)]

theorem innerParts_wrapped {headerSuffix content : Chars}
    (hcontent : trim headerSuffix = '(' :: (content ++ [')'])) :
    innerParts headerSuffix
      = if unwrapHeaderSuffix ('(' :: (content ++ [')'])) = [] then []
        else [unwrapHeaderSuffix ('(' :: (content ++ [')']))] := by
  unfold innerParts
  simp [hcontent]

theorem count_innerParts {headerSuffix content : Chars}
    (hcontent : trim headerSuffix = '(' :: (content ++ [')'])) (c : Char) :
    (innerParts headerSuffix).flatten.count c
      = (unwrapHeaderSuffix ('(' :: (content ++ [')']))).count c := by
  rw [innerParts_wrapped hcontent]
  split
  · rename_i hnil
    rw [hnil]
    rfl
  · simp

theorem appendBases_iff (h : parseHeaderSuffix headerSuffix = some arguments)
    (hbases : ∀ extra ∈ extras, IsBase extra) : parseHeaderSuffix (appendBases headerSuffix extras)
        = some ⟨arguments.positional ++ extras, arguments.keywords⟩
      ↔ extras = [] ∨ ∀ content, headerContent (trim headerSuffix) = some content →
          trim content ≠ [] → BasesCanFollow content arguments := by
  by_cases hextras : extras = []
  · rw [hextras, appendBases, if_pos rfl, h]
    simp
  rw [appendBases, if_neg hextras]
  rcases parseHeaderSuffix_cases h with ⟨hempty, rfl⟩ | ⟨content, parts, hcontent, hparts, harranges⟩
  · have hinner : innerParts headerSuffix = [] := by simp [innerParts, hempty]
    rw [hinner, List.nil_append, parseHeaderSuffix_bases hbases hextras, hempty]
    refine iff_of_true rfl (.inr ?_)
    intro content hcontent
    rw [headerContent_eq] at hcontent
    cases hcontent
  have honly : ∀ content', headerContent (trim headerSuffix) = some content' → content' = content := by
    intro content' hcontent'
    rw [hcontent, headerContent_eq, List.cons.injEq] at hcontent'
    exact (List.append_cancel_right hcontent'.2).symm
  by_cases hblank : trim content = []
  · have hinner : innerParts headerSuffix = [] := by
      rw [innerParts_wrapped hcontent, (Bare.of_blank hblank).unwrap, if_pos hblank]
    rw [hinner, List.nil_append, parseHeaderSuffix_bases hbases hextras,
      harranges.of_blank hparts hblank]
    refine iff_of_true rfl (.inr ?_)
    intro content' hcontent' hnonblank
    rw [honly content' hcontent'] at hnonblank
    exact absurd hblank hnonblank
  constructor
  · intro hparse
    refine .inr ?_
    intro content' hcontent' _
    rw [honly content' hcontent']
    -- no parenthesis is lost, so that none has been cut off
    have hcount : ∀ c, c ≠ ',' → isWhitespace c = false →
        (unwrapHeaderSuffix ('(' :: (content ++ [')']))).count c = content.count c := by
      intro c hcomma hspace
      have hparse' := hparse
      rw [wrapParts, parseHeaderSuffix_wrapped] at hparse'
      have hafter := count_arguments hparse' hcomma hspace
      have hargument : parseArguments content = some arguments :=
        parseArguments_eq_some.2 ⟨parts, hparts, harranges⟩
      have hbefore := count_arguments hargument hcomma hspace
      have hinner := count_innerParts hcontent c
      rw [count_joinTexts hcomma (by rintro rfl; cases hspace)] at hafter
      simp only [List.flatten_append, List.count_append] at hbefore hafter
      omega
    have hbare : Bare content := by
      constructor
      · intro hhead
        have hlt := count_unwrap_head hhead
        rw [hcount '(' (by decide) (by decide)] at hlt
        exact absurd hlt (Nat.lt_irrefl _)
      · intro hlast
        have hlt := count_unwrap_last hlast
        rw [hcount ')' (by decide) (by decide)] at hlt
        exact absurd hlt (Nat.lt_irrefl _)
    rw [innerParts_wrapped hcontent, hbare.unwrap, if_neg hblank, List.singleton_append,
      parseHeaderSuffix_append hparts hextras hbases] at hparse
    split_ifs at hparse with hempty
    have hlast : parts.getLast? ≠ some [] := fun hlast =>
      hempty (List.mem_append_left _ (List.mem_of_getLast? hlast))
    have hall := harranges.all
    rw [dropTrailingBlank_of_last hlast] at hall
    rw [hall] at hparse
    exact ⟨hbare, keywords_eq_nil hextras hbases harranges.keywords hparse,
      mt (getLast?_parts_iff hparts hblank).2 hlast⟩
  · rintro (hnil | hfollow)
    · exact absurd hnil hextras
    · obtain ⟨hbare, hkeywords, hcomma⟩ := hfollow content (headerContent_eq.2 hcontent) hblank
      have hlast := mt (getLast?_parts_iff hparts hblank).1 hcomma
      have hall := harranges.all
      have hnonempty := harranges.nonempty
      rw [dropTrailingBlank_of_last hlast] at hall hnonempty
      rw [innerParts_wrapped hcontent, hbare.unwrap, if_neg hblank, List.singleton_append,
        parseHeaderSuffix_append hparts hextras hbases, if_neg, hall, hkeywords,
        List.append_nil]
      · refine sortArguments_eq_some.2 ⟨by rw [List.append_nil], ?_, ?_⟩
        · intro argument hargument
          rcases List.mem_append.1 hargument with hmem | hmem
          · exact harranges.positional argument hmem
          · exact (hbases argument hmem).notKeyword
        · exact fun _ hmem => absurd hmem List.not_mem_nil
      · rw [List.mem_append]
        rintro (hmem | hmem)
        · exact hnonempty hmem
        · exact (hbases [] hmem).nonempty rfl

/-! ## Taking keywords out -/

/-- A keyword argument that only the checker reads. -/
def isRuntimeKeyword (argument : Chars) : Bool :=
  match keywordName argument with
  | some name => name ∈ typedDictRuntimeKeywords
  | none => false

/-- A comparison with a name that is also the name of such a keyword. -/
def comparesRuntimeKeyword (argument : Chars) : Bool :=
  match splitOnce '=' argument with
  | some (name, value) => value.head? = some '=' && trim name ∈ typedDictRuntimeKeywords
  | none => false

theorem startsWithRuntimeKeyword_eq (argument : Chars) :
    startsWithRuntimeKeyword argument
      = (isRuntimeKeyword argument || comparesRuntimeKeyword argument) := by
  unfold startsWithRuntimeKeyword isRuntimeKeyword comparesRuntimeKeyword keywordName
  cases splitOnce '=' argument with
  | none => rfl
  | some parts =>
    obtain ⟨name, value⟩ := parts
    dsimp only
    by_cases hcompares : value.head? = some '='
    · simp [hcompares]
    · by_cases hname : trim name ∈ typedDictRuntimeKeywords
      · have hproper : trim name ≠ [] ∧ (trim name).all isNameCharacter = true := by
          unfold typedDictRuntimeKeywords at hname
          rcases List.mem_cons.1 hname with hname | hname
          · rw [hname]
            decide
          · rw [List.mem_singleton.1 hname]
            decide
        simp [hcompares, hname, hproper.1, hproper.2]
      · split
        · rename_i found hfound
          split_ifs at hfound
          cases hfound
          simp [hcompares]
        · simp [hcompares, hname]

theorem splitOnce_append {before : Chars} (hbefore : c ∉ before) (text : Chars) :
    splitOnce c (before ++ text)
      = (splitOnce c text).map fun parts => (before ++ parts.1, parts.2) := by
  induction before with
  | nil =>
    rw [List.nil_append]
    cases splitOnce c text <;> rfl
  | cons first before ih =>
    rw [List.mem_cons, not_or] at hbefore
    rw [List.cons_append, splitOnce, if_neg (Ne.symm hbefore.1), ih hbefore.2, Option.map_map]
    rfl

theorem splitOnce_append_right {after : Chars} (hafter : c ∉ after) (text : Chars) :
    splitOnce c (text ++ after)
      = (splitOnce c text).map fun parts => (parts.1, parts.2 ++ after) := by
  induction text with
  | nil =>
    have hnone := splitOnce_append hafter []
    rw [List.append_nil] at hnone
    rw [List.nil_append, hnone]
    rfl
  | cons first text ih =>
    rw [List.cons_append, splitOnce, splitOnce]
    split
    · rfl
    · rw [ih, Option.map_map, Option.map_map]
      rfl

/-- What follows the first `=`, and the space before the name, do not matter. -/
theorem startsWithRuntimeKeyword_append (before text : Chars) {after : Chars}
    (hbefore : ∀ c ∈ before, isWhitespace c = true) (hafter : '=' ∉ after) :
    startsWithRuntimeKeyword (before ++ (text ++ after)) = startsWithRuntimeKeyword text := by
  unfold startsWithRuntimeKeyword
  have hequals : '=' ∉ before := fun hmem => absurd (hbefore _ hmem) (by decide)
  rw [splitOnce_append hequals, splitOnce_append_right hafter]
  cases splitOnce '=' text with
  | none => rfl
  | some parts =>
    have hname := trim_spaced_of_forall before parts.1 [] hbefore (by simp)
    rw [List.append_nil] at hname
    simp [hname]

theorem startsWithRuntimeKeyword_trim (text : Chars) :
    startsWithRuntimeKeyword (trim text) = startsWithRuntimeKeyword text := by
  obtain ⟨before, after, htext, hbefore, hafter⟩ := exists_trim text
  conv_rhs => rw [htext, startsWithRuntimeKeyword_append _ _ hbefore
    (fun hmem => absurd (hafter _ hmem) (by decide))]

variable {argument : Chars}

theorem startsWithRuntimeKeyword_of_isRuntimeKeyword (h : isRuntimeKeyword argument = true) :
    startsWithRuntimeKeyword argument = true := by
  rw [startsWithRuntimeKeyword_eq, h]
  rfl

theorem not_comparesRuntimeKeyword (h : keywordName argument ≠ none) :
    comparesRuntimeKeyword argument = false := by
  unfold comparesRuntimeKeyword
  unfold keywordName at h
  cases hsplit : splitOnce '=' argument with
  | none => rfl
  | some parts =>
    rw [hsplit] at h
    dsimp only at h ⊢
    split_ifs at h with hproper
    · rw [Bool.and_eq_true, Bool.and_eq_true, decide_eq_true_eq] at hproper
      simp [hproper.1.1]
    · exact absurd rfl h

theorem not_isRuntimeKeyword (h : keywordName argument = none) :
    isRuntimeKeyword argument = false := by
  unfold isRuntimeKeyword
  rw [h]

/-- The parts that are kept, as a suffix. -/
def wrapKept (parts : List Chars) : Chars := if parts = [] then [] else wrapParts parts

/-- Arguments with the keywords taken out, and the comparisons that look like them. -/
theorem parseHeaderSuffix_kept (harranges : Arranges parts arguments)
    (hparts : ∀ part ∈ parts, IsPart ',' part) : parseHeaderSuffix (wrapKept
        ((dropTrailingBlank parts).filter fun part => !startsWithRuntimeKeyword part))
      = some ⟨arguments.positional.filter fun base => !comparesRuntimeKeyword base,
          arguments.keywords.filter fun keyword => !isRuntimeKeyword keyword⟩ := by
  have hpositional : arguments.positional.filter (fun part => !startsWithRuntimeKeyword part)
      = arguments.positional.filter fun base => !comparesRuntimeKeyword base := by
    apply List.filter_congr
    intro base hbase
    rw [startsWithRuntimeKeyword_eq, not_isRuntimeKeyword (harranges.positional base hbase),
      Bool.false_or]
  have hkeywords : arguments.keywords.filter (fun part => !startsWithRuntimeKeyword part)
      = arguments.keywords.filter fun keyword => !isRuntimeKeyword keyword := by
    apply List.filter_congr
    intro keyword hkeyword
    rw [startsWithRuntimeKeyword_eq, not_comparesRuntimeKeyword (harranges.keywords keyword hkeyword),
      Bool.or_false]
  rw [harranges.all, List.filter_append, hpositional, hkeywords]
  unfold wrapKept
  split
  · rename_i hnil
    have hempty := List.append_eq_nil_iff.1 hnil
    rw [hempty.1, hempty.2]
    rfl
  · rename_i hne
    have hmem : ∀ part ∈ arguments.positional.filter (fun base => !comparesRuntimeKeyword base)
        ++ arguments.keywords.filter (fun keyword => !isRuntimeKeyword keyword),
        part ∈ dropTrailingBlank parts := by
      intro part hpart
      rw [harranges.all, List.mem_append]
      exact (List.mem_append.1 hpart).imp List.mem_of_mem_filter List.mem_of_mem_filter
    have hsub : ∀ part ∈ dropTrailingBlank parts, part ∈ parts := by
      intro part hpart
      unfold dropTrailingBlank at hpart
      split at hpart
      · exact (List.dropLast_sublist parts).subset hpart
      · exact hpart
    rw [wrapParts, parseHeaderSuffix_wrapped, parseArguments_eq_some]
    refine ⟨_, lists_joinTexts (by decide) hne fun part hpart =>
      hparts part (hsub part (hmem part hpart)), ?_⟩
    have hlast : dropTrailingBlank _ = _ := dropTrailingBlank_of_last fun hlast =>
      harranges.nonempty (hmem [] (List.mem_of_getLast? hlast))
    constructor
    · exact hlast
    · rw [hlast]
      exact fun hnil => harranges.nonempty (hmem [] hnil)
    · exact fun base hbase => harranges.positional base (List.mem_of_mem_filter hbase)
    · exact fun keyword hkeyword => harranges.keywords keyword (List.mem_of_mem_filter hkeyword)

/-- The last of the arguments is a keyword that is taken out. -/
def endsWithRuntimeKeyword (parts : List Chars) : Bool :=
  match parts.getLast? with
  | some part => isRuntimeKeyword part
  | none => false

theorem endsWithRuntimeKeyword_cons (h : parts ≠ []) (part : Chars) :
    endsWithRuntimeKeyword (part :: parts) = endsWithRuntimeKeyword parts := by
  unfold endsWithRuntimeKeyword
  rw [List.getLast?_cons_of_ne_nil h]

/-- A keyword is taken out also when parentheses at its end have been cut off. -/
theorem startsWithRuntimeKeyword_of_cut {part tail : Chars} (htail : ∀ c ∈ tail, c = ')')
    (h : isRuntimeKeyword (trim (part ++ tail)) = true) :
    startsWithRuntimeKeyword (trim part) = true := by
  have hstarts := startsWithRuntimeKeyword_of_isRuntimeKeyword h
  have hcut := startsWithRuntimeKeyword_append [] part (by simp)
    (fun hmem : '=' ∈ tail => absurd (htail _ hmem) (by decide))
  rw [List.nil_append] at hcut
  rwa [startsWithRuntimeKeyword_trim, hcut, ← startsWithRuntimeKeyword_trim] at hstarts

theorem count_flatten_filter_le (p : Chars → Bool) (c : Char) (parts : List Chars) :
    (parts.filter p).flatten.count c ≤ parts.flatten.count c := by
  induction parts with
  | nil => exact Nat.le_refl _
  | cons part rest ih =>
    rw [List.flatten_cons, List.count_append]
    by_cases hpart : p part = true
    · rw [List.filter_cons_of_pos hpart, List.flatten_cons, List.count_append]
      omega
    · rw [List.filter_cons_of_neg hpart]
      omega

/-- What is kept has no more of a character than what should be kept, and lacks the parentheses
that are cut off the last argument unless that one is taken out. -/
theorem count_kept_le {c : Char} (hc : isWhitespace c = false) {tail : Chars}
    (htail : ∀ c ∈ tail, c = ')') {parts : List Chars} (hparts : parts ≠ []) :
    ((keepParts parts).filter fun part => !startsWithRuntimeKeyword part).flatten.count c
        + (if endsWithRuntimeKeyword ((glue parts [tail]).map trim) = true then 0 else tail.count c)
      ≤ (((glue parts [tail]).map trim).filter fun part => !isRuntimeKeyword part).flatten.count c := by
  induction parts with
  | nil => exact absurd rfl hparts
  | cons part rest ih =>
    by_cases hrest : rest = []
    · rw [hrest]
      have hglue : glue [part] [tail] = [part ++ tail] := rfl
      rw [hglue, List.map_singleton]
      by_cases hkeyword : isRuntimeKeyword (trim (part ++ tail)) = true
      · have hcut := startsWithRuntimeKeyword_of_cut htail hkeyword
        unfold keepParts
        by_cases hblank : trim part = []
        · simp [hblank, hkeyword, endsWithRuntimeKeyword]
        · simp [hblank, hcut, hkeyword, endsWithRuntimeKeyword]
      · have hle : ((keepParts [part]).filter fun part =>
            !startsWithRuntimeKeyword part).flatten.count c ≤ part.count c := by
          have hsub := count_flatten_filter_le (fun part => !startsWithRuntimeKeyword part) c
            (keepParts [part])
          rw [count_keepParts hc] at hsub
          simpa using hsub
        have hall : (([trim (part ++ tail)].filter fun part =>
            !isRuntimeKeyword part).flatten).count c = part.count c + tail.count c := by
          rw [List.filter_cons_of_pos (by simpa using hkeyword), List.filter_nil,
            List.flatten_singleton, count_trim hc, List.count_append]
        have hends : endsWithRuntimeKeyword [trim (part ++ tail)] = false := by
          simpa [endsWithRuntimeKeyword] using hkeyword
        rw [hall, hends, if_neg Bool.false_ne_true]
        omega
    · have hle := ih hrest
      rw [glue_cons hrest, List.map_cons, keepParts_cons, List.filter_append, List.flatten_append,
        List.count_append]
      have hne : (glue rest [tail]).map trim ≠ [] := by
        rw [ne_eq, List.map_eq_nil_iff]
        exact glue_ne_nil hrest _
      rw [endsWithRuntimeKeyword_cons hne]
      have hpart : ((keepParts [part]).filter fun part =>
            !startsWithRuntimeKeyword part).flatten.count c
          ≤ (([trim part].filter fun part => !isRuntimeKeyword part).flatten).count c := by
        unfold keepParts
        by_cases hblank : trim part = []
        · simp [hblank]
        · by_cases hstarts : startsWithRuntimeKeyword (trim part) = true
          · simp [hblank, hstarts]
          · have hkeyword : isRuntimeKeyword (trim part) = false :=
              Bool.eq_false_iff.2 (mt startsWithRuntimeKeyword_of_isRuntimeKeyword hstarts)
            simp [hblank, hstarts, hkeyword]
      have hcons : ((trim part :: (glue rest [tail]).map trim).filter fun part =>
            !isRuntimeKeyword part).flatten.count c
          = (([trim part].filter fun part => !isRuntimeKeyword part).flatten).count c
            + (((glue rest [tail]).map trim).filter fun part =>
              !isRuntimeKeyword part).flatten.count c := by
        rw [← List.singleton_append, List.filter_append, List.flatten_append, List.count_append]
      omega

theorem flatten_filter_dropTrailingBlank (p : Chars → Bool) (parts : List Chars) :
    ((dropTrailingBlank parts).filter p).flatten = (parts.filter p).flatten := by
  unfold dropTrailingBlank
  split
  · rename_i hlast
    obtain ⟨before, rfl⟩ := List.getLast?_eq_some_iff.1 hlast
    rw [List.dropLast_concat, List.filter_append, List.flatten_append]
    by_cases hp : p [] = true
    · simp [hp]
    · simp [hp]
  · rfl

theorem filter_ne_nil_eq (h : [] ∉ dropTrailingBlank parts) :
    parts.filter (fun part => decide (part ≠ [])) = dropTrailingBlank parts := by
  have hall : (dropTrailingBlank parts).filter (fun part => decide (part ≠ []))
      = dropTrailingBlank parts := by
    rw [List.filter_eq_self]
    intro part hpart
    exact decide_eq_true fun hnil => h (hnil ▸ hpart)
  rw [← hall]
  unfold dropTrailingBlank
  split
  · rename_i hlast
    obtain ⟨before, rfl⟩ := List.getLast?_eq_some_iff.1 hlast
    rw [List.dropLast_concat, List.filter_append]
    simp
  · rfl

/-- Where the reader is after so many open parentheses. -/
theorem tracks_opens {opens : Chars}
    (hopens : ∀ c ∈ opens, c = '(') {missing : Nat}
    {state last : ScanState} {parts : List Chars} (h : Tracks missing {} state)
    (hscan : splitScan ',' state opens = some (parts, last)) :
    Tracks (missing + opens.length) {} last := by
  induction opens generalizing missing state parts with
  | nil =>
    rw [splitScan, Option.some.injEq, Prod.mk.injEq] at hscan
    rw [← hscan.2]
    exact h
  | cons c opens ih =>
    rw [List.forall_mem_cons] at hopens
    rcases splitScan_cons_iff.1 hscan with ⟨more, hcut, -, -⟩ | ⟨state', more, -, hnext, hrest, -⟩
    · rw [hopens.1] at hcut
      exact absurd hcut.1 (by decide)
    · have hstring : state.string = none := by
        have hquote := h.quote
        cases hcase : state.string with
        | none => rfl
        | some string =>
          rw [hcase] at hquote
          cases hquote
      rw [hopens.1, ScanState.next, hstring] at hnext
      cases hnext
      have hopened : Tracks (missing + 1) {} { opened := .paren :: state.opened } := by
        have hle := h.le_paren
        have hbracket := h.bracket
        have hbrace := h.brace
        refine ⟨rfl, rfl, Nat.zero_le _, ?_, ?_, ?_⟩
        · rw [List.count_cons_self]
          show _ ≤ 0 + _
          have hzero : ({} : SplitState).parenDepth = 0 := rfl
          omega
        · rw [List.count_cons_of_ne (by decide)]
          exact hbracket
        · rw [List.count_cons_of_ne (by decide)]
          exact hbrace
      have hlast := ih hopens.2 hopened hrest
      rw [List.length_cons, ← Nat.add_assoc, Nat.add_right_comm]
      exact hlast

/-- Closing parentheses do not close a string. -/
theorem string_of_tail {tail : Chars} (htail : ∀ c ∈ tail, c = ')') {state : ScanState}
    (hscan : splitScan ',' state tail = some (parts, last)) (hlast : last.string = none) :
    state.string = none := by
  induction tail generalizing state parts with
  | nil =>
    rw [splitScan, Option.some.injEq, Prod.mk.injEq] at hscan
    rw [hscan.2, hlast]
  | cons c tail ih =>
    rw [List.forall_mem_cons] at htail
    rcases splitScan_cons_iff.1 hscan with ⟨more, hcut, -, -⟩ | ⟨state', more, -, hnext, hrest, -⟩
    · rw [htail.1] at hcut
      exact absurd hcut.1 (by decide)
    · have hquote : ∀ quote : Quote, c ≠ quote.char := by
        intro quote
        rw [htail.1]
        cases quote <;> decide
      rw [← string_of_next hquote hnext]
      exact ih htail.2 hrest

/-- How a content is cut: the parentheses at its start, what is kept, and those at its end. -/
structure Cut (content : Chars) (raw : List Chars) where
  opens : Chars
  inside : Chars
  tail : Chars
  state : ScanState
  last : ScanState
  parts : List Chars
  content_eq : content = opens ++ (inside ++ tail)
  opens_paren : ∀ c ∈ opens, c = '('
  tail_paren : ∀ c ∈ tail, c = ')'
  unwrap : unwrapHeaderSuffix ('(' :: (content ++ [')'])) = trim inside
  tracks : Tracks opens.length {} state
  scan : splitScan ',' state inside = some (parts, last)
  last_string : last.string = none
  raw_eq : raw = glue [opens] (glue parts [tail])
  state_eq : opens = [] → state = {}
  opens_ne : content.head? = some '(' → opens ≠ []
  opens_eq : content.head? ≠ some '(' → opens = []
  tail_ne : content.head? ≠ some '(' → content.getLast? = some ')' → tail ≠ []
  tail_eq : content.head? ≠ some '(' → content.getLast? ≠ some ')' → tail = []

theorem trimEndMatches_split (c : Char) (text : Chars) :
    ∃ tail, text = trimEndMatches c text ++ tail ∧ (∀ c' ∈ tail, c' = c)
      ∧ (text.getLast? = some c ↔ tail ≠ []) := by
  refine ⟨(text.reverse.takeWhile fun c' => decide (c' = c)).reverse, ?_, ?_, ?_⟩
  · unfold trimEndMatches
    rw [← List.reverse_append, List.takeWhile_append_dropWhile, List.reverse_reverse]
  · intro c' hc'
    exact of_decide_eq_true (List.mem_takeWhile_imp (List.mem_reverse.1 hc') :)
  · rw [ne_eq, List.reverse_eq_nil_iff, ← List.head?_reverse]
    cases text.reverse with
    | nil => simp
    | cons first rest =>
      by_cases hfirst : first = c
      · simp [hfirst]
      · simp [hfirst]

theorem exists_cut {content : Chars} {raw : List Chars}
    (h : splitScan ',' {} content = some (raw, {})) : Nonempty (Cut content raw) := by
  obtain ⟨tail, htail, hparen, hlast⟩ :=
    trimEndMatches_split ')' (content.dropWhile fun c => decide (c = '('))
  have hcontent : content = content.takeWhile (fun c => decide (c = '('))
      ++ (trimEndMatches ')' (content.dropWhile fun c => decide (c = '(')) ++ tail) := by
    rw [← htail, List.takeWhile_append_dropWhile]
  have hopens : ∀ c ∈ content.takeWhile (fun c => decide (c = '(')), c = '(' := fun c hc =>
    of_decide_eq_true (List.mem_takeWhile_imp hc :)
  have hscan := h
  rw [hcontent] at hscan
  obtain ⟨first, state, rest, hfirst, hrest, rfl⟩ := splitScan_append_inv hscan
  obtain ⟨parts, last, closing, hparts, hclosing, rfl⟩ := splitScan_append_inv hrest
  have hfirst' := splitScan_single (fun hmem => absurd (hopens _ hmem) (by decide)) hfirst
  have hclosing' := splitScan_single (fun hmem => absurd (hparen _ hmem) (by decide)) hclosing
  have htracks := tracks_opens hopens (Tracks.start 0) hfirst
  rw [Nat.zero_add] at htracks
  have hopensEq : content.head? ≠ some '(' → content.takeWhile (fun c => decide (c = '(')) = [] := by
    intro hhead
    cases content with
    | nil => rfl
    | cons c others =>
      rw [List.takeWhile_cons_of_neg]
      intro hc
      rw [of_decide_eq_true hc] at hhead
      exact hhead rfl
  refine ⟨{
    opens := content.takeWhile fun c => decide (c = '(')
    inside := trimEndMatches ')' (content.dropWhile fun c => decide (c = '('))
    tail, state, last, parts
    content_eq := hcontent
    opens_paren := hopens
    tail_paren := hparen
    unwrap := unwrapHeaderSuffix_wrapped content
    tracks := htracks
    scan := hparts
    last_string := string_of_tail hparen hclosing rfl
    raw_eq := by rw [hfirst', hclosing']
    state_eq := ?_
    opens_ne := ?_
    opens_eq := hopensEq
    tail_ne := ?_
    tail_eq := ?_ }⟩
  · intro hnil
    rw [hnil, splitScan, Option.some.injEq, Prod.mk.injEq] at hfirst
    exact hfirst.2.symm
  · intro hhead
    obtain ⟨others, hothers⟩ := List.head?_eq_some_iff.1 hhead
    rw [hothers, List.takeWhile_cons_of_pos (by simp)]
    exact List.cons_ne_nil _ _
  · intro hhead hend
    rw [dropWhile_eq_of_head hhead] at hlast
    exact hlast.1 hend
  · intro hhead hend
    rw [dropWhile_eq_of_head hhead] at hlast
    by_contra htail'
    exact hend (hlast.2 htail')

theorem strip_wrapped {headerSuffix content : Chars}
    (hcontent : trim headerSuffix = '(' :: (content ++ [')'])) :
    stripTypedDictRuntimeKeywords headerSuffix
      = wrapKept ((splitHeaderSuffixArgs (unwrapHeaderSuffix ('(' :: (content ++ [')'])))).filter
          fun part => !startsWithRuntimeKeyword part) := by
  unfold stripTypedDictRuntimeKeywords wrapKept
  rw [hcontent, if_neg (List.cons_ne_nil _ _)]
  by_cases hinner : unwrapHeaderSuffix ('(' :: (content ++ [')'])) = []
  · rw [if_pos hinner, hinner]
    rfl
  · rw [if_neg hinner]

/-- The characters of what is kept are those of the arguments that it is parsed to. -/
theorem count_wrapKept (h : parseHeaderSuffix (wrapKept parts) = some arguments)
    (hcomma : c ≠ ',') (hspace : isWhitespace c = false) :
    (arguments.positional ++ arguments.keywords).flatten.count c = parts.flatten.count c := by
  unfold wrapKept at h
  split at h
  · rename_i hnil
    cases h
    rw [hnil]
    rfl
  · rw [wrapParts, parseHeaderSuffix_wrapped] at h
    rw [count_arguments h hcomma hspace, count_joinTexts hcomma (by rintro rfl; cases hspace)]

/-- The arguments without the keywords that only the checker reads. -/
def withoutRuntimeKeywords (arguments : HeaderArguments) : HeaderArguments where
  positional := arguments.positional
  keywords := arguments.keywords.filter fun keyword => !isRuntimeKeyword keyword

theorem flatten_withoutRuntimeKeywords (h : Arranges parts arguments) :
    ((withoutRuntimeKeywords arguments).positional
        ++ (withoutRuntimeKeywords arguments).keywords).flatten
      = (parts.filter fun part => !isRuntimeKeyword part).flatten := by
  rw [← flatten_filter_dropTrailingBlank, h.all, List.filter_append]
  have hpositional : arguments.positional.filter (fun part => !isRuntimeKeyword part)
      = arguments.positional := by
    rw [List.filter_eq_self]
    intro base hbase
    rw [not_isRuntimeKeyword (h.positional base hbase)]
    rfl
  rw [hpositional]
  rfl

theorem not_startsWithRuntimeKeyword_paren (text : Chars) :
    startsWithRuntimeKeyword ('(' :: text) = false := by
  unfold startsWithRuntimeKeyword
  rw [splitOnce, if_neg (by decide)]
  cases splitOnce '=' text with
  | none => rfl
  | some parts =>
    rw [Option.map_some]
    dsimp only
    have hcount : (trim ('(' :: parts.1)).count '(' = parts.1.count '(' + 1 := by
      rw [count_trim (by decide), List.count_cons_self]
    rw [decide_eq_false_iff_not]
    intro hmem
    have hnone : ∀ name ∈ typedDictRuntimeKeywords, name.count '(' = 0 := by decide
    rw [hnone _ hmem] at hcount
    omega

theorem not_isRuntimeKeyword_opens {opens : Chars} (hopens : ∀ c ∈ opens, c = '(')
    (hne : opens ≠ []) (text : Chars) : isRuntimeKeyword (trim (opens ++ text)) = false := by
  obtain ⟨c, rest, rfl⟩ := List.exists_cons_of_ne_nil hne
  rw [hopens c List.mem_cons_self, List.cons_append]
  apply Bool.eq_false_iff.2
  intro hkeyword
  have hstarts := startsWithRuntimeKeyword_of_isRuntimeKeyword hkeyword
  rw [startsWithRuntimeKeyword_trim, not_startsWithRuntimeKeyword_paren] at hstarts
  cases hstarts

namespace Cut

variable {content : Chars} {raw : List Chars}

/-- What the splitter finds: pieces of the first part, and the other parts. -/
theorem split (cut : Cut content raw) {first : Chars} (hparts : cut.parts = first :: rest) :
    ∃ pieces, splitHeaderSuffixArgs (trim cut.inside) = pieces ++ keepParts rest
      ∧ ∀ c, isWhitespace c = false → pieces.flatten.count c ≤ first.count c := by
  have hstring : cut.state.string = none := by
    have hquote := cut.tracks.quote
    cases hcase : cut.state.string with
    | none => rfl
    | some string =>
      rw [hcase] at hquote
      cases hquote
  obtain ⟨parts', hscan, htrim⟩ := splitScan_trim (by decide) cut.scan hstring cut.last_string
  rw [hparts] at htrim
  cases parts' with
  | nil => exact absurd rfl (splitScan_ne_nil hscan)
  | cons first' rest' =>
    rw [List.map_cons, List.map_cons, List.cons.injEq] at htrim
    obtain ⟨pieces, hpieces, hcount⟩ := splitHeaderSuffixArgsFrom_missing [] cut.tracks hscan
    refine ⟨pieces, ?_, ?_⟩
    · rw [splitHeaderSuffixArgs, hpieces, keepParts, htrim.2]
      rfl
    · intro c hc
      have hle := hcount c hc
      rw [List.nil_append, ← count_trim hc first', htrim.1, count_trim hc] at hle
      exact hle

/-- Without a parenthesis at the start, the splitter finds the parts. -/
theorem split_eq (cut : Cut content raw) (hopens : cut.opens = []) :
    splitHeaderSuffixArgs (trim cut.inside) = keepParts cut.parts := by
  have hscan := cut.scan
  rw [cut.state_eq hopens] at hscan
  obtain ⟨parts', hscan', htrim⟩ := splitScan_trim (by decide) hscan rfl cut.last_string
  cases parts' with
  | nil => exact absurd rfl (splitScan_ne_nil hscan')
  | cons first rest =>
    rw [splitHeaderSuffixArgs, splitHeaderSuffixArgsFrom_eq (Tracks.start 0) hscan',
      List.nil_append, keepParts, htrim]
    rfl

theorem raw_eq_of_opens (cut : Cut content raw) (hopens : cut.opens = []) :
    raw = glue cut.parts [cut.tail] := by
  refine cut.raw_eq.trans ?_
  rw [hopens]
  have hne := glue_ne_nil (splitScan_ne_nil cut.scan) [cut.tail]
  cases hglue : glue cut.parts [cut.tail] with
  | nil => exact absurd hglue hne
  | cons first rest => rfl

theorem count_opens_pos (cut : Cut content raw) (hopens : cut.opens ≠ []) :
    0 < cut.opens.count '(' := by
  obtain ⟨c, hc⟩ := List.exists_mem_of_ne_nil _ hopens
  exact List.count_pos_iff.2 (cut.opens_paren c hc ▸ hc)

/-- Less is kept than should be, when a parenthesis is cut off the first argument. -/
theorem count_opens (cut : Cut content raw) (hopens : cut.opens ≠ []) :
    ((splitHeaderSuffixArgs (trim cut.inside)).filter fun part =>
        !startsWithRuntimeKeyword part).flatten.count '('
      < ((raw.map trim).filter fun part => !isRuntimeKeyword part).flatten.count '(' := by
  obtain ⟨first, rest, hparts⟩ := List.exists_cons_of_ne_nil (splitScan_ne_nil cut.scan)
  obtain ⟨pieces, hpieces, hcount⟩ := cut.split hparts
  have hle := (count_flatten_filter_le (fun part => !startsWithRuntimeKeyword part) '('
    pieces).trans (hcount '(' (by decide))
  have hone := cut.count_opens_pos hopens
  rw [hpieces, List.filter_append, List.flatten_append, List.count_append]
  by_cases hrest : rest = []
  · have hraw : raw = [cut.opens ++ (first ++ cut.tail)] := by
      refine cut.raw_eq.trans ?_
      rw [hparts, hrest]
      rfl
    have hkept := not_isRuntimeKeyword_opens cut.opens_paren hopens (first ++ cut.tail)
    have hnil : (keepParts []).filter (fun part => !startsWithRuntimeKeyword part) = [] := rfl
    rw [hrest, hnil, congrArg (List.map trim) hraw, List.map_singleton,
      List.filter_cons_of_pos (by rw [hkept]; rfl), List.filter_nil, List.flatten_singleton,
      count_trim (by decide), List.count_append, List.count_append, List.flatten_nil,
      List.count_nil]
    omega
  · have hraw : raw = (cut.opens ++ first) :: glue rest [cut.tail] := by
      refine cut.raw_eq.trans ?_
      rw [hparts, glue_cons hrest]
      rfl
    have hkept := not_isRuntimeKeyword_opens cut.opens_paren hopens first
    have hothers := count_kept_le (c := '(') (by decide) cut.tail_paren hrest
    rw [congrArg (List.map trim) hraw, List.map_cons,
      List.filter_cons_of_pos (by rw [hkept]; rfl), List.flatten_cons, List.count_append,
      count_trim (by decide), List.count_append]
    omega

/-- Less is kept than should be, when a parenthesis is cut off a last argument that stays. -/
theorem count_tail (cut : Cut content raw) (hopens : cut.opens = []) (htail : cut.tail ≠ [])
    (hstays : endsWithRuntimeKeyword (raw.map trim) = false) :
    ((splitHeaderSuffixArgs (trim cut.inside)).filter fun part =>
        !startsWithRuntimeKeyword part).flatten.count ')'
      < ((raw.map trim).filter fun part => !isRuntimeKeyword part).flatten.count ')' := by
  have hle := count_kept_le (c := ')') (by decide) cut.tail_paren (splitScan_ne_nil cut.scan)
  rw [← cut.raw_eq_of_opens hopens, hstays, if_neg Bool.false_ne_true] at hle
  rw [cut.split_eq hopens]
  have hpos : 0 < cut.tail.count ')' := by
    obtain ⟨c, hc⟩ := List.exists_mem_of_ne_nil _ htail
    exact List.count_pos_iff.2 (cut.tail_paren c hc ▸ hc)
  omega

/-- The parentheses that are cut off are those of a keyword that is taken out, if there are any. -/
theorem kept_eq (cut : Cut content raw) (hopens : cut.opens = [])
    (hends : cut.tail ≠ [] → endsWithRuntimeKeyword (raw.map trim) = true) :
    (splitHeaderSuffixArgs (trim cut.inside)).filter (fun part => !startsWithRuntimeKeyword part)
      = (keepParts raw).filter fun part => !startsWithRuntimeKeyword part := by
  rw [cut.split_eq hopens]
  have hraw := cut.raw_eq_of_opens hopens
  have hne := splitScan_ne_nil cut.scan
  rw [← List.dropLast_append_getLast hne, glue_concat] at hraw
  by_cases htail : cut.tail = []
  · rw [htail, List.append_nil, List.dropLast_append_getLast hne] at hraw
    exact congrArg (fun parts => (keepParts parts).filter _) hraw.symm
  · have hkeyword := hends htail
    rw [hraw, List.map_append, List.map_singleton, endsWithRuntimeKeyword,
      List.getLast?_concat] at hkeyword
    have hcut := startsWithRuntimeKeyword_of_cut cut.tail_paren hkeyword
    have hwhole := startsWithRuntimeKeyword_of_isRuntimeKeyword hkeyword
    have hlast : ∀ part, startsWithRuntimeKeyword (trim part) = true →
        (keepParts (cut.parts.dropLast ++ [part])).filter
            (fun part => !startsWithRuntimeKeyword part)
          = (keepParts cut.parts.dropLast).filter fun part => !startsWithRuntimeKeyword part := by
      intro part hpart
      unfold keepParts
      rw [List.map_append, List.filter_append, List.filter_append, List.map_singleton]
      by_cases hblank : trim part = []
      · simp [hblank]
      · simp [hblank, hpart]
    refine Eq.trans ?_ (congrArg (fun parts => (keepParts parts).filter _) hraw.symm)
    rw [hlast _ hwhole]
    conv_lhs => rw [← List.dropLast_append_getLast hne]
    exact hlast _ hcut

end Cut

/-- The keywords can be taken out of the text. -/
structure KeywordsCanGo (content : Chars) (arguments : HeaderArguments) : Prop where
  head : content.head? ≠ some '('
  last : content.getLast? = some ')' →
    ∃ keyword, arguments.keywords.getLast? = some keyword ∧ isRuntimeKeyword keyword = true
  noComparison : ∀ base ∈ arguments.positional, comparesRuntimeKeyword base = false

theorem getLast?_keywords_iff (h : Arranges parts arguments) (hlast : parts.getLast? ≠ some []) :
    endsWithRuntimeKeyword parts = true
      ↔ ∃ keyword, arguments.keywords.getLast? = some keyword ∧ isRuntimeKeyword keyword = true := by
  have hall := h.all
  rw [dropTrailingBlank_of_last hlast] at hall
  rw [hall, endsWithRuntimeKeyword]
  by_cases hkeywords : arguments.keywords = []
  · rw [hkeywords, List.append_nil]
    cases hbase : arguments.positional.getLast? with
    | none => simp
    | some base =>
      have hnot := not_isRuntimeKeyword (h.positional base (List.mem_of_getLast? hbase))
      simp [hnot]
  · rw [List.getLast?_append_of_ne_nil _ hkeywords]
    cases arguments.keywords.getLast? with
    | none => simp
    | some keyword => simp

/-- Trimming keeps a last character that is not white space. -/
theorem getLast?_trim_eq (h : text.getLast? = some c) (hc : isWhitespace c = false) :
    (trim text).getLast? = some c := by
  obtain ⟨before, after, htext, hbefore, hafter⟩ := exists_trim text
  have hend : after.getLast? = none := by
    cases hlast : after.getLast? with
    | none => rfl
    | some space =>
      rw [htext, List.getLast?_append, List.getLast?_append, hlast] at h
      cases h
      rw [hafter c (List.mem_of_getLast? hlast)] at hc
      cases hc
  rw [htext, List.getLast?_append, List.getLast?_append, hend, Option.none_or] at h
  cases hlast : (trim text).getLast? with
  | none =>
    rw [hlast, Option.none_or] at h
    rw [hbefore c (List.mem_of_getLast? h)] at hc
    cases hc
  | some last =>
    rw [hlast, Option.some_or] at h
    exact h

/-- Taking keywords out of an argument list that is not blank. -/
theorem strip_content_iff {headerSuffix content : Chars} {parts : List Chars}
    {arguments : HeaderArguments} (hcontent : trim headerSuffix = '(' :: (content ++ [')']))
    (hparts : Lists ',' content parts) (harranges : Arranges parts arguments)
    (hblank : trim content ≠ []) :
    parseHeaderSuffix (stripTypedDictRuntimeKeywords headerSuffix)
        = some (withoutRuntimeKeywords arguments)
      ↔ KeywordsCanGo content arguments := by
  obtain ⟨raw, hraw, rfl⟩ := id hparts
  obtain ⟨cut⟩ := exists_cut hraw
  rw [strip_wrapped hcontent, cut.unwrap]
  have hfew : ∀ c, c ≠ ',' → isWhitespace c = false →
      ((splitHeaderSuffixArgs (trim cut.inside)).filter fun part =>
          !startsWithRuntimeKeyword part).flatten.count c
        < ((raw.map trim).filter fun part => !isRuntimeKeyword part).flatten.count c →
      parseHeaderSuffix (wrapKept ((splitHeaderSuffixArgs (trim cut.inside)).filter fun part =>
          !startsWithRuntimeKeyword part)) ≠ some (withoutRuntimeKeywords arguments) := by
    intro c hcomma hspace hlt hparse
    have hcount := count_wrapKept hparse hcomma hspace
    rw [flatten_withoutRuntimeKeywords harranges] at hcount
    omega
  -- a parenthesis at the end belongs to the last argument
  have hclosed : content.getLast? = some ')' → (raw.map trim).getLast? ≠ some [] := by
    intro hend hnil
    have hcomma := (getLast?_parts_iff hparts hblank).1 hnil
    rw [getLast?_trim_eq hend (by decide)] at hcomma
    cases hcomma
  constructor
  · intro hparse
    have hhead : content.head? ≠ some '(' := fun hhead =>
      hfew '(' (by decide) (by decide) (cut.count_opens (cut.opens_ne hhead)) hparse
    have hopens := cut.opens_eq hhead
    have hends : cut.tail ≠ [] → endsWithRuntimeKeyword (raw.map trim) = true := by
      intro htail
      by_contra hstays
      exact hfew ')' (by decide) (by decide)
        (cut.count_tail hopens htail (Bool.eq_false_iff.2 hstays)) hparse
    refine ⟨hhead, ?_, ?_⟩
    · intro hend
      exact (getLast?_keywords_iff harranges (hclosed hend)).1 (hends (cut.tail_ne hhead hend))
    · rw [cut.kept_eq hopens hends] at hparse
      unfold keepParts at hparse
      rw [filter_ne_nil_eq harranges.nonempty, parseHeaderSuffix_kept harranges
        fun part hpart => hparts.isPart (by decide) hpart] at hparse
      have hsame := congrArg HeaderArguments.positional (Option.some.inj hparse)
      have hself := List.filter_eq_self.1 hsame
      intro base hbase
      simpa using hself base hbase
  · rintro ⟨hhead, hlast, hcompares⟩
    have hopens := cut.opens_eq hhead
    have hends : cut.tail ≠ [] → endsWithRuntimeKeyword (raw.map trim) = true := by
      intro htail
      have hend : content.getLast? = some ')' := by
        by_contra hend
        exact htail (cut.tail_eq hhead hend)
      exact (getLast?_keywords_iff harranges (hclosed hend)).2 (hlast hend)
    rw [cut.kept_eq hopens hends]
    unfold keepParts
    rw [filter_ne_nil_eq harranges.nonempty, parseHeaderSuffix_kept harranges
      fun part hpart => hparts.isPart (by decide) hpart]
    have hself : arguments.positional.filter (fun base => !comparesRuntimeKeyword base)
        = arguments.positional := by
      rw [List.filter_eq_self]
      intro base hbase
      rw [hcompares base hbase]
      rfl
    rw [hself]
    rfl

theorem KeywordsCanGo.of_blank {content : Chars} (hblank : trim content = [])
    (hnone : arguments = ⟨[], []⟩) : KeywordsCanGo content arguments := by
  have hbare := Bare.of_blank hblank
  constructor
  · exact hbare.head
  · exact fun hend => absurd hend hbare.last
  · intro base hbase
    rw [hnone] at hbase
    exact absurd hbase List.not_mem_nil

theorem strip_iff (h : parseHeaderSuffix headerSuffix = some arguments) :
    parseHeaderSuffix (stripTypedDictRuntimeKeywords headerSuffix)
        = some (withoutRuntimeKeywords arguments)
      ↔ ∀ content, headerContent (trim headerSuffix) = some content →
          KeywordsCanGo content arguments := by
  rcases parseHeaderSuffix_cases h with ⟨hempty, rfl⟩ | ⟨content, parts, hcontent, hparts, harranges⟩
  · have hstrip : stripTypedDictRuntimeKeywords headerSuffix = [] := by
      rw [stripTypedDictRuntimeKeywords, if_pos hempty]
    rw [hstrip, hempty]
    refine iff_of_true rfl ?_
    intro content hcontent
    rw [headerContent_eq] at hcontent
    cases hcontent
  have honly : (∀ content', headerContent (trim headerSuffix) = some content' →
      KeywordsCanGo content' arguments) ↔ KeywordsCanGo content arguments := by
    constructor
    · exact fun hall => hall content (headerContent_eq.2 hcontent)
    · intro hgo content' hcontent'
      rw [hcontent, headerContent_eq, List.cons.injEq] at hcontent'
      rw [← List.append_cancel_right hcontent'.2]
      exact hgo
  rw [honly]
  by_cases hblank : trim content = []
  · have hnone := harranges.of_blank hparts hblank
    have hstrip : stripTypedDictRuntimeKeywords headerSuffix = [] := by
      rw [strip_wrapped hcontent, (Bare.of_blank hblank).unwrap, hblank]
      rfl
    rw [hstrip, hnone]
    exact iff_of_true rfl (.of_blank hblank rfl)
  · exact strip_content_iff hcontent hparts harranges hblank

/-! ## Both edits -/

/-- The edited suffixes say what the suffix says, with the bases added and without the keywords
that only the checker reads. -/
structure EditsKeepArguments (headerSuffix : Chars) (arguments : HeaderArguments)
    (extras : List Chars) : Prop where
  append : parseHeaderSuffix (appendBases headerSuffix extras)
    = some ⟨arguments.positional ++ extras, arguments.keywords⟩
  strip : parseHeaderSuffix (stripTypedDictRuntimeKeywords headerSuffix)
    = some (withoutRuntimeKeywords arguments)

/-- The text between the parentheses can be edited by its outermost characters. -/
structure Editable (content : Chars) (arguments : HeaderArguments) (extras : List Chars) :
    Prop where
  append : extras = [] ∨ trim content = [] ∨ BasesCanFollow content arguments
  strip : KeywordsCanGo content arguments

/-- The edits keep the arguments of a suffix exactly if no parenthesis of an argument is taken for
an outer one, the bases do not come behind keyword arguments or a last comma, and no base is a
comparison with a keyword's name. -/
theorem editsKeepArguments_iff {headerSuffix : Chars} {arguments : HeaderArguments}
    (h : parseHeaderSuffix headerSuffix = some arguments) {extras : List Chars}
    (hbases : ∀ extra ∈ extras, IsBase extra) :
    EditsKeepArguments headerSuffix arguments extras
      ↔ ∀ content, headerContent (trim headerSuffix) = some content →
          Editable content arguments extras := by
  have happend := appendBases_iff h hbases
  have hstrip := strip_iff h
  constructor
  · intro hkeep content hcontent
    refine ⟨?_, hstrip.1 hkeep.strip content hcontent⟩
    rcases happend.1 hkeep.append with hnil | hfollow
    · exact .inl hnil
    · by_cases hblank : trim content = []
      · exact .inr (.inl hblank)
      · exact .inr (.inr (hfollow content hcontent hblank))
  · intro heditable
    refine ⟨happend.2 ?_, hstrip.2 fun content hcontent => (heditable content hcontent).strip⟩
    by_cases hnil : extras = []
    · exact .inl hnil
    · refine .inr ?_
      intro content hcontent hblank
      exact (((heditable content hcontent).append.resolve_left hnil).resolve_left hblank)

/-- A protocol with two bases. -/
theorem protocol_follows_bases :
    EditsKeepArguments "(Sized, Mapping[str, int])".toList
      ⟨["Sized".toList, "Mapping[str, int]".toList], []⟩ ["Protocol".toList] := by
  have hbase : IsBase "Protocol".toList := by
    constructor
    · exact ⟨by decide +kernel, by decide +kernel⟩
    · decide
    · decide +kernel
  refine (editsKeepArguments_iff (by decide +kernel) (by simpa using hbase)).2 ?_
  intro content hcontent
  have hinside : headerContent (trim "(Sized, Mapping[str, int])".toList)
      = some "Sized, Mapping[str, int]".toList := by decide +kernel
  rw [hinside, Option.some.injEq] at hcontent
  subst hcontent
  refine ⟨.inr (.inr ⟨⟨by decide, by decide⟩, rfl, by decide +kernel⟩), ?_⟩
  exact ⟨by decide, by decide, by decide +kernel⟩

/-- The parenthesis that closes the call of the last base is taken for the outer one. -/
theorem base_call_not_closed :
    parseHeaderSuffix "(namedtuple(fields))".toList = some ⟨["namedtuple(fields)".toList], []⟩
      ∧ ¬ EditsKeepArguments "(namedtuple(fields))".toList ⟨["namedtuple(fields)".toList], []⟩
        ["Protocol".toList] := by
  constructor
  · decide +kernel
  · intro hkeep
    have happend := hkeep.append
    revert happend
    decide +kernel

end TypePython.Emit
