import TypePython.Syntax.TypeExpr
import Mathlib.Data.List.Induction

/-!
# Tokens of a type text

The tokens of an annotation as the language reads them, quotes included. The parser knows
nothing of quotes: it cuts a text at commas, bars and brackets wherever they stand, and
rewrites stars.

* `clean`: no string literal holds a character the parser cuts or rewrites at;
* `cleanFrom_cut`, `tokensFrom_glue`: cutting a clean text at such a character, and glueing;
* `SameTokens`: equality of tokens up to heads with a builtin spelling, `typing.` prefixes
  and trailing commas, which fixes the tree of heads and arguments.
-/

namespace TypePython.Syntax

open TypePython.Lib.Text

inductive Quote where
  | single
  | double
deriving DecidableEq

def Quote.char : Quote → Char
  | single => '\''
  | double => '"'

/-- The quote a character is. -/
def quoteOf (c : Char) : Option Quote :=
  if c = '\'' then some .single else if c = '"' then some .double else none

inductive Token where
  | word (text : Chars)
  | string (quote : Quote) (content : Chars)
  | unclosed (content : Chars)
  | punct (c : Char)
deriving DecidableEq

def isPunct (c : Char) : Bool :=
  c == ',' || c == '|' || c == '[' || c == ']' || c == '*' || c == '(' || c == ')'

/-- Where the reader stands: outside of strings with the word read so far, or in a string.
Both are kept in reverse. -/
inductive Mode where
  | outside (word : Chars)
  | inside (quote : Quote) (content : Chars)
  | escaped (quote : Quote) (content : Chars)

def flush (word : Chars) : List Token := if word = [] then [] else [.word word.reverse]

namespace Mode

def isOutside : Mode → Bool
  | outside _ => true
  | _ => false

/-- The tokens a character completes. -/
def emit : Mode → Char → List Token
  | outside word, c =>
    if (quoteOf c).isSome || isWhitespace c then flush word
    else if isPunct c then flush word ++ [.punct c]
    else []
  | inside quote content, c => if c = quote.char then [.string quote content.reverse] else []
  | escaped _ _, _ => []

def next : Mode → Char → Mode
  | outside word, c =>
    match quoteOf c with
    | some quote => inside quote []
    | none => if isWhitespace c || isPunct c then outside [] else outside (c :: word)
  | inside quote content, c =>
    if c = quote.char then outside []
    else if c = '\\' then escaped quote (c :: content)
    else inside quote (c :: content)
  | escaped quote content, c => inside quote (c :: content)

/-- The tokens the end of the text completes. -/
def finish : Mode → List Token
  | outside word => flush word
  | inside _ content => [.unclosed content.reverse]
  | escaped _ content => [.unclosed content.reverse]

end Mode

def tokensFrom (m : Mode) : Chars → List Token
  | [] => m.finish
  | c :: rest => m.emit c ++ tokensFrom (m.next c) rest

def tokens (text : Chars) : List Token := tokensFrom (.outside []) text

/-- The characters the parser cuts a text at, and the star it rewrites. -/
def isCut (c : Char) : Bool := c == ',' || c == '|' || c == '[' || c == '*'

def cleanFrom (m : Mode) : Chars → Bool
  | [] => m.isOutside
  | c :: rest => (m.isOutside || !isCut c) && cleanFrom (m.next c) rest

/-- Every string literal is closed and holds none of the characters of `isCut`. -/
def clean (text : Chars) : Bool := cleanFrom (.outside []) text

/-! ## Cutting and glueing -/

variable {c : Char}

theorem isPunct_not_quote (h : isPunct c = true) : quoteOf c = none ∧ isWhitespace c = false := by
  simp only [isPunct, Bool.or_eq_true, beq_iff_eq] at h
  rcases h with (((((rfl | rfl) | rfl) | rfl) | rfl) | rfl) | rfl <;> decide

theorem isCut_isPunct (h : isCut c = true) : isPunct c = true := by
  simp only [isCut, Bool.or_eq_true, beq_iff_eq] at h
  rcases h with ((rfl | rfl) | rfl) | rfl <;> decide

/-- Which characters are clean does not depend on the word read so far. -/
theorem cleanFrom_outside (word word' : Chars) (text : Chars) :
    cleanFrom (.outside word) text = cleanFrom (.outside word') text := by
  induction text generalizing word word' with
  | nil => rfl
  | cons c rest ih =>
    simp only [cleanFrom, Mode.isOutside, Mode.next]
    cases quoteOf c with
    | some quote => rfl
    | none =>
      dsimp only
      split
      · rfl
      · rw [ih (c :: word) (c :: word')]

variable {a : Chars}

/-- Glueing two clean texts at a punctuation character glues their tokens. -/
theorem tokensFrom_glue (hc : isPunct c = true) {b : Chars} {m : Mode} (ha : cleanFrom m a = true)
    (hb : clean b = true) : cleanFrom m (a ++ c :: b) = true
      ∧ tokensFrom m (a ++ c :: b) = tokensFrom m a ++ .punct c :: tokens b := by
  obtain ⟨hquote, hspace⟩ := isPunct_not_quote hc
  induction a generalizing m with
  | nil =>
    cases m with
    | outside word =>
      simp only [List.nil_append, cleanFrom, tokensFrom, Mode.isOutside, Mode.next, Mode.emit,
        Mode.finish, hquote, hspace, hc]
      exact ⟨by simpa [clean] using hb, by simp [tokens]⟩
    | inside => simp [cleanFrom, Mode.isOutside] at ha
    | escaped => simp [cleanFrom, Mode.isOutside] at ha
  | cons x rest ih =>
    simp only [cleanFrom, Bool.and_eq_true] at ha
    obtain ⟨hclean, htokens⟩ := ih ha.2
    simp only [List.cons_append, cleanFrom, tokensFrom, Bool.and_eq_true]
    exact ⟨⟨ha.1, hclean⟩, by rw [htokens, List.append_assoc]⟩

/-- Cutting a clean text at a character the parser cuts at leaves clean texts. -/
theorem cleanFrom_cut (hc : isCut c = true) {b : Chars} {m : Mode}
    (h : cleanFrom m (a ++ c :: b) = true) : cleanFrom m a = true ∧ clean b = true := by
  have hpunct := isCut_isPunct hc
  obtain ⟨hquote, hspace⟩ := isPunct_not_quote hpunct
  induction a generalizing m with
  | nil =>
    simp only [List.nil_append, cleanFrom, Bool.and_eq_true] at h
    cases m with
    | outside word =>
      simp only [Mode.next, hquote, hspace, hpunct] at h
      exact ⟨rfl, by simpa [clean] using h.2⟩
    | inside => simp [Mode.isOutside, hc] at h
    | escaped => simp [Mode.isOutside, hc] at h
  | cons x rest ih =>
    simp only [List.cons_append, cleanFrom, Bool.and_eq_true] at h ⊢
    obtain ⟨hrest, hb⟩ := ih h.2
    exact ⟨⟨h.1, hrest⟩, hb⟩

@[simp] theorem quoteOf_char (quote : Quote) : quoteOf quote.char = some quote := by
  cases quote <;> decide

/-- A last character that is no quote stands outside of strings. -/
theorem cleanFrom_of_append_last (hquote : quoteOf c = none) {m : Mode}
    (h : cleanFrom m (a ++ [c]) = true) : cleanFrom m a = true := by
  induction a generalizing m with
  | nil =>
    simp only [List.nil_append, cleanFrom, Bool.and_eq_true] at h
    cases m with
    | outside word => rfl
    | inside quote content =>
      have hne : c ≠ quote.char := by
        rintro rfl
        simp at hquote
      have hlast := h.2
      simp only [Mode.next, if_neg hne] at hlast
      split at hlast <;> simp [Mode.isOutside] at hlast
    | escaped quote content => simp [Mode.next, Mode.isOutside] at h
  | cons x rest ih =>
    simp only [List.cons_append, cleanFrom, Bool.and_eq_true] at h ⊢
    exact ⟨h.1, ih h.2⟩

theorem quoteOf_of_isWhitespace (h : isWhitespace c = true) : quoteOf c = none := by
  unfold quoteOf
  split
  · next heq =>
      subst heq
      exact absurd h (by decide)
  · split
    · next heq =>
        subst heq
        exact absurd h (by decide)
    · rfl

/-- Whitespace behind a clean text adds no token. -/
theorem tokensFrom_append_space (hspace : isWhitespace c = true) {m : Mode}
    (h : cleanFrom m a = true) :
    tokensFrom m (a ++ [c]) = tokensFrom m a ∧ cleanFrom m (a ++ [c]) = true := by
  have hquote := quoteOf_of_isWhitespace hspace
  induction a generalizing m with
  | nil =>
    cases m with
    | outside word =>
      simp [tokensFrom, cleanFrom, Mode.emit, Mode.next, Mode.finish, Mode.isOutside, hquote,
        hspace, flush]
    | inside => simp [cleanFrom, Mode.isOutside] at h
    | escaped => simp [cleanFrom, Mode.isOutside] at h
  | cons x rest ih =>
    simp only [cleanFrom, Bool.and_eq_true] at h
    obtain ⟨htokens, hclean⟩ := ih h.2
    simp only [List.cons_append, tokensFrom, cleanFrom, Bool.and_eq_true, htokens]
    exact ⟨trivial, h.1, hclean⟩

/-- Whitespace before a text adds no token. -/
theorem tokens_space (hspace : isWhitespace c = true) (text : Chars) :
    tokens (c :: text) = tokens text ∧ clean (c :: text) = clean text := by
  have hquote := quoteOf_of_isWhitespace hspace
  simp [tokens, clean, tokensFrom, cleanFrom, Mode.emit, Mode.next, Mode.isOutside, hquote, hspace,
    flush]

theorem tokens_trimStart (text : Chars) :
    tokens (trimStart text) = tokens text ∧ clean (trimStart text) = clean text := by
  unfold trimStart
  induction text with
  | nil => exact ⟨rfl, rfl⟩
  | cons c rest ih =>
    rw [List.dropWhile_cons]
    split
    · next hspace =>
        obtain ⟨htokens, hclean⟩ := tokens_space hspace rest
        rw [htokens, hclean]
        exact ih
    · exact ⟨rfl, rfl⟩

theorem trimEnd_append_singleton (text : Chars) (c : Char) :
    trimEnd (text ++ [c]) = if isWhitespace c then trimEnd text else text ++ [c] := by
  unfold trimEnd
  rw [List.reverse_append, List.reverse_singleton, List.singleton_append, List.dropWhile_cons]
  split
  · rfl
  · simp

theorem tokens_trimEnd {text : Chars} (h : clean text = true) :
    tokens (trimEnd text) = tokens text ∧ clean (trimEnd text) = true := by
  induction text using List.reverseRecOn with
  | nil => exact ⟨rfl, rfl⟩
  | append_singleton text c ih =>
    rw [trimEnd_append_singleton]
    split
    · next hspace =>
        have hprev := cleanFrom_of_append_last (quoteOf_of_isWhitespace hspace) h
        have htokens := (tokensFrom_append_space hspace hprev).1
        obtain ⟨ihTokens, ihClean⟩ := ih hprev
        exact ⟨ihTokens.trans htokens.symm, ihClean⟩
    · exact ⟨rfl, h⟩

/-- Trimming a clean text keeps its tokens. -/
theorem tokens_trim {text : Chars} (h : clean text = true) :
    tokens (trim text) = tokens text ∧ clean (trim text) = true := by
  obtain ⟨hstart, hclean⟩ := tokens_trimStart text
  obtain ⟨hend, hcleanEnd⟩ := tokens_trimEnd (hclean.trans h)
  exact ⟨hend.trans hstart, hcleanEnd⟩

/-! ## Significant tokens -/

/-- A word without its `typing.` prefixes. -/
def stripTyping : Nat → Chars → Chars
  | 0, word => word
  | fuel + 1, word =>
    match stripPrefix "typing.".toList word with
    | some rest => stripTyping fuel rest
    | none =>
      match stripPrefix "typing_extensions.".toList word with
      | some rest => stripTyping fuel rest
      | none => word

/-- A word as the documentation normalises it: no `typing.` prefix, builtin spelling. -/
def plainWord (word : Chars) : Chars := normalizeTypeHead (stripTyping (word.length + 1) word)

/-- Put a token in front, unless it says nothing: a comma before a closing bracket, or a word
that is nothing but a prefix. -/
def keep (token : Token) (rest : List Token) : List Token :=
  match token with
  | .word word => if plainWord word = [] then rest else .word (plainWord word) :: rest
  | .punct c => if c = ',' ∧ rest.head? = some (.punct ']') then rest else .punct c :: rest
  | .string quote content => .string quote content :: rest
  | .unclosed content => .unclosed content :: rest

/-- The tokens that fix the type a text denotes: its tree of heads and arguments, and the
contents of its string literals. -/
def significant (ts : List Token) : List Token := ts.foldr keep []

/-- The two token sequences are significantly the same, whatever follows. -/
def SameTokens (ts ts' : List Token) : Prop :=
  ∀ rest, (ts ++ rest).foldr keep [] = (ts' ++ rest).foldr keep []

theorem SameTokens.refl (ts : List Token) : SameTokens ts ts := fun _ => rfl

variable {ts ts' : List Token}

theorem SameTokens.symm (h : SameTokens ts ts') : SameTokens ts' ts :=
  fun rest => (h rest).symm

theorem SameTokens.trans {ts'' : List Token} (h : SameTokens ts ts') (h' : SameTokens ts' ts'') :
    SameTokens ts ts'' := fun rest => (h rest).trans (h' rest)

theorem SameTokens.append {us us' : List Token} (h : SameTokens ts ts') (h' : SameTokens us us') :
    SameTokens (ts ++ us) (ts' ++ us') := by
  intro rest
  rw [List.append_assoc, List.append_assoc, h (us ++ rest), List.foldr_append, h' rest,
    ← List.foldr_append]

theorem SameTokens.cons (token : Token) (h : SameTokens ts ts') :
    SameTokens (token :: ts) (token :: ts') :=
  SameTokens.append (.refl [token]) h

theorem SameTokens.significant_eq (h : SameTokens ts ts') : significant ts = significant ts' := by
  simpa [significant] using h []

theorem sameTokens_word {word word' : Chars} (h : plainWord word = plainWord word') :
    SameTokens [.word word] [.word word'] := by
  intro rest
  simp [keep, h]

theorem sameTokens_vanish {word : Chars} (h : plainWord word = []) : SameTokens [.word word] [] := by
  intro rest
  simp [keep, h]

/-- A comma before a closing bracket says nothing. -/
theorem sameTokens_trailing : SameTokens [.punct ',', .punct ']'] [.punct ']'] := by
  intro rest
  simp [keep]

/-! ## Names -/

theorem stripTyping_fuel {word : Chars} : ∀ {fuel fuel' : Nat}, word.length < fuel →
    word.length < fuel' → stripTyping fuel word = stripTyping fuel' word := by
  intro fuel
  induction fuel generalizing word with
  | zero => intro _ h; exact absurd h (Nat.not_lt_zero _)
  | succ fuel ih =>
    intro fuel' hfuel hfuel'
    cases fuel' with
    | zero => exact absurd hfuel' (Nat.not_lt_zero _)
    | succ fuel' =>
      have hshort : ∀ {p rest : Chars}, p ≠ [] → stripPrefix p word = some rest →
          rest.length < fuel ∧ rest.length < fuel' := by
        intro p rest hp hstrip
        have hlength := stripPrefix_length hstrip
        have hpos := List.length_pos_of_ne_nil hp
        omega
      rw [stripTyping, stripTyping]
      cases h₁ : stripPrefix "typing.".toList word with
      | some rest =>
        obtain ⟨hlt, hlt'⟩ := hshort (by decide) h₁
        exact ih hlt hlt'
      | none =>
        cases h₂ : stripPrefix "typing_extensions.".toList word with
        | some rest =>
          obtain ⟨hlt, hlt'⟩ := hshort (by decide) h₂
          exact ih hlt hlt'
        | none => rfl

/-- A prefix that `normalizeName` drops says nothing. -/
theorem plainWord_typing (word : Chars) :
    plainWord ("typing.".toList ++ word) = plainWord word := by
  rw [plainWord, stripTyping, stripPrefix_append]
  refine congrArg normalizeTypeHead (stripTyping_fuel ?_ (by simp))
  simp
  omega

theorem plainWord_typingExtensions (word : Chars) :
    plainWord ("typing_extensions.".toList ++ word) = plainWord word := by
  have hnone : stripPrefix "typing.".toList ("typing_extensions.".toList ++ word) = none := by
    simp [stripPrefix, List.isPrefixOf?]
  rw [plainWord, stripTyping, hnone, stripPrefix_append]
  refine congrArg normalizeTypeHead (stripTyping_fuel ?_ (by simp))
  simp
  omega

/-- Characters that neither end nor cut a word. -/
def isWordChar (c : Char) : Bool := (quoteOf c).isNone && !isWhitespace c && !isPunct c

theorem tokensFrom_word {p : Chars} (hp : p.all isWordChar = true) (word rest : Chars) :
    tokensFrom (.outside word) (p ++ rest) = tokensFrom (.outside (p.reverse ++ word)) rest
      ∧ cleanFrom (.outside word) (p ++ rest) = cleanFrom (.outside (p.reverse ++ word)) rest := by
  induction p generalizing word with
  | nil => exact ⟨rfl, rfl⟩
  | cons c p ih =>
    simp only [List.all_cons, Bool.and_eq_true, isWordChar, Option.isNone_iff_eq_none,
      Bool.not_eq_true'] at hp
    obtain ⟨⟨⟨hquote, hspace⟩, hpunct⟩, hp⟩ := hp
    obtain ⟨htokens, hclean⟩ := ih (by simpa [isWordChar] using hp) (c :: word)
    simp [tokensFrom, cleanFrom, Mode.emit, Mode.next, Mode.isOutside, hquote, hspace, hpunct,
      htokens, hclean]

section

variable {p : Chars} (hplain : ∀ word, plainWord (p ++ word) = plainWord word)

include hplain

theorem sameTokens_flush (word : Chars) : SameTokens (flush (word ++ p.reverse)) (flush word) := by
  unfold flush
  by_cases hword : word = []
  · subst hword
    rw [List.nil_append, if_pos rfl]
    split
    · exact .refl []
    · refine sameTokens_vanish ?_
      rw [List.reverse_reverse]
      have := hplain []
      rw [List.append_nil] at this
      rw [this]
      decide
  · rw [if_neg hword, if_neg (by simp [hword]), List.reverse_append, List.reverse_reverse]
    exact sameTokens_word (hplain word.reverse)

theorem sameTokens_commonFront (word rest : Chars) :
    SameTokens (tokensFrom (.outside (word ++ p.reverse)) rest)
      (tokensFrom (.outside word) rest) := by
  induction rest generalizing word with
  | nil => exact sameTokens_flush hplain word
  | cons c rest ih =>
    simp only [tokensFrom, Mode.emit, Mode.next]
    cases hquote : quoteOf c with
    | some quote => simpa using (sameTokens_flush hplain word).append (.refl _)
    | none =>
      by_cases hspace : isWhitespace c = true
      · simpa [hspace] using (sameTokens_flush hplain word).append (.refl _)
      · by_cases hpunct : isPunct c = true
        · simpa [hspace, hpunct] using (sameTokens_flush hplain word).append (.refl _)
        · simpa [hspace, hpunct] using ih (c :: word)

/-- Dropping the prefix from a clean text keeps what is significant. -/
theorem sameTokens_dropPrefix (hp : p.all isWordChar = true) (rest : Chars) :
    SameTokens (tokens rest) (tokens (p ++ rest)) ∧ clean (p ++ rest) = clean rest := by
  obtain ⟨htokens, hclean⟩ := tokensFrom_word hp [] rest
  constructor
  · rw [tokens, tokens, htokens, List.append_nil]
    exact (sameTokens_commonFront hplain [] rest).symm
  · rw [clean, clean, hclean]
    exact cleanFrom_outside _ _ rest

end

/-- A normalised name has the tokens of the text it was read from. -/
theorem sameTokens_normalizeName {text : Chars} (h : clean text = true) :
    SameTokens (tokens (normalizeName text)) (tokens text)
      ∧ clean (normalizeName text) = true := by
  obtain ⟨htrim, hclean⟩ := tokens_trim h
  have hdrop : ∀ {p rest : Chars}, (∀ word, plainWord (p ++ word) = plainWord word) →
      p.all isWordChar = true → stripPrefix p (trim text) = some rest →
        SameTokens (tokens (trim rest)) (tokens text) ∧ clean (trim rest) = true := by
    intro p rest hplain hp hstrip
    have heq := eq_of_stripPrefix hstrip
    obtain ⟨hsame, hrest⟩ := sameTokens_dropPrefix hplain hp rest
    rw [← heq] at hsame hrest
    obtain ⟨htrimRest, hcleanRest⟩ := tokens_trim (hrest ▸ hclean)
    rw [htrimRest, ← htrim]
    exact ⟨hsame, hcleanRest⟩
  simp only [normalizeName]
  cases h₁ : stripPrefix "typing.".toList (trim text) with
  | some rest => exact hdrop plainWord_typing (by decide) h₁
  | none =>
    cases h₂ : stripPrefix "typing_extensions.".toList (trim text) with
    | some rest => exact hdrop plainWord_typingExtensions (by decide) h₂
    | none =>
      obtain ⟨htrim', hclean'⟩ := tokens_trim hclean
      simp only [Option.getD_none]
      rw [htrim', htrim]
      exact ⟨.refl _, hclean'⟩

/-- So has a normalised head. -/
theorem sameTokens_normalizeTypeHead {head : Chars} (h : clean head = true) :
    SameTokens (tokens (normalizeTypeHead head)) (tokens head)
      ∧ clean (normalizeTypeHead head) = true := by
  obtain ⟨htrim, hclean⟩ := tokens_trim h
  have hbuiltin : ∀ {text builtin : Chars}, trim head = text →
      tokens text = [.word text] → tokens builtin = [.word builtin] →
        plainWord builtin = plainWord text → clean builtin = true →
          SameTokens (tokens builtin) (tokens head) ∧ clean builtin = true := by
    intro text builtin htext htokens htokens' hplain hbuiltin
    rw [← htrim, htext, htokens, htokens']
    exact ⟨sameTokens_word hplain, hbuiltin⟩
  have hlist : ∀ {s : String}, String.ofList (trim head) = s → trim head = s.toList := by
    rintro s rfl
    simp
  unfold normalizeTypeHead
  dsimp only
  split
  · next heq => exact hbuiltin (hlist heq) (by decide) (by decide) (by decide) (by decide)
  · next heq => exact hbuiltin (hlist heq) (by decide) (by decide) (by decide) (by decide)
  · next heq => exact hbuiltin (hlist heq) (by decide) (by decide) (by decide) (by decide)
  · next heq => exact hbuiltin (hlist heq) (by decide) (by decide) (by decide) (by decide)
  · next heq => exact hbuiltin (hlist heq) (by decide) (by decide) (by decide) (by decide)
  · next heq => exact hbuiltin (hlist heq) (by decide) (by decide) (by decide) (by decide)
  · rw [htrim]
    exact ⟨.refl _, hclean⟩

end TypePython.Syntax
