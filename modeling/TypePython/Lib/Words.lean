import Mathlib.Data.List.TakeWhile
import TypePython.Lib.Text

/-!
# The words of a text

The maximal runs of the characters that make up words, in the order in which they stand. What
stands between two words does not matter, so that texts that are cut at such characters, trimmed
and put together again have the same words.
-/

namespace TypePython.Lib.Text

section Words

variable (isWord : Char → Bool)

/-- A word that ends here, kept in reverse. -/
def endWord (current : Chars) : List Chars := if current = [] then [] else [current.reverse]

def wordsFrom : Chars → Chars → List Chars
  | current, [] => endWord current
  | current, c :: rest =>
    if isWord c then wordsFrom (c :: current) rest else endWord current ++ wordsFrom [] rest

def words (text : Chars) : List Chars := wordsFrom isWord [] text

variable {isWord}

theorem wordsFrom_cons_of_not {c : Char} (hc : isWord c = false) (current rest : Chars) :
    wordsFrom isWord current (c :: rest) = endWord current ++ words isWord rest := by
  rw [wordsFrom, if_neg (by rw [hc]; exact Bool.false_ne_true)]
  rfl

theorem words_cons_of_not {c : Char} (hc : isWord c = false) (rest : Chars) :
    words isWord (c :: rest) = words isWord rest :=
  wordsFrom_cons_of_not hc [] rest

/-- A character between words cuts the text. -/
theorem wordsFrom_append {c : Char} (hc : isWord c = false) (before after : Chars) :
    ∀ current, wordsFrom isWord current (before ++ c :: after)
      = wordsFrom isWord current before ++ words isWord after := by
  induction before with
  | nil =>
    intro current
    exact wordsFrom_cons_of_not hc current after
  | cons x rest ih =>
    intro current
    rw [List.cons_append, wordsFrom, wordsFrom]
    split
    · exact ih (x :: current)
    · rw [ih [], List.append_assoc]

theorem words_append {c : Char} (hc : isWord c = false) (before after : Chars) :
    words isWord (before ++ c :: after) = words isWord before ++ words isWord after :=
  wordsFrom_append hc before after []

/-- What is left out before the first word does not count. -/
theorem words_append_left {gap : Chars} (hgap : ∀ c ∈ gap, isWord c = false) (text : Chars) :
    words isWord (gap ++ text) = words isWord text := by
  induction gap with
  | nil => rfl
  | cons c rest ih =>
    rw [List.forall_mem_cons] at hgap
    rw [List.cons_append, words_cons_of_not hgap.1, ih hgap.2]

theorem words_append_right {gap : Chars} (hgap : ∀ c ∈ gap, isWord c = false) (text : Chars) :
    words isWord (text ++ gap) = words isWord text := by
  cases gap with
  | nil => rw [List.append_nil]
  | cons c rest =>
    rw [List.forall_mem_cons] at hgap
    have hrest : words isWord rest = [] := by
      have hnone := words_append_left hgap.2 []
      rw [List.append_nil] at hnone
      exact hnone
    rw [words_append hgap.1, hrest, List.append_nil]

/-- A gap between two texts keeps their words apart. -/
theorem words_append_gap {gap : Chars} (hgap : ∀ c ∈ gap, isWord c = false) (hne : gap ≠ [])
    (before after : Chars) :
    words isWord (before ++ gap ++ after) = words isWord before ++ words isWord after := by
  cases gap with
  | nil => exact absurd rfl hne
  | cons c rest =>
    rw [List.forall_mem_cons] at hgap
    rw [List.append_assoc, List.cons_append, words_append hgap.1, words_append_left hgap.2]

theorem words_trimStart (hspace : ∀ c, isWhitespace c = true → isWord c = false) (text : Chars) :
    words isWord (trimStart text) = words isWord text := by
  conv_rhs => rw [← List.takeWhile_append_dropWhile (p := isWhitespace) (l := text)]
  rw [words_append_left]
  · rfl
  · intro c hc
    exact hspace c (List.mem_takeWhile_imp hc)

theorem words_trimEnd (hspace : ∀ c, isWhitespace c = true → isWord c = false) (text : Chars) :
    words isWord (trimEnd text) = words isWord text := by
  have hsplit : text = trimEnd text ++ (text.reverse.takeWhile isWhitespace).reverse := by
    have hrev := List.takeWhile_append_dropWhile (p := isWhitespace) (l := text.reverse)
    rw [trimEnd, ← List.reverse_append, hrev, List.reverse_reverse]
  conv_rhs => rw [hsplit]
  rw [words_append_right]
  intro c hc
  exact hspace c (List.mem_takeWhile_imp (List.mem_reverse.1 hc))

theorem words_trim (hspace : ∀ c, isWhitespace c = true → isWord c = false) (text : Chars) :
    words isWord (trim text) = words isWord text := by
  rw [trim, words_trimEnd hspace, words_trimStart hspace]

end Words

end TypePython.Lib.Text
