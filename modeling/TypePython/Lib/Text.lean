import Mathlib.Data.List.Basic

/-!
# Text

The string operations the program relies on, over lists of characters: trimming,
splitting at a character, and splitting at a delimiter outside of brackets.

* `splitOnce`, `rsplitOnce` split at the first and at the last occurrence;
* `splitTopLevel` splits at a delimiter at bracket depth zero, for whichever
  characters count as brackets;
* `join` puts the parts back together.
-/

namespace TypePython.Lib.Text

/-- A string as the list of its characters. -/
abbrev Chars := List Char

instance lawfulBEqChars : LawfulBEq Chars := inferInstance

/-- The Unicode property `White_Space`. -/
def isWhitespace (c : Char) : Bool :=
  let n := c.toNat
  (0x09 ≤ n && n ≤ 0x0D) || n == 0x20 || n == 0x85 || n == 0xA0 || n == 0x1680
    || (0x2000 ≤ n && n ≤ 0x200A) || n == 0x2028 || n == 0x2029 || n == 0x202F
    || n == 0x205F || n == 0x3000

def trimStart (s : Chars) : Chars := s.dropWhile isWhitespace

def trimEnd (s : Chars) : Chars := (s.reverse.dropWhile isWhitespace).reverse

def trim (s : Chars) : Chars := trimEnd (trimStart s)

/-- The rest of `s` after `p`, when `s` starts with `p`. -/
def stripPrefix (p s : Chars) : Option Chars := p.isPrefixOf? s

/-- The rest of `s` before `p`, when `s` ends with `p`. -/
def stripSuffix (p s : Chars) : Option Chars := p.isSuffixOf? s

/-- Split at the first occurrence of `c`. -/
def splitOnce (c : Char) : Chars → Option (Chars × Chars)
  | [] => none
  | x :: xs =>
    if x = c then some ([], xs)
    else (splitOnce c xs).map fun (l, r) => (x :: l, r)

/-- Split at the last occurrence of `c`. -/
def rsplitOnce (c : Char) : Chars → Option (Chars × Chars)
  | [] => none
  | x :: xs =>
    match rsplitOnce c xs with
    | some (l, r) => some (x :: l, r)
    | none => if x = c then some ([], xs) else none

/-- Whether `p` occurs in `s`. -/
def occursIn (p s : Chars) : Bool := s.tails.any p.isPrefixOf

/-- What stands after the last `c`, the whole text when there is none. -/
def lastSegment (c : Char) (s : String) : String :=
  match rsplitOnce c s.toList with
  | some (_, segment) => String.ofList segment
  | none => s

/-- `join sep parts` is the parts with `sep` between them. -/
def join (sep : String) : List String → String
  | [] => ""
  | [s] => s
  | s :: t :: rest => s ++ sep ++ join sep (t :: rest)

/-! ## Splitting outside of brackets -/

/-- Which characters open and close a bracket, for a splitter. -/
structure Brackets where
  opens : Char → Bool
  closes : Char → Bool

/-- The depth after `c`. A closing bracket at depth zero leaves it at zero. -/
def Brackets.next (b : Brackets) (depth : Nat) (c : Char) : Nat :=
  if b.opens c then depth + 1 else if b.closes c then depth - 1 else depth

/-- Put `c` in front of the first part. -/
def consFirst (c : Char) : List Chars → List Chars
  | [] => [[c]]
  | p :: ps => (c :: p) :: ps

/-- Split at every `delim` that stands at bracket depth zero. -/
def splitTopLevel (b : Brackets) (delim : Char) : Nat → Chars → List Chars
  | _, [] => [[]]
  | depth, c :: cs =>
    if c = delim ∧ depth = 0 then [] :: splitTopLevel b delim 0 cs
    else consFirst c (splitTopLevel b delim (b.next depth c) cs)

/-! ## Lemmas -/

theorem stripPrefix_append (p s : Chars) : stripPrefix p (p ++ s) = some s := by
  rw [stripPrefix, List.isPrefixOf?_eq_some_iff_append_eq]

theorem eq_of_stripPrefix {p s rest : Chars} (h : stripPrefix p s = some rest) : s = p ++ rest := by
  rw [stripPrefix, List.isPrefixOf?_eq_some_iff_append_eq] at h
  exact h.symm

theorem eq_of_stripSuffix {p s rest : Chars} (h : stripSuffix p s = some rest) : s = rest ++ p := by
  rw [stripSuffix, List.isSuffixOf?_eq_some_iff_append_eq] at h
  exact h.symm

theorem stripPrefix_length {p s rest : Chars} (h : stripPrefix p s = some rest) :
    s.length = p.length + rest.length := by
  rw [eq_of_stripPrefix h, List.length_append]

theorem rsplitOnce_eq {c : Char} {s l r : Chars} (h : rsplitOnce c s = some (l, r)) :
    s = l ++ c :: r := by
  induction s generalizing l r with
  | nil => simp [rsplitOnce] at h
  | cons x xs ih =>
    cases hxs : rsplitOnce c xs with
    | some lr =>
      obtain ⟨l', r'⟩ := lr
      have hlr : x :: l' = l ∧ r' = r := by simpa [rsplitOnce, hxs] using h
      rw [← hlr.1, ← hlr.2, ih hxs, List.cons_append]
    | none =>
      by_cases hx : x = c
      · have hlr : [] = l ∧ xs = r := by simpa [rsplitOnce, hxs, hx] using h
        rw [← hlr.1, ← hlr.2, hx, List.nil_append]
      · simp [rsplitOnce, hxs, hx] at h

theorem rsplitOnce_length {c : Char} {s l r : Chars} (h : rsplitOnce c s = some (l, r)) :
    l.length < s.length := by
  rw [rsplitOnce_eq h, List.length_append, List.length_cons]
  omega

theorem splitOnce_of_notMem {c : Char} {text : Chars} (h : c ∉ text) : splitOnce c text = none := by
  induction text with
  | nil => rfl
  | cons d rest ih =>
    rw [List.mem_cons, not_or] at h
    rw [splitOnce, if_neg (Ne.symm h.1), ih h.2]
    rfl

theorem splitOnce_concat {c : Char} {raw : Chars} (h : c ∉ raw) (rest : Chars) :
    splitOnce c (raw ++ c :: rest) = some (raw, rest) := by
  induction raw with
  | nil => rw [List.nil_append, splitOnce, if_pos rfl]
  | cons d raw ih =>
    rw [List.mem_cons, not_or] at h
    rw [List.cons_append, splitOnce, if_neg (Ne.symm h.1), ih h.2]
    rfl

theorem rsplitOnce_append {c : Char} {after : Chars} (h : c ∉ after) (before : Chars) :
    rsplitOnce c (before ++ c :: after) = some (before, after) := by
  have hnone : ∀ text : Chars, c ∉ text → rsplitOnce c text = none := by
    intro text
    induction text with
    | nil => exact fun _ => rfl
    | cons d rest ih =>
      intro hnot
      rw [List.mem_cons, not_or] at hnot
      rw [rsplitOnce, ih hnot.2]
      exact if_neg fun hsame => hnot.1 hsame.symm
  induction before with
  | nil =>
    rw [List.nil_append, rsplitOnce, hnone after h]
    exact if_pos rfl
  | cons d rest ih =>
    rw [List.cons_append, rsplitOnce, ih]

end TypePython.Lib.Text
