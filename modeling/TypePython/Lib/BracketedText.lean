import Mathlib.Data.List.TakeWhile
import TypePython.Lib.Text

/-!
# Texts that a splitter does not cut

A splitter leaves a text whole when every delimiter in it stands inside of brackets that the text
itself opens and closes (`Uncut`). Such texts come back when they are joined with delimiters and
split again (`split_join`).
-/

namespace TypePython.Lib.Text

/-! ## Whole parts -/

section Uncut

variable {b : Brackets} {delim : Char} {least : Nat}

/-- Put a text in front of the first part. -/
def consText (text : Chars) (parts : List Chars) : List Chars := text.foldr consFirst parts

/-- From the given depth on, the text is left whole and leaves the depth as it was. -/
def Uncut (b : Brackets) (delim : Char) (least : Nat) (text : Chars) : Prop :=
  ∀ depth ≥ least, ∀ rest,
    splitTopLevel b delim depth (text ++ rest) = consText text (splitTopLevel b delim depth rest)

theorem consText_append (text text' : Chars) (parts : List Chars) :
    consText (text ++ text') parts = consText text (consText text' parts) :=
  List.foldr_append

theorem consText_cons (text part : Chars) (parts : List Chars) :
    consText text (part :: parts) = (text ++ part) :: parts := by
  induction text with
  | nil => rfl
  | cons c rest ih =>
    show consFirst c (consText rest (part :: parts)) = _
    rw [ih]
    rfl

theorem Uncut.mono {text : Chars} {least' : Nat} (h : Uncut b delim least text)
    (hle : least ≤ least') : Uncut b delim least' text :=
  fun depth hdepth => h depth (Nat.le_trans hle hdepth)

theorem uncut_nil : Uncut b delim least [] := fun _ _ _ => rfl

theorem Uncut.append {text text' : Chars} (h : Uncut b delim least text)
    (h' : Uncut b delim least text') : Uncut b delim least (text ++ text') := by
  intro depth hdepth rest
  rw [List.append_assoc, h depth hdepth, h' depth hdepth, consText_append]

/-- A character that is no bracket is left alone, also the delimiter inside of brackets. -/
theorem uncut_char {c : Char} (hopens : b.opens c = false) (hcloses : b.closes c = false)
    (hdelim : c ≠ delim ∨ 1 ≤ least) : Uncut b delim least [c] := by
  intro depth hdepth rest
  have hkept : ¬ (c = delim ∧ depth = 0) := by
    rintro ⟨hc, hzero⟩
    rcases hdelim with hne | hleast
    · exact hne hc
    · omega
  rw [List.singleton_append, splitTopLevel, if_neg hkept]
  unfold Brackets.next
  rw [hopens, hcloses]
  rfl

theorem uncut_of_forall {text : Chars} (h : ∀ c ∈ text, b.opens c = false ∧ b.closes c = false
    ∧ c ≠ delim) : Uncut b delim least text := by
  induction text with
  | nil => exact uncut_nil
  | cons c rest ih =>
    rw [List.forall_mem_cons] at h
    rw [← List.singleton_append]
    exact (uncut_char h.1.1 h.1.2.1 (.inl h.1.2.2)).append (ih h.2)

/-- Brackets shield the delimiters inside of them. -/
theorem uncut_bracketed {left right : Char} {inner : Chars} (hleft : b.opens left = true)
    (hright : b.closes right = true) (hright' : b.opens right = false) (hne : left ≠ delim)
    (h : Uncut b delim 1 inner) : Uncut b delim 0 (left :: (inner ++ [right])) := by
  intro depth _ rest
  have hopened : b.next depth left = depth + 1 := by simp [Brackets.next, hleft]
  have hclosed : b.next (depth + 1) right = depth := by simp [Brackets.next, hright, hright']
  rw [List.cons_append, splitTopLevel, if_neg fun heq => hne heq.1, hopened, List.append_assoc,
    h (depth + 1) (by omega), List.singleton_append, splitTopLevel,
    if_neg fun heq => Nat.succ_ne_zero depth heq.2, hclosed]
  show _ = consFirst left (consText (inner ++ [right]) _)
  rw [consText_append]
  rfl

theorem splitTopLevel_uncut {text : Chars} (h : Uncut b delim 0 text) :
    splitTopLevel b delim 0 text = [text] := by
  have hsplit := h 0 (Nat.le_refl 0) []
  rw [List.append_nil] at hsplit
  rw [hsplit, splitTopLevel, consText_cons, List.append_nil]

/-- A delimiter after a whole text cuts. -/
theorem splitTopLevel_cut {text rest : Chars} (h : Uncut b delim 0 text) :
    splitTopLevel b delim 0 (text ++ delim :: rest) = text :: splitTopLevel b delim 0 rest := by
  rw [h 0 (Nat.le_refl 0), splitTopLevel, if_pos ⟨rfl, rfl⟩, consText_cons, List.append_nil]

end Uncut

/-! ## Trimming -/

/-- A text that neither starts nor ends with white space. -/
structure Solid (text : Chars) : Prop where
  first : ∃ c rest, text = c :: rest ∧ isWhitespace c = false
  last : ∃ c before, text = before ++ [c] ∧ isWhitespace c = false

theorem trimStart_append {space : Chars} (h : ∀ c ∈ space, isWhitespace c = true) (text : Chars) :
    trimStart (space ++ text) = trimStart text := by
  unfold trimStart
  rw [List.dropWhile_append_of_pos h]

theorem trimEnd_append {space : Chars} (h : ∀ c ∈ space, isWhitespace c = true) (text : Chars) :
    trimEnd (text ++ space) = trimEnd text := by
  unfold trimEnd
  rw [List.reverse_append, List.dropWhile_append_of_pos fun c hc => h c (List.mem_reverse.1 hc)]

namespace Solid

variable {text text' : Chars}

theorem ne_nil (h : Solid text) : text ≠ [] := by
  obtain ⟨c, rest, rfl, -⟩ := h.first
  exact List.cons_ne_nil c rest

theorem trimStart_append (h : Solid text) (rest : Chars) :
    trimStart (text ++ rest) = text ++ rest := by
  obtain ⟨c, others, rfl, hc⟩ := h.first
  unfold trimStart
  rw [List.cons_append, List.dropWhile_cons_of_neg]
  rw [hc]
  exact Bool.false_ne_true

theorem trimEnd_eq (h : Solid text) : trimEnd text = text := by
  obtain ⟨c, before, rfl, hc⟩ := h.last
  unfold trimEnd
  rw [List.reverse_append, List.reverse_singleton, List.singleton_append,
    List.dropWhile_cons_of_neg]
  · simp
  · rw [hc]
    exact Bool.false_ne_true

/-- White space around a solid text is trimmed, and nothing else. -/
theorem trim_spaced (h : Solid text) {before after : Chars}
    (hbefore : ∀ c ∈ before, isWhitespace c = true) (hafter : ∀ c ∈ after, isWhitespace c = true) :
    trim (before ++ (text ++ after)) = text := by
  unfold trim
  rw [Text.trimStart_append hbefore, h.trimStart_append, trimEnd_append hafter, h.trimEnd_eq]

theorem trim_eq (h : Solid text) : trim text = text := by
  have hspaced := @trim_spaced text h [] [] (by simp) (by simp)
  simpa using hspaced

/-- Only the two ends matter. -/
theorem append (h : Solid text) (h' : Solid text') (middle : Chars) :
    Solid (text ++ (middle ++ text')) := by
  obtain ⟨c, rest, rfl, hc⟩ := h.first
  obtain ⟨c', before, rfl, hc'⟩ := h'.last
  constructor
  · exact ⟨c, rest ++ (middle ++ (before ++ [c'])), rfl, hc⟩
  · exact ⟨c', c :: rest ++ (middle ++ before), by simp, hc'⟩

end Solid

/-- What starts with more than white space does not trim to nothing. -/
theorem trim_cons_ne_nil {c : Char} (hc : isWhitespace c = false) (rest : Chars) :
    trim (c :: rest) ≠ [] := by
  unfold trim trimStart trimEnd
  rw [List.dropWhile_cons_of_neg (by rw [hc]; exact Bool.false_ne_true), List.reverse_cons]
  intro hnil
  rw [List.reverse_eq_nil_iff, List.dropWhile_eq_nil_iff] at hnil
  have hspace := hnil c (by simp)
  rw [hc] at hspace
  cases hspace

/-! ## Splitting what was joined -/

/-- The parts of a joined text, up to the space around the delimiters. -/
theorem split_join {b : Brackets} {delim : Char} {sep : String} {before after : Chars}
    (hsep : sep.toList = before ++ delim :: after)
    (hbefore : ∀ c ∈ before, isWhitespace c = true) (hafter : ∀ c ∈ after, isWhitespace c = true)
    (hbeforeUncut : Uncut b delim 0 before) (hafterUncut : Uncut b delim 0 after)
    {texts : List String} (hne : texts ≠ [])
    (htexts : ∀ text ∈ texts, Solid text.toList ∧ Uncut b delim 0 text.toList) :
    (splitTopLevel b delim 0 (join sep texts).toList).map trim = texts.map String.toList := by
  induction texts with
  | nil => exact absurd rfl hne
  | cons text rest ih =>
    rw [List.forall_mem_cons] at htexts
    cases rest with
    | nil =>
      rw [join, splitTopLevel_uncut htexts.1.2]
      simp [htexts.1.1.trim_eq]
    | cons next others =>
      have hrest := ih (List.cons_ne_nil next others) htexts.2
      have hsplit : splitTopLevel b delim 0 (join sep (text :: next :: others)).toList
          = (text.toList ++ before)
            :: consText after (splitTopLevel b delim 0 (join sep (next :: others)).toList) := by
        rw [join, String.toList_append, String.toList_append, hsep, List.append_assoc,
          List.append_assoc, ← List.append_assoc text.toList before, List.cons_append,
          splitTopLevel_cut (htexts.1.2.append hbeforeUncut), hafterUncut 0 (Nat.le_refl 0)]
      have htext : trim (text.toList ++ before) = text.toList := by
        have hspaced := @Solid.trim_spaced _ htexts.1.1 [] before (by simp) hbefore
        simpa using hspaced
      rw [hsplit, List.map_cons, List.map_cons, ← hrest, htext]
      cases hparts : splitTopLevel b delim 0 (join sep (next :: others)).toList with
      | nil =>
        rw [hparts] at hrest
        cases hrest
      | cons part parts =>
        rw [consText_cons, List.map_cons, List.map_cons]
        unfold trim
        rw [trimStart_append hafter]

end TypePython.Lib.Text
