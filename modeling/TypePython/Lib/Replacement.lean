import TypePython.Lib.Text
import Mathlib.Tactic.SplitIfs

/-!
# Replacing text

`str::replacen` with one occurrence, and `str::replace`. A replacement knows nothing of tokens, so
what it does is told by where the pattern occurs: the first occurrence for the one
(`splitAtFirst_append`), their number for the other (`countP_replaceAll`).
-/

namespace TypePython.Lib.Text

/-! ## The first occurrence -/

/-- What stands before and behind the first occurrence of a pattern. -/
def splitAtFirst (pattern : Chars) : Chars → Option (Chars × Chars)
  | [] => none
  | c :: rest =>
    match stripPrefix pattern (c :: rest) with
    | some after => some ([], after)
    | none => (splitAtFirst pattern rest).map fun (before, after) => (c :: before, after)

def replaceFirst (pattern replacement text : Chars) : Chars :=
  match splitAtFirst pattern text with
  | some (before, after) => before ++ replacement ++ after
  | none => text

/-- No end of the text is also its beginning. -/
def Unbordered (pattern : Chars) : Prop :=
  ∀ d < pattern.length, 0 < d → pattern.drop d ≠ pattern.take (pattern.length - d)

instance (pattern : Chars) : Decidable (Unbordered pattern) :=
  inferInstanceAs (Decidable (∀ d < pattern.length, 0 < d → _))

variable {pattern replacement text before after : Chars}

theorem splitAtFirst_eq_some (h : splitAtFirst pattern text = some (before, after)) :
    text = before ++ pattern ++ after := by
  induction text generalizing before with
  | nil => cases h
  | cons c rest ih =>
    rw [splitAtFirst] at h
    split at h
    · rename_i hfront
      cases h
      exact eq_of_stripPrefix hfront
    · obtain ⟨⟨before', after'⟩, hrest, hcons⟩ := Option.map_eq_some_iff.1 h
      rw [Prod.mk.injEq] at hcons
      rcases hcons with ⟨rfl, rfl⟩
      rw [ih hrest]
      rfl

/-- The first occurrence is not behind any other. -/
theorem splitAtFirst_le (hne : pattern ≠ []) (h : text = before ++ pattern ++ after) :
    ∃ before' after', splitAtFirst pattern text = some (before', after')
      ∧ before'.length ≤ before.length := by
  induction before generalizing text with
  | nil =>
    rw [List.nil_append] at h
    obtain ⟨c, rest, htext⟩ := List.exists_cons_of_ne_nil
      (show text ≠ [] by rw [h]; exact List.append_ne_nil_of_left_ne_nil hne _)
    refine ⟨[], after, ?_, Nat.le_refl _⟩
    have hfront : stripPrefix pattern (c :: rest) = some after := by
      rw [← htext, h, stripPrefix_append]
    rw [htext, splitAtFirst, hfront]
  | cons c before ih =>
    rw [List.cons_append, List.cons_append] at h
    rw [h, splitAtFirst]
    split
    · exact ⟨[], _, rfl, Nat.zero_le _⟩
    · obtain ⟨before', after', hrest, hle⟩ := ih rfl
      refine ⟨c :: before', after', by rw [hrest]; rfl, ?_⟩
      rw [List.length_cons, List.length_cons]
      omega

theorem splitAtFirst_eq_none (hne : pattern ≠ []) :
    splitAtFirst pattern text = none ↔ ∀ before after, text ≠ before ++ pattern ++ after := by
  constructor
  · intro hnone before after htext
    obtain ⟨before', after', hsome, -⟩ := splitAtFirst_le hne htext
    rw [hnone] at hsome
    cases hsome
  · intro h
    cases hsplit : splitAtFirst pattern text with
    | none => rfl
    | some parts =>
      obtain ⟨before, after⟩ := parts
      exact absurd (splitAtFirst_eq_some hsplit) (h before after)

/-- Two occurrences of a pattern do not overlap. -/
theorem Unbordered.apart (h : Unbordered pattern) {before' after' : Chars}
    (htext : before ++ pattern ++ after = before' ++ pattern ++ after')
    (hlt : before'.length < before.length) :
    ∃ middle, before = before' ++ pattern ++ middle
      ∧ after' = middle ++ pattern ++ after := by
  rw [List.append_assoc, List.append_assoc before'] at htext
  obtain ⟨gap, hgap, hrest⟩ : ∃ gap, before = before' ++ gap
      ∧ pattern ++ after' = gap ++ (pattern ++ after) := by
    rcases List.append_eq_append_iff.1 htext with ⟨gap, hbefore, hrest⟩ | ⟨gap, hbefore, hrest⟩
    · rw [hbefore, List.length_append] at hlt
      omega
    · exact ⟨gap, hbefore, hrest⟩
  by_cases hlength : pattern.length ≤ gap.length
  · -- the pattern is a part of the gap
    rcases List.append_eq_append_iff.1 hrest with ⟨middle, hmiddle, hafter⟩ | ⟨middle, hmiddle, hafter⟩
    · refine ⟨middle, by rw [hgap, hmiddle, List.append_assoc], ?_⟩
      rw [hafter, List.append_assoc]
    · rw [hmiddle, List.length_append] at hlength
      have hnil : middle = [] := List.eq_nil_of_length_eq_zero (by omega)
      rw [hnil, List.append_nil] at hmiddle
      rw [hnil, List.nil_append] at hafter
      refine ⟨[], by rw [hgap, hmiddle, List.append_nil], ?_⟩
      rw [← hafter, List.nil_append]
  · rw [hgap, List.length_append] at hlt
    have htake := congrArg (fun chars => (chars.drop gap.length).take (pattern.length - gap.length)) hrest
    simp only [List.drop_left] at htake
    rw [List.drop_append_of_le_length (by omega), List.take_append_of_le_length (by simp),
      List.take_append_of_le_length (by omega),
      List.take_of_length_le (l := pattern.drop gap.length) (by simp)] at htake
    exact absurd htake (h gap.length (by omega) (by omega))

/-- The first occurrence, where the pattern does not occur before it. -/
theorem splitAtFirst_append (h : Unbordered pattern) (hne : pattern ≠ [])
    (hbefore : splitAtFirst pattern before = none) :
    splitAtFirst pattern (before ++ pattern ++ after) = some (before, after) := by
  obtain ⟨before', after', hsplit, hle⟩ := splitAtFirst_le hne (rfl : before ++ pattern ++ after = _)
  have htext := splitAtFirst_eq_some hsplit
  by_cases hlt : before'.length < before.length
  · obtain ⟨middle, hmiddle, -⟩ := h.apart htext hlt
    exact absurd hmiddle ((splitAtFirst_eq_none hne).1 hbefore before' middle)
  · rw [List.append_assoc, List.append_assoc] at htext
    obtain ⟨hsame, hrest⟩ := List.append_inj htext (by omega)
    rw [hsplit, hsame, List.append_cancel_left hrest]

/-- A text that commutes with the pattern ends with it. -/
theorem Unbordered.suffix_of_comm (h : Unbordered pattern)
    (hcomm : text ++ pattern = pattern ++ text) : text = [] ∨ pattern <:+ text := by
  by_cases hlength : pattern.length ≤ text.length
  · exact .inr (List.suffix_of_suffix_length_le
      (hcomm ▸ List.suffix_append text pattern) (List.suffix_append pattern text) hlength)
  · by_cases hnil : text = []
    · exact .inl hnil
    · have hpos := List.length_pos_of_ne_nil hnil
      have htake := congrArg (fun chars => (chars.drop text.length).take
        (pattern.length - text.length)) hcomm
      simp only [List.drop_left] at htake
      rw [List.drop_append_of_le_length (by omega), List.take_append_of_le_length (by simp),
        List.take_of_length_le (l := pattern.drop text.length) (by simp)] at htake
      exact absurd htake.symm (h text.length (by omega) hpos)

/-! ## All occurrences -/

/-- `skip` counts the characters of the occurrence that has been replaced. -/
def replaceAllFrom (pattern replacement : Chars) : Nat → Chars → Chars
  | _, [] => []
  | skip + 1, _ :: rest => replaceAllFrom pattern replacement skip rest
  | 0, c :: rest =>
    if pattern.isPrefixOf (c :: rest) then
      replacement ++ replaceAllFrom pattern replacement (pattern.length - 1) rest
    else c :: replaceAllFrom pattern replacement 0 rest

def replaceAll (pattern replacement text : Chars) : Chars :=
  replaceAllFrom pattern replacement 0 text

/-- The number of places where the pattern stands. -/
def occurrences (pattern : Chars) : Chars → Nat
  | [] => 0
  | c :: rest => (if pattern.isPrefixOf (c :: rest) then 1 else 0) + occurrences pattern rest

theorem replaceAllFrom_append (skipped text : Chars) :
    replaceAllFrom pattern replacement skipped.length (skipped ++ text)
      = replaceAll pattern replacement text := by
  induction skipped with
  | nil => rfl
  | cons c rest ih => rw [List.length_cons, List.cons_append, replaceAllFrom, ih]

theorem replaceAll_cons {c : Char} (h : pattern.isPrefixOf (c :: text) = false) :
    replaceAll pattern replacement (c :: text) = c :: replaceAll pattern replacement text := by
  rw [replaceAll, replaceAllFrom, h, if_neg Bool.false_ne_true]
  rfl

theorem replaceAll_pattern {first : Char} {others : Chars} (text : Chars) :
    replaceAll (first :: others) replacement (first :: others ++ text)
      = replacement ++ replaceAll (first :: others) replacement text := by
  have hfront : (first :: others).isPrefixOf (first :: (others ++ text)) = true := by
    rw [List.isPrefixOf_iff_prefix]
    exact List.prefix_append (first :: others) text
  rw [List.cons_append, replaceAll, replaceAllFrom, if_pos hfront, List.length_cons,
    Nat.add_sub_cancel, replaceAllFrom_append]

/-- The pattern begins with a character that it has only once. -/
structure Headed (pattern : Chars) (first : Char) (others : Chars) : Prop where
  eq : pattern = first :: others
  once : first ∉ others

namespace Headed

variable {first : Char} {others : Chars}

theorem isPrefixOf_eq_false (h : Headed pattern first others) {c : Char} (hc : c ≠ first)
    (text : Chars) : pattern.isPrefixOf (c :: text) = false := by
  rw [h.eq]
  apply Bool.eq_false_iff.2
  intro hfront
  rw [List.isPrefixOf_iff_prefix, List.cons_prefix_cons] at hfront
  exact hc hfront.1.symm

theorem occurrences_append (h : Headed pattern first others) {skipped : Chars}
    (hskipped : first ∉ skipped) (text : Chars) :
    occurrences pattern (skipped ++ text) = occurrences pattern text := by
  induction skipped with
  | nil => rfl
  | cons c rest ih =>
    rw [List.mem_cons, not_or] at hskipped
    rw [List.cons_append, occurrences, h.isPrefixOf_eq_false (Ne.symm hskipped.1),
      if_neg Bool.false_ne_true, ih hskipped.2, Nat.zero_add]

theorem occurrences_pattern (h : Headed pattern first others) (text : Chars) :
    occurrences pattern (pattern ++ text) = 1 + occurrences pattern text := by
  have hfront : pattern.isPrefixOf (pattern ++ text) = true := by
    rw [List.isPrefixOf_iff_prefix]
    exact List.prefix_append pattern text
  rw [h.eq] at hfront ⊢
  rw [List.cons_append] at hfront ⊢
  rw [occurrences, if_pos hfront, ← h.eq, h.occurrences_append h.once]

/-- Replacing changes a count by the same number for each occurrence. -/
theorem countP_replaceAll (h : Headed pattern first others) (p : Char → Bool) (text : Chars) :
    (replaceAll pattern replacement text).countP p + occurrences pattern text * pattern.countP p
      = text.countP p + occurrences pattern text * replacement.countP p := by
  induction hlength : text.length using Nat.strongRecOn generalizing text with
  | ind length ih =>
    cases text with
    | nil => simp [replaceAll, replaceAllFrom, occurrences]
    | cons c rest =>
      by_cases hfront : pattern.isPrefixOf (c :: rest) = true
      · obtain ⟨after, hafter⟩ := List.isPrefixOf_iff_prefix.1 hfront
        have hpos : 0 < pattern.length := by rw [h.eq]; exact Nat.succ_pos _
        have hrest := ih after.length (by
          rw [← hlength, ← hafter, List.length_append]; omega) after rfl
        have hreplace : replaceAll pattern replacement (pattern ++ after)
            = replacement ++ replaceAll pattern replacement after := by
          rw [h.eq]
          exact replaceAll_pattern after
        rw [← hafter, hreplace, h.occurrences_pattern, List.countP_append, List.countP_append,
          Nat.add_mul, Nat.add_mul, Nat.one_mul, Nat.one_mul]
        omega
      · rw [Bool.not_eq_true] at hfront
        have hrest := ih rest.length (by rw [← hlength]; exact Nat.lt_succ_self _) rest rfl
        rw [replaceAll_cons hfront, occurrences, hfront, if_neg Bool.false_ne_true,
          Nat.zero_add, List.countP_cons, List.countP_cons]
        omega

end Headed

end TypePython.Lib.Text
