import Mathlib.Data.List.Pairwise

/-!
# Editing a text at several places

A text is edited by replacing ranges of it. Ranges that do not overlap are replaced from the last
one to the first, so that a replacement does not move the ranges that are still to come.

* `slice_moved_of_mem`: where a range has been replaced stands its replacement;
* `slice_moved_of_apart`: a range that no replacement touches holds what it held before;
* `take_moved_perm`: what the edits exchange before a position.
-/

namespace TypePython.Lib

variable {α : Type}

/-- A range of positions, the last one excluded. -/
structure TextRange where
  start : Nat
  stop : Nat
deriving DecidableEq, Repr

def slice (text : List α) (range : TextRange) : List α :=
  (text.drop range.start).take (range.stop - range.start)

def replaceRange (text : List α) (range : TextRange) (replacement : List α) : List α :=
  text.take range.start ++ replacement ++ text.drop range.stop

/-- Replace the last range first. -/
def replaceRanges (text : List α) (edits : List (TextRange × List α)) : List α :=
  edits.foldr (fun edit edited => replaceRange edited edit.1 edit.2) text

/-- Where a position is after the edits. -/
def moved : List (TextRange × List α) → Nat → Nat
  | [], pos => pos
  | (range, replacement) :: rest, pos =>
    if range.stop ≤ pos then moved rest pos - range.stop + (range.start + replacement.length)
    else moved rest pos

def movedRange (edits : List (TextRange × List α)) (range : TextRange) : TextRange where
  start := moved edits range.start
  stop := moved edits range.stop

/-- One range after the other, none of them empty. -/
def InOrder (ranges : List TextRange) : Prop :=
  ranges.Pairwise (fun range range' => range.stop ≤ range'.start)
    ∧ ∀ range ∈ ranges, range.start < range.stop

def TextRange.Apart (range range' : TextRange) : Prop :=
  range.stop ≤ range'.start ∨ range'.stop ≤ range.start

/-! ## Ranges in order -/

variable {range : TextRange}

theorem InOrder.tail {rest : List TextRange} (h : InOrder (range :: rest)) : InOrder rest :=
  ⟨(List.pairwise_cons.1 h.1).2, fun range' hrange => h.2 range' (List.mem_cons_of_mem _ hrange)⟩

theorem InOrder.sublist {ranges ranges' : List TextRange} (h : InOrder ranges)
    (hsub : List.Sublist ranges' ranges) : InOrder ranges' :=
  ⟨h.1.sublist hsub, fun range hrange => h.2 range (hsub.subset hrange)⟩

variable {range' : TextRange}

theorem InOrder.starts_after {rest : List TextRange} (h : InOrder (range :: rest))
    (hrange : range' ∈ rest) : range.stop ≤ range'.start :=
  (List.pairwise_cons.1 h.1).1 range' hrange

/-- Two ranges of the list are apart, or they are one. -/
theorem InOrder.apart {ranges : List TextRange} (h : InOrder ranges) (hrange : range ∈ ranges)
    (hrange' : range' ∈ ranges) (hne : range ≠ range') : range.Apart range' := by
  induction ranges with
  | nil => cases hrange
  | cons first rest ih =>
    rcases List.mem_cons.1 hrange with rfl | hrest
    · rcases List.mem_cons.1 hrange' with rfl | hrest'
      · exact absurd rfl hne
      · exact .inl (h.starts_after hrest')
    · rcases List.mem_cons.1 hrange' with rfl | hrest'
      · exact .inr (h.starts_after hrest)
      · exact ih h.tail hrest hrest'

/-- Sorting the other way round reverses the list. -/
theorem InOrder.mergeSort_descending {β : Type} {edits : List (TextRange × β)}
    (h : InOrder (edits.map Prod.fst)) :
    edits.mergeSort (fun left right => decide (right.1.start ≤ left.1.start)) = edits.reverse := by
  let descends := fun left right : TextRange × β => decide (right.1.start ≤ left.1.start)
  have htrans : ∀ a b c, descends a b = true → descends b c = true → descends a c = true := by
    intro a b c hab hbc
    have hab' : b.1.start ≤ a.1.start := of_decide_eq_true hab
    have hbc' : c.1.start ≤ b.1.start := of_decide_eq_true hbc
    exact decide_eq_true (Nat.le_trans hbc' hab')
  have htotal : ∀ a b, (descends a b || descends b a) = true := by
    intro a b
    have htot : b.1.start ≤ a.1.start ∨ a.1.start ≤ b.1.start := Nat.le_total _ _
    simpa [descends] using htot
  have hstrict : edits.Pairwise fun left right => left.1.start < right.1.start := by
    refine (List.pairwise_map.1 h.1).imp_of_mem ?_
    intro left right hleft _ hle
    have hwide := h.2 left.1 (List.mem_map_of_mem hleft)
    omega
  have hsorted : edits.reverse.Pairwise fun left right => descends left right = true := by
    rw [List.pairwise_reverse]
    exact hstrict.imp fun hlt => decide_eq_true (Nat.le_of_lt hlt)
  -- the ranges start at different positions, so the order leaves no choice
  have hdistinct : ∀ left ∈ edits, ∀ right ∈ edits,
      left = right ∨ left.1.start ≠ right.1.start := by
    intro left hleft right hright
    by_cases heq : left = right
    · exact .inl heq
    · have : Std.Symm fun a b : TextRange × β => a.1.start ≠ b.1.start := ⟨fun _ _ => Ne.symm⟩
      exact .inr ((hstrict.imp Nat.ne_of_lt).forall hleft hright heq)
  have hperm : (edits.mergeSort descends).Perm edits := List.mergeSort_perm edits descends
  refine List.Perm.eq_of_pairwise ?_ (List.pairwise_mergeSort htrans htotal edits) hsorted
    (hperm.trans (List.reverse_perm edits).symm)
  intro left right hleft hright hlr hrl
  have hlr' : right.1.start ≤ left.1.start := of_decide_eq_true hlr
  have hrl' : left.1.start ≤ right.1.start := of_decide_eq_true hrl
  rcases hdistinct left (hperm.subset hleft) right (List.mem_reverse.1 hright) with heq | hne
  · exact heq
  · exact absurd (Nat.le_antisymm hrl' hlr') hne

/-! ## Texts after edits -/

variable {pos : Nat}

/-- What stands before the first edited range is left alone. -/
theorem take_replaceRanges {text : List α} {edits : List (TextRange × List α)}
    (hpos : pos ≤ text.length) (h : ∀ edit ∈ edits, pos ≤ edit.1.start) :
    (replaceRanges text edits).take pos = text.take pos
      ∧ pos ≤ (replaceRanges text edits).length := by
  induction edits with
  | nil => exact ⟨rfl, hpos⟩
  | cons edit rest ih =>
    rw [List.forall_mem_cons] at h
    obtain ⟨htake, hlength⟩ := ih h.2
    have hle := h.1
    have hcut : (replaceRanges text (edit :: rest))
        = (replaceRanges text rest).take edit.1.start ++ edit.2
          ++ (replaceRanges text rest).drop edit.1.stop := rfl
    have hkept : pos ≤ ((replaceRanges text rest).take edit.1.start).length := by
      rw [List.length_take]
      omega
    constructor
    · rw [hcut, List.append_assoc, List.take_append_of_le_length hkept, List.take_take,
        Nat.min_eq_left hle, htake]
    · rw [hcut, List.append_assoc, List.length_append]
      omega

theorem moved_of_before {edits : List (TextRange × List α)}
    (h : ∀ edit ∈ edits, pos < edit.1.stop) : moved edits pos = pos := by
  induction edits with
  | nil => rfl
  | cons edit rest ih =>
    rw [List.forall_mem_cons] at h
    have hlt : ¬ edit.1.stop ≤ pos := Nat.not_le.2 h.1
    rw [moved, if_neg hlt, ih h.2]

theorem le_moved {edits : List (TextRange × List α)} {bound : Nat}
    (h : ∀ edit ∈ edits, bound ≤ edit.1.start) (hpos : bound ≤ pos) : bound ≤ moved edits pos := by
  induction edits with
  | nil => exact hpos
  | cons edit rest ih =>
    rw [List.forall_mem_cons] at h
    have hrest := ih h.2
    have hfirst := h.1
    rw [moved]
    split <;> omega

variable {replacement : List α}

/-- Behind a replaced range the text goes on as before. -/
theorem slice_replaceRange_after {text : List α} (hstart : range.start ≤ text.length)
    (hafter : range.stop ≤ range'.start) (hwide : range'.start ≤ range'.stop) :
    slice (replaceRange text range replacement)
        ⟨range'.start - range.stop + (range.start + replacement.length),
          range'.stop - range.stop + (range.start + replacement.length)⟩
      = slice text range' := by
  have hlength : (text.take range.start ++ replacement).length
      = range.start + replacement.length := by
    rw [List.length_append, List.length_take, Nat.min_eq_left hstart]
  have hstarts : range'.start - range.stop + (range.start + replacement.length)
      = (text.take range.start ++ replacement).length + (range'.start - range.stop) := by omega
  have hwidth : range'.stop - range.stop + (range.start + replacement.length)
      - (range'.start - range.stop + (range.start + replacement.length))
      = range'.stop - range'.start := by omega
  unfold slice
  rw [hwidth, hstarts]
  unfold replaceRange
  rw [List.drop_append, List.drop_of_length_le (Nat.le_add_right _ _), List.nil_append,
    Nat.add_sub_cancel_left, List.drop_drop]
  congr 2
  omega

/-- The replacement stands where the range began. -/
theorem slice_replaceRange_self {text : List α} (hstart : range.start ≤ text.length) :
    slice (replaceRange text range replacement) ⟨range.start, range.start + replacement.length⟩
      = replacement := by
  have hlength : (text.take range.start).length = range.start := by
    rw [List.length_take, Nat.min_eq_left hstart]
  unfold slice replaceRange
  rw [List.append_assoc, List.drop_append, List.drop_of_length_le (Nat.le_of_eq hlength),
    List.nil_append, hlength, Nat.sub_self, List.drop_zero, Nat.add_sub_cancel_left,
    List.take_left]

theorem slice_congr {text text' : List α} (h : text.take range.stop = text'.take range.stop) :
    slice text range = slice text' range := by
  unfold slice
  rw [← List.drop_take, ← List.drop_take, h]

variable {text : List α} {edits : List (TextRange × List α)}

/-- A range before all edits. -/
theorem slice_moved_of_before (hstop : range.stop ≤ text.length)
    (hwide : range.start < range.stop) (horder : InOrder (edits.map Prod.fst))
    (h : ∀ edit ∈ edits, range.stop ≤ edit.1.start) :
    slice (replaceRanges text edits) (movedRange edits range) = slice text range := by
  have hafter : ∀ edit ∈ edits, range.stop < edit.1.stop := by
    intro edit hedit
    have hle := h edit hedit
    have hedited := horder.2 edit.1 (List.mem_map_of_mem hedit)
    omega
  have hstays : movedRange edits range = range := by
    unfold movedRange
    rw [moved_of_before hafter,
      moved_of_before fun edit hedit => Nat.lt_trans hwide (hafter edit hedit)]
  rw [hstays]
  exact slice_congr (take_replaceRanges hstop h).1

/-- An edit before a range moves it, and what stands there stays. -/
theorem slice_moved_of_after {edit : TextRange × List α} {rest : List (TextRange × List α)}
    (hbound : edit.1.stop ≤ text.length) (hwideEdit : edit.1.start < edit.1.stop)
    (hrest : ∀ edit' ∈ rest, edit.1.stop ≤ edit'.1.start) (hwide : range.start < range.stop)
    (hafter : edit.1.stop ≤ range.start)
    (hordered : moved rest range.start ≤ moved rest range.stop) :
    slice (replaceRanges text (edit :: rest)) (movedRange (edit :: rest) range)
      = slice (replaceRanges text rest) (movedRange rest range) := by
  have hstart : edit.1.start ≤ (replaceRanges text rest).length := by
    have hlength := (take_replaceRanges hbound hrest).2
    omega
  have hmovedStart := le_moved hrest hafter
  have hmoved : movedRange (edit :: rest) range
      = ⟨moved rest range.start - edit.1.stop + (edit.1.start + edit.2.length),
          moved rest range.stop - edit.1.stop + (edit.1.start + edit.2.length)⟩ := by
    unfold movedRange
    rw [moved, if_pos hafter, moved, if_pos (Nat.le_trans hafter (Nat.le_of_lt hwide))]
  rw [hmoved]
  have hmove : edit.1.stop ≤ (movedRange rest range).start := hmovedStart
  exact slice_replaceRange_after hstart hmove hordered

/-- Edits that leave a range whole do not turn it round. -/
theorem moved_start_le_stop (horder : InOrder (edits.map Prod.fst))
    (hwide : range.start < range.stop) (h : ∀ edit ∈ edits, range.Apart edit.1 ∨ range = edit.1) :
    moved edits range.start ≤ moved edits range.stop := by
  induction edits with
  | nil => exact Nat.le_of_lt hwide
  | cons edit rest ih =>
    have hwideEdit := horder.2 edit.1 List.mem_cons_self
    have hrest : ∀ edit' ∈ rest, edit.1.stop ≤ edit'.1.start := fun edit' hedit =>
      horder.starts_after (List.mem_map_of_mem hedit)
    rw [List.forall_mem_cons] at h
    have hordered := ih horder.tail h.2
    rcases h.1 with (hbefore | hafter) | heq
    · rw [moved, if_neg (by omega), moved, if_neg (by omega)]
      exact hordered
    · rw [moved, if_pos hafter, moved, if_pos (by omega)]
      omega
    · rw [heq]
      have hfixed : moved rest edit.1.start = edit.1.start := by
        apply moved_of_before
        intro edit' hedit
        have hle := hrest edit' hedit
        have hwide' := horder.2 edit'.1 (List.mem_map_of_mem (List.mem_cons_of_mem _ hedit))
        omega
      rw [moved, if_neg (Nat.not_le.2 hwideEdit), moved, if_pos (Nat.le_refl _), hfixed]
      omega

/-- A range that no edit touches keeps its text. -/
theorem slice_moved_of_apart (horder : InOrder (edits.map Prod.fst))
    (hbounds : ∀ edit ∈ edits, edit.1.stop ≤ text.length) (hstop : range.stop ≤ text.length)
    (hwide : range.start < range.stop) (h : ∀ edit ∈ edits, range.Apart edit.1) :
    slice (replaceRanges text edits) (movedRange edits range) = slice text range := by
  induction edits with
  | nil => rfl
  | cons edit rest ih =>
    have hwideEdit := horder.2 edit.1 List.mem_cons_self
    have hrest : ∀ edit' ∈ rest, edit.1.stop ≤ edit'.1.start := fun edit' hedit =>
      horder.starts_after (List.mem_map_of_mem hedit)
    rw [List.forall_mem_cons] at h hbounds
    rcases h.1 with hbefore | hafter
    · refine slice_moved_of_before hstop hwide horder (List.forall_mem_cons.2 ⟨hbefore, ?_⟩)
      intro edit' hedit
      have hle := hrest edit' hedit
      omega
    · have hordered := moved_start_le_stop horder.tail hwide fun edit' hedit =>
        .inl (h.2 edit' hedit)
      rw [slice_moved_of_after hbounds.1 hwideEdit hrest hwide hafter hordered]
      exact ih horder.tail hbounds.2 h.2

/-- Where a range has been replaced stands its replacement. -/
theorem slice_moved_of_mem (horder : InOrder (edits.map Prod.fst))
    (hbounds : ∀ edit ∈ edits, edit.1.stop ≤ text.length) (h : (range, replacement) ∈ edits) :
    slice (replaceRanges text edits) (movedRange edits range) = replacement := by
  induction edits with
  | nil => cases h
  | cons edit rest ih =>
    have hwideEdit := horder.2 edit.1 List.mem_cons_self
    have hrest : ∀ edit' ∈ rest, edit.1.stop ≤ edit'.1.start := fun edit' hedit =>
      horder.starts_after (List.mem_map_of_mem hedit)
    have hstops : ∀ edit' ∈ rest, edit.1.stop < edit'.1.stop := by
      intro edit' hedit
      have hle := hrest edit' hedit
      have hwide' := horder.2 edit'.1 (List.mem_map_of_mem (List.mem_cons_of_mem _ hedit))
      omega
    rw [List.forall_mem_cons] at hbounds
    rcases List.mem_cons.1 h with heq | hmem
    · subst heq
      have hstart : range.start ≤ (replaceRanges text rest).length :=
        Nat.le_trans (Nat.le_of_lt hwideEdit) (take_replaceRanges hbounds.1 hrest).2
      have hmoved : movedRange ((range, replacement) :: rest) range
          = ⟨range.start, range.start + replacement.length⟩ := by
        unfold movedRange
        rw [moved, if_neg (Nat.not_le.2 hwideEdit), moved, if_pos (Nat.le_refl _),
          moved_of_before hstops,
          moved_of_before fun edit' hedit => Nat.lt_trans hwideEdit (hstops edit' hedit),
          Nat.sub_self, Nat.zero_add]
      rw [hmoved]
      exact slice_replaceRange_self hstart
    · have hafter := hrest _ hmem
      have hwide := horder.tail.2 range (List.mem_map_of_mem hmem)
      have hordered : moved rest range.start ≤ moved rest range.stop := by
        apply moved_start_le_stop horder.tail hwide
        intro edit' hedit
        by_cases heq : range = edit'.1
        · exact .inr heq
        · exact .inl (horder.tail.apart (List.mem_map_of_mem hmem)
            (List.mem_map_of_mem hedit) heq)
      rw [slice_moved_of_after hbounds.1 hwideEdit hrest hwide hafter hordered]
      exact ih horder.tail hbounds.2 hmem

/-! ## What is exchanged -/

/-- The edits that end before a position. -/
def editsBefore (edits : List (TextRange × List α)) (pos : Nat) : List (TextRange × List α) :=
  edits.filter fun edit => edit.1.stop ≤ pos

/-- Up to a position that is in no edited range, the ranges before it are exchanged for their
replacements. -/
theorem take_moved_perm (horder : InOrder (edits.map Prod.fst))
    (hbounds : ∀ edit ∈ edits, edit.1.stop ≤ text.length) (hpos : pos ≤ text.length)
    (h : ∀ edit ∈ edits, edit.1.stop ≤ pos ∨ pos ≤ edit.1.start) :
    ((replaceRanges text edits).take (moved edits pos)
        ++ (editsBefore edits pos).flatMap fun edit => slice text edit.1).Perm
      (text.take pos ++ (editsBefore edits pos).flatMap Prod.snd) := by
  induction edits with
  | nil => exact List.Perm.refl _
  | cons edit rest ih =>
    have hwideEdit := horder.2 edit.1 List.mem_cons_self
    have hrest : ∀ edit' ∈ rest, edit.1.stop ≤ edit'.1.start := fun edit' hedit =>
      horder.starts_after (List.mem_map_of_mem hedit)
    rw [List.forall_mem_cons] at h hbounds
    have hrestPerm := ih horder.tail hbounds.2 h.2
    rcases h.1 with hbefore | hafter
    · have htake := take_replaceRanges hbounds.1 hrest
      have hmoved := le_moved hrest hbefore
      have hself : slice (replaceRanges text rest) edit.1 = slice text edit.1 :=
        slice_congr htake.1
      have hlength : ((replaceRanges text rest).take edit.1.start).length = edit.1.start := by
        rw [List.length_take]
        omega
      -- the text up to the position without this edit, and with it
      have hold : (replaceRanges text rest).take (moved rest pos)
          = (replaceRanges text rest).take edit.1.start ++ (slice text edit.1
            ++ ((replaceRanges text rest).drop edit.1.stop).take
              (moved rest pos - edit.1.stop)) := by
        have hparts : moved rest pos = edit.1.stop + (moved rest pos - edit.1.stop) := by omega
        have hfront : (replaceRanges text rest).take edit.1.stop
            = (replaceRanges text rest).take edit.1.start ++ slice text edit.1 := by
          rw [← hself, slice, ← List.take_add]
          congr 1
          omega
        calc (replaceRanges text rest).take (moved rest pos)
            = (replaceRanges text rest).take (edit.1.stop + (moved rest pos - edit.1.stop)) := by
              rw [← hparts]
          _ = _ := by rw [List.take_add, hfront, List.append_assoc]
      have hnew : (replaceRanges text (edit :: rest)).take (moved (edit :: rest) pos)
          = (replaceRanges text rest).take edit.1.start ++ (edit.2
            ++ ((replaceRanges text rest).drop edit.1.stop).take
              (moved rest pos - edit.1.stop)) := by
        have hcut : replaceRanges text (edit :: rest)
            = ((replaceRanges text rest).take edit.1.start ++ edit.2)
              ++ (replaceRanges text rest).drop edit.1.stop := rfl
        have hpositions : moved (edit :: rest) pos
            = ((replaceRanges text rest).take edit.1.start ++ edit.2).length
              + (moved rest pos - edit.1.stop) := by
          rw [moved, if_pos hbefore, List.length_append, hlength]
          omega
        rw [hcut, hpositions, List.take_length_add_append, List.append_assoc]
      have hkept : editsBefore (edit :: rest) pos = edit :: editsBefore rest pos :=
        List.filter_cons_of_pos (decide_eq_true hbefore)
      rw [hkept, List.flatMap_cons, List.flatMap_cons, hnew]
      rw [hold] at hrestPerm
      -- the range and its replacement change sides
      have hmore := hrestPerm.append_left edit.2
      refine List.Perm.trans ?_ (hmore.trans ?_)
      · simp only [List.append_assoc]
        refine (List.perm_append_comm_assoc _ _ _).trans (List.Perm.append_left _ ?_)
        refine List.Perm.append_left _ ?_
        exact List.perm_append_comm_assoc _ _ _
      · exact List.perm_append_comm_assoc _ _ _
    · have hnone : editsBefore (edit :: rest) pos = [] := by
        refine List.filter_eq_nil_iff.2 fun edit' hedit => ?_
        rw [decide_eq_true_eq]
        rcases List.mem_cons.1 hedit with rfl | hin
        · omega
        · have hle := hrest edit' hin
          have hwide' := horder.2 edit'.1 (List.mem_map_of_mem (List.mem_cons_of_mem _ hin))
          omega
      have hstays : moved (edit :: rest) pos = pos := by
        refine moved_of_before fun edit' hedit => ?_
        have hnot := List.filter_eq_nil_iff.1 hnone edit' hedit
        rw [decide_eq_true_eq] at hnot
        exact Nat.not_le.1 hnot
      have hstarts : ∀ edit' ∈ edit :: rest, pos ≤ edit'.1.start := by
        refine List.forall_mem_cons.2 ⟨hafter, fun edit' hedit => ?_⟩
        have hle := hrest edit' hedit
        omega
      rw [hnone, hstays, (take_replaceRanges hpos hstarts).1]
      exact List.Perm.refl _

end TypePython.Lib
