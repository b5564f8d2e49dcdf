import Mathlib.Data.List.Induction
import Mathlib.Data.List.InsertIdx

/-!
# Inserting items from the back

Items are put in front of the positions of a list, those with the greatest positions first, so that
an insertion does not move the positions that are still to come. A position behind the list is
skipped.

* `insertAll_spec`: what stands behind an inserted item.
* `filter_insertAll`: without the inserted items the list is the old one.
-/

namespace TypePython.Lib

variable {α : Type}

/-- Insert an item in front of a position. -/
def insertAt (items : List α) (entry : Nat × α) : List α :=
  if entry.1 ≤ items.length then items.insertIdx entry.1 entry.2 else items

def insertAll (items : List α) (entries : List (Nat × α)) : List α := entries.foldl insertAt items

theorem insertAt_append {front back : List α} {entry : Nat × α} (h : entry.1 ≤ front.length) :
    insertAt (front ++ back) entry = insertAt front entry ++ back := by
  unfold insertAt
  rw [if_pos h, if_pos (by rw [List.length_append]; omega)]
  generalize entry.1 = position at h
  induction front generalizing position with
  | nil =>
    rw [Nat.le_zero.1 h]
    rfl
  | cons x rest ih =>
    cases position with
    | zero => rfl
    | succ position =>
      rw [List.cons_append, List.insertIdx_succ_cons, List.insertIdx_succ_cons,
        ih position (Nat.le_of_succ_le_succ h), List.cons_append]

theorem insertAt_length (front back : List α) (x : α) :
    insertAt (front ++ back) (front.length, x) = front ++ x :: back := by
  rw [insertAt_append (Nat.le_refl _), insertAt, if_pos (Nat.le_refl _), List.insertIdx_length_self,
    List.append_assoc]
  rfl

theorem length_le_insertAt (items : List α) (entry : Nat × α) :
    items.length ≤ (insertAt items entry).length := by
  unfold insertAt
  split
  · exact List.length_le_length_insertIdx
  · exact Nat.le_refl _

/-- Insertions in the front part leave the rest alone. -/
theorem insertAll_append (entries : List (Nat × α)) (front back : List α)
    (h : ∀ entry ∈ entries, entry.1 ≤ front.length) :
    ∃ front', insertAll (front ++ back) entries = front' ++ back := by
  induction entries generalizing front with
  | nil => exact ⟨front, rfl⟩
  | cons entry rest ih =>
    rw [List.forall_mem_cons] at h
    have hlength := length_le_insertAt front entry
    rcases ih (insertAt front entry) fun later hlater => Nat.le_trans (h.2 later hlater) hlength with
      ⟨front', hfront⟩
    refine ⟨front', ?_⟩
    rw [← hfront, insertAll, List.foldl_cons, insertAt_append h.1]
    rfl

/-- What is behind the list is skipped. -/
theorem insertAll_of_lt {items : List α} {entries : List (Nat × α)}
    (h : ∀ entry ∈ entries, items.length < entry.1) : insertAll items entries = items := by
  induction entries with
  | nil => rfl
  | cons entry rest ih =>
    rw [List.forall_mem_cons] at h
    have hskip : insertAt items entry = items := if_neg (Nat.not_le.2 h.1)
    rw [insertAll, List.foldl_cons, hskip]
    exact ih h.2

/-- Positions never grow. -/
def Descending (entries : List (Nat × α)) : Prop :=
  entries.Pairwise fun entry later => later.1 ≤ entry.1

/-- Up to a position that no insertion has reached, the list is the old one; there the items that
were put in front of it follow, and then what stood there. -/
theorem exists_insertAll_eq {items : List α} (entries : List (Nat × α)) :
    Descending entries → ∀ position ≤ items.length, (∀ entry ∈ entries, position ≤ entry.1) →
      ∃ between below, insertAll items entries = items.take position ++ (between ++ below)
        ∧ (∀ x ∈ between, ∃ entry ∈ entries, entry.2 = x)
        ∧ below.head? = items[position]? := by
  have hplain : ∀ (entries : List (Nat × α)) (position : Nat), ∃ between below : List α,
      items = items.take position ++ (between ++ below)
        ∧ (∀ x ∈ between, ∃ entry ∈ entries, entry.2 = x) ∧ below.head? = items[position]? :=
    fun _ position => ⟨[], items.drop position, (List.take_append_drop position items).symm, nofun,
      List.head?_drop⟩
  induction entries using List.reverseRecOn with
  | nil => exact fun _ position _ _ => hplain [] position
  | append_singleton entries entry ih =>
    intro hdesc position hposition hentries
    rcases List.pairwise_append.1 hdesc with ⟨hrest, -, hlast⟩
    have hreached : ∀ earlier ∈ entries, entry.1 ≤ earlier.1 := fun earlier hearlier =>
      hlast earlier hearlier entry (List.mem_singleton_self _)
    by_cases hskip : items.length < entry.1
    · have hall : ∀ earlier ∈ entries ++ [entry], items.length < earlier.1 := by
        intro earlier hearlier
        rcases List.mem_append.1 hearlier with hin | hin
        · exact Nat.lt_of_lt_of_le hskip (hreached earlier hin)
        · rw [List.mem_singleton.1 hin]
          exact hskip
      rw [insertAll_of_lt hall]
      exact hplain _ position
    · have hle : entry.1 ≤ items.length := Nat.not_lt.1 hskip
      have hpos : position ≤ entry.1 :=
        hentries entry (List.mem_append_right _ (List.mem_singleton_self _))
      rcases ih hrest entry.1 hle hreached with ⟨between, below, hstate, hbetween, hbelow⟩
      have hlength : (items.take entry.1).length = entry.1 := List.length_take_of_le hle
      have hinserted : insertAll items (entries ++ [entry])
          = items.take entry.1 ++ entry.2 :: (between ++ below) := by
        have hmiddle := insertAt_length (items.take entry.1) (between ++ below) entry.2
        rw [hlength] at hmiddle
        rw [← hmiddle, ← hstate, insertAll, List.foldl_append]
        rfl
      rcases Nat.lt_or_ge position entry.1 with hlt | hge
      · refine ⟨[], (items.take entry.1).drop position ++ entry.2 :: (between ++ below), ?_, nofun,
          ?_⟩
        · rw [hinserted, List.nil_append, ← List.append_assoc]
          congr 1
          rw [← Nat.min_eq_left hpos, ← List.take_take, Nat.min_eq_left hpos,
            List.take_append_drop]
        · have hsome : position < items.length := by omega
          rw [List.head?_append, List.head?_drop, List.getElem?_take_of_lt hlt,
            List.getElem?_eq_getElem hsome, Option.some_or]
      · have hsame : position = entry.1 := Nat.le_antisymm hpos hge
        subst hsame
        refine ⟨entry.2 :: between, below, hinserted, ?_, hbelow⟩
        intro x hx
        rcases List.mem_cons.1 hx with rfl | hin
        · exact ⟨entry, List.mem_append_right _ (List.mem_singleton_self _), rfl⟩
        · rcases hbetween x hin with ⟨earlier, hearlier, hitem⟩
          exact ⟨earlier, List.mem_append_left _ hearlier, hitem⟩

/-- Behind an inserted item stand others for the same position, and then what stood there. -/
theorem insertAll_spec {items : List α} {before after : List (Nat × α)} {entry : Nat × α}
    (hdesc : Descending (before ++ entry :: after)) (hle : entry.1 ≤ items.length) :
    ∃ above between below,
      insertAll items (before ++ entry :: after) = above ++ entry.2 :: (between ++ below)
        ∧ (∀ x ∈ between, ∃ earlier ∈ before, earlier.2 = x)
        ∧ below.head? = items[entry.1]? := by
  rcases List.pairwise_append.1 hdesc with ⟨hbefore, hafter, hcross⟩
  rcases exists_insertAll_eq before hbefore entry.1 hle fun earlier hearlier =>
    hcross earlier hearlier entry List.mem_cons_self with
    ⟨between, below, hstate, hbetween, hbelow⟩
  have hlength : (items.take entry.1).length = entry.1 := List.length_take_of_le hle
  have hinserted : insertAt (insertAll items before) entry
      = items.take entry.1 ++ entry.2 :: (between ++ below) := by
    have hmiddle := insertAt_length (items.take entry.1) (between ++ below) entry.2
    rw [hlength] at hmiddle
    rw [hstate]
    exact hmiddle
  rcases insertAll_append after (items.take entry.1) (entry.2 :: (between ++ below))
    (fun later hlater => by
      rw [hlength]
      exact (List.pairwise_cons.1 hafter).1 later hlater) with ⟨above, habove⟩
  refine ⟨above, between, below, ?_, hbetween, hbelow⟩
  rw [← habove, ← hinserted, insertAll, List.foldl_append, List.foldl_cons]
  rfl

/-! ## What is inserted -/

theorem filter_insertAt {p : α → Bool} (items : List α) {entry : Nat × α} (h : p entry.2 = false) :
    (insertAt items entry).filter p = items.filter p := by
  by_cases hle : entry.1 ≤ items.length
  · have hlength : (items.take entry.1).length = entry.1 := List.length_take_of_le hle
    have hmiddle := insertAt_length (items.take entry.1) (items.drop entry.1) entry.2
    rw [hlength, List.take_append_drop] at hmiddle
    conv_rhs => rw [← List.take_append_drop entry.1 items]
    rw [hmiddle, List.filter_append, List.filter_append,
      List.filter_cons_of_neg (by rw [h]; exact Bool.false_ne_true)]
  · rw [insertAt, if_neg hle]

/-- Without the inserted items the list is the old one. -/
theorem filter_insertAll {p : α → Bool} (items : List α) {entries : List (Nat × α)}
    (h : ∀ entry ∈ entries, p entry.2 = false) :
    (insertAll items entries).filter p = items.filter p := by
  induction entries generalizing items with
  | nil => rfl
  | cons entry rest ih =>
    rw [List.forall_mem_cons] at h
    rw [insertAll, List.foldl_cons, ← insertAll, ih _ h.2, filter_insertAt items h.1]

/-- Nothing is inserted twice. -/
theorem countP_insertAll_le {p : α → Bool} (items : List α) (entries : List (Nat × α)) :
    (insertAll items entries).countP p
      ≤ items.countP p + entries.countP fun entry => p entry.2 := by
  induction entries generalizing items with
  | nil => exact Nat.le_refl _
  | cons entry rest ih =>
    have hstep : (insertAt items entry).countP p ≤ items.countP p + (if p entry.2 then 1 else 0) := by
      unfold insertAt
      split
      · rename_i hle
        have hcount := (List.perm_insertIdx entry.2 items hle).countP_eq p
        rw [List.countP_cons] at hcount
        exact Nat.le_of_eq hcount
      · omega
    have hrest := ih (insertAt items entry)
    rw [insertAll, List.foldl_cons, ← insertAll, List.countP_cons]
    omega

end TypePython.Lib
