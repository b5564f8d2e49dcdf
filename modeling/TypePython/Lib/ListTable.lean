import TypePython.Lib.LastEntry

/-!
# Tables of lists

A map that holds a list for each key. A key without an entry holds the empty list, so what
matters of such a table is `entriesOf`.
-/

namespace TypePython.Lib

open Std

/-! ## Logs with one entry for each key -/

section Distinct

variable {κ β γ : Type} [DecidableEq κ]

/-- In a log with one entry for each key, the entries of a key are its last one. -/
theorem map_filter_of_distinct {log : List (κ × β)} {k : κ}
    (h : log.Pairwise fun entry other => entry.1 ≠ other.1) :
    (log.filter fun entry => entry.1 = k).map Prod.snd = (lastEntry log k).toList := by
  induction log with
  | nil => rfl
  | cons entry rest ih =>
    rcases List.pairwise_cons.1 h with ⟨hfirst, hrest⟩
    have hlast : lastEntry (entry :: rest) k
        = (lastEntry rest k).or (if entry.1 = k then some entry.2 else none) := by
      rw [← List.singleton_append, lastEntry_append]
      congr 1
      by_cases hkey : entry.1 = k
      · simp [lastEntry, hkey]
      · simp [lastEntry, hkey]
    rw [List.filter_cons, hlast]
    by_cases hkey : entry.1 = k
    · have hnone : lastEntry rest k = none := by
        apply lastEntry_eq_none
        intro value hvalue
        exact hfirst (k, value) hvalue hkey
      rw [hnone] at ih ⊢
      simpa [hkey] using ih hrest
    · simpa [hkey] using ih hrest

variable [Ord κ] [TransOrd κ] [LawfulEqOrd κ]

/-- The entries of a map that a function keeps, read as a log. -/
theorem lastEntry_filterMap_toList (table : ExtTreeMap κ β) (f : κ → β → Option γ) (k : κ) :
    lastEntry (table.toList.filterMap fun entry =>
        (f entry.1 entry.2).map fun kept => (entry.1, kept)) k
      = table[k]?.bind (f k) := by
  have hmem : ∀ key kept, (key, kept) ∈ table.toList.filterMap (fun entry =>
        (f entry.1 entry.2).map fun kept => (entry.1, kept))
      ↔ table[key]?.bind (f key) = some kept := by
    intro key kept
    simp only [List.mem_filterMap, Prod.exists, Option.map_eq_some_iff, Prod.mk.injEq,
      ExtTreeMap.mem_toList_iff_getElem?_eq_some, Option.bind_eq_some_iff]
    constructor
    · rintro ⟨key', value, hvalue, kept', hkept, rfl, rfl⟩
      exact ⟨value, hvalue, hkept⟩
    · rintro ⟨value, hvalue, hkept⟩
      exact ⟨key, value, hvalue, kept, hkept, rfl, rfl⟩
  rcases hfound : table[k]?.bind (f k) with _ | kept
  · apply lastEntry_eq_none
    intro value hvalue
    rw [hmem, hfound] at hvalue
    cases hvalue
  · apply lastEntry_of_forall ((hmem k kept).2 hfound)
    intro value hvalue
    rw [hmem, hfound] at hvalue
    exact (Option.some.inj hvalue).symm

end Distinct

/-- The keys of a set that pass a test. -/
theorem mem_filter_keys {κ : Type} [Ord κ] [TransOrd κ] [LawfulEqOrd κ] {keys : ExtTreeSet κ}
    {keep : κ → Bool} {k : κ} : k ∈ keys.filter keep ↔ k ∈ keys ∧ keep k := by
  rw [← ExtTreeSet.mem_toList, ExtTreeSet.toList_filter, List.mem_filter, ExtTreeSet.mem_toList]

/-! ## The tables -/

section ListTable

variable {κ β : Type} [Ord κ] [TransOrd κ]

/-- What a table holds for a key. -/
def entriesOf (table : ExtTreeMap κ (List β)) (k : κ) : List β := table[k]?.getD []

/-- Append to what a table holds for a key. -/
def extendEntry (table : ExtTreeMap κ (List β)) (k : κ) (entries : List β) :
    ExtTreeMap κ (List β) :=
  table.insert k (entriesOf table k ++ entries)

variable [LawfulEqOrd κ]

/-- The table without the keys that fail a test. -/
theorem entriesOf_filter (table : ExtTreeMap κ (List β)) (keep : κ → Bool) (k : κ) :
    entriesOf (table.filter fun key _ => keep key) k
      = if keep k then entriesOf table k else [] := by
  unfold entriesOf
  rw [ExtTreeMap.getElem?_filter']
  rcases table[k]? with _ | entries
  · simp
  · by_cases hkeep : keep k
    · simp [hkeep, Option.filter]
    · simp [hkeep, Option.filter]

variable [DecidableEq κ]

theorem entriesOf_extendEntry (table : ExtTreeMap κ (List β)) (k k' : κ) (entries : List β) :
    entriesOf (extendEntry table k entries) k'
      = if k = k' then entriesOf table k' ++ entries else entriesOf table k' := by
  unfold extendEntry
  rw [entriesOf, ExtTreeMap.getElem?_insert]
  by_cases hkey : k = k'
  · rw [hkey]
    simp
  · simp [hkey, entriesOf]

/-- A batch of extensions appends what it has for each key, in order. -/
theorem entriesOf_foldl_extendEntry (batch : List (κ × List β)) (table : ExtTreeMap κ (List β))
    (k : κ) :
    entriesOf (batch.foldl (fun table entry => extendEntry table entry.1 entry.2) table) k
      = entriesOf table k
        ++ ((batch.filter fun entry => entry.1 = k).map Prod.snd).flatten := by
  induction batch generalizing table with
  | nil => simp
  | cons entry rest ih =>
    rw [List.foldl_cons, ih, entriesOf_extendEntry]
    by_cases hkey : entry.1 = k
    · simp [hkey]
    · simp [hkey]

/-- Of the entries of a table only one is for a key. -/
theorem flatten_toList_filter (table : ExtTreeMap κ (List β)) (k : κ) :
    ((table.toList.filter fun entry => entry.1 = k).map Prod.snd).flatten
      = entriesOf table k := by
  have hdistinct : table.toList.Pairwise fun entry other => entry.1 ≠ other.1 := by
    apply table.distinct_keys_toList.imp
    intro entry other hne heq
    exact hne (heq ▸ ReflOrd.compare_self)
  rw [map_filter_of_distinct hdistinct, lastEntry_toList]
  unfold entriesOf
  rcases table[k]? with _ | entries
  · rfl
  · simp

/-- Appending one table to another. -/
theorem entriesOf_foldl_extendEntry_toList (added table : ExtTreeMap κ (List β)) (k : κ) :
    entriesOf (added.toList.foldl (fun table entry => extendEntry table entry.1 entry.2) table) k
      = entriesOf table k ++ entriesOf added k := by
  rw [entriesOf_foldl_extendEntry, flatten_toList_filter]

end ListTable

end TypePython.Lib
