import Std.Data.ExtTreeMap
import TypePython.Lib.SortDedup

/-!
# Logs of keyed entries

A log of entries, each about one key, the newest last. What a reader of the log knows of a
key is its last entry. Two tables of last entries differ at the keys of `mem_changedKeys`.
-/

namespace TypePython.Lib

open Std

section LastEntry

variable {κ β γ : Type} [DecidableEq κ]

/-- The last value a log has for a key. -/
def lastEntry (log : List (κ × β)) (k : κ) : Option β :=
  (log.reverse.find? fun entry => entry.1 = k).map Prod.snd

theorem lastEntry_nil (k : κ) : lastEntry ([] : List (κ × β)) k = none := rfl

/-- What is appended comes later. -/
theorem lastEntry_append (log batch : List (κ × β)) (k : κ) :
    lastEntry (log ++ batch) k = (lastEntry batch k).or (lastEntry log k) := by
  unfold lastEntry
  rw [List.reverse_append, List.find?_append, Option.map_or]

theorem mem_of_lastEntry {log : List (κ × β)} {k : κ} {value : β}
    (h : lastEntry log k = some value) : (k, value) ∈ log := by
  unfold lastEntry at h
  obtain ⟨⟨k', value'⟩, hfind, rfl⟩ := Option.map_eq_some_iff.1 h
  have hkey : k' = k := by simpa using List.find?_some hfind
  rw [← hkey]
  exact List.mem_reverse.1 (List.mem_of_find?_eq_some hfind)

theorem lastEntry_eq_none {log : List (κ × β)} {k : κ} (h : ∀ value, (k, value) ∉ log) :
    lastEntry log k = none := by
  unfold lastEntry
  rw [Option.map_eq_none_iff, List.find?_eq_none]
  rintro ⟨k', value⟩ hentry hkey
  have hk : k' = k := by simpa using hkey
  rw [hk] at hentry
  exact h value (List.mem_reverse.1 hentry)

/-- A key with an entry has a last one. -/
theorem exists_lastEntry {log : List (κ × β)} {k : κ} {value : β} (h : (k, value) ∈ log) :
    ∃ last, lastEntry log k = some last := by
  rcases hlast : lastEntry log k with _ | last
  · have hfind := List.find?_eq_none.1 (Option.map_eq_none_iff.1 hlast) (k, value)
      (List.mem_reverse.2 h)
    simp at hfind
  · exact ⟨last, rfl⟩

/-- An entry that all entries of its key agree with is the last one. -/
theorem lastEntry_of_forall {log : List (κ × β)} {k : κ} {value : β} (hmem : (k, value) ∈ log)
    (hall : ∀ value', (k, value') ∈ log → value' = value) : lastEntry log k = some value := by
  unfold lastEntry
  rcases hfind : log.reverse.find? fun entry => entry.1 = k with _ | ⟨k', value'⟩
  · have hnot := List.find?_eq_none.1 hfind (k, value) (List.mem_reverse.2 hmem)
    simp at hnot
  · have hkey : k' = k := by simpa using List.find?_some hfind
    have hentry : (k', value') ∈ log := List.mem_reverse.1 (List.mem_of_find?_eq_some hfind)
    rw [hkey] at hentry
    rw [hfind, Option.map_some, hall value' hentry]

/-- One value for a list of keys. -/
theorem lastEntry_map_const (keys : List κ) (value : β) (k : κ) :
    lastEntry (keys.map fun key => (key, value)) k = if k ∈ keys then some value else none := by
  split
  · rename_i hmem
    apply lastEntry_of_forall
    · exact List.mem_map.2 ⟨k, hmem, rfl⟩
    · intro value' hentry
      obtain ⟨key, -, heq⟩ := List.mem_map.1 hentry
      cases heq
      rfl
  · rename_i hmem
    apply lastEntry_eq_none
    intro value' hentry
    obtain ⟨key, hkey, heq⟩ := List.mem_map.1 hentry
    cases heq
    exact hmem hkey

/-- The entries of a map, read as a log. -/
theorem lastEntry_toList [Ord κ] [TransOrd κ] [LawfulEqOrd κ] (table : ExtTreeMap κ β) (k : κ) :
    lastEntry table.toList k = table[k]? := by
  rcases hfound : table[k]? with _ | value
  · apply lastEntry_eq_none
    intro value hentry
    rw [ExtTreeMap.mem_toList_iff_getElem?_eq_some, hfound] at hentry
    cases hentry
  · apply lastEntry_of_forall (ExtTreeMap.mem_toList_iff_getElem?_eq_some.2 hfound)
    intro value' hentry
    rw [ExtTreeMap.mem_toList_iff_getElem?_eq_some, hfound] at hentry
    exact (Option.some.inj hentry).symm

/-- Only the entries of a key matter to it. -/
theorem lastEntry_congr {log log' : List (κ × β)} {k : κ}
    (h : (log.filter fun entry => entry.1 = k) = log'.filter fun entry => entry.1 = k) :
    lastEntry log k = lastEntry log' k := by
  have hfilter : ∀ log : List (κ × β), lastEntry log k
      = ((log.filter fun entry => entry.1 = k).getLast?).map Prod.snd := by
    intro log
    unfold lastEntry
    rw [← List.head?_filter, List.filter_reverse, List.head?_reverse]
  rw [hfilter, hfilter, h]

/-- Reading the values of a log through a function. -/
theorem lastEntry_map (f : β → γ) (log : List (κ × β)) (k : κ) :
    lastEntry (log.map fun entry => (entry.1, f entry.2)) k = (lastEntry log k).map f := by
  unfold lastEntry
  rw [← List.map_reverse, List.find?_map, Option.map_map, Option.map_map]
  rfl

/-- Entering only the items whose key passes a test. -/
theorem lastEntry_map_filter {α : Type} (key : α → κ) (value : α → β) (keep : κ → Bool)
    (items : List α) (k : κ) :
    lastEntry ((items.filter fun item => keep (key item)).map fun item => (key item, value item)) k
      = if keep k then lastEntry (items.map fun item => (key item, value item)) k else none := by
  by_cases hkeep : keep k
  · rw [if_pos hkeep]
    apply lastEntry_congr
    rw [List.filter_map, List.filter_map, List.filter_filter]
    apply congrArg
    apply List.filter_congr
    intro item _
    by_cases hkey : key item = k
    · simp [hkey, hkeep]
    · simp [hkey]
  · rw [if_neg hkeep]
    apply lastEntry_eq_none
    intro found hfound
    rcases List.mem_map.1 hfound with ⟨item, hitem, heq⟩
    rw [Prod.mk.injEq] at heq
    rw [List.mem_filter, heq.1] at hitem
    exact hkeep hitem.2

/-- Inserting the entries of a log leaves the last one of each key. -/
theorem getElem?_foldl_insert [Ord κ] [TransOrd κ] [LawfulEqOrd κ] (log : List (κ × β))
    (table : ExtTreeMap κ β) (k : κ) :
    (log.foldl (fun table entry => table.insert entry.1 entry.2) table)[k]?
      = (lastEntry log k).or table[k]? := by
  induction log generalizing table with
  | nil => rw [lastEntry_nil]; rfl
  | cons entry rest ih =>
    rw [List.foldl_cons, ih, ← List.singleton_append, lastEntry_append, Option.or_assoc,
      ExtTreeMap.getElem?_insert]
    unfold lastEntry
    by_cases hk : entry.1 = k
    · rw [hk]
      simp [hk]
    · simp [hk]

theorem lastEntry_cons (entry : κ × β) (log : List (κ × β)) (k : κ) :
    lastEntry (entry :: log) k
      = (lastEntry log k).or (if entry.1 = k then some entry.2 else none) := by
  rw [← List.singleton_append, lastEntry_append]
  congr 1
  unfold lastEntry
  by_cases hk : entry.1 = k <;> simp [hk]

/-! ## Entering a log -/

/-- A step that may fail enters a key that is new with its value, and leaves other keys alone. -/
structure Enters {σ : Type} (look : σ → κ → Option β) (step : σ → κ × β → Option σ) : Prop where
  elsewhere : ∀ {state state' k value k'}, step state (k, value) = some state' → k ≠ k' →
    look state' k' = look state k'
  new : ∀ {state state' k value}, step state (k, value) = some state' → look state k = none →
    look state' k = some value

/-- Entering a log of different keys: a key that only one side has keeps its value. -/
theorem Enters.look_foldlM {σ : Type} {look : σ → κ → Option β} {step : σ → κ × β → Option σ}
    (hstep : Enters look step) {log : List (κ × β)} (hkeys : (log.map Prod.fst).Nodup)
    {state state' : σ} (h : log.foldlM step state = some state') {k : κ}
    (hone : look state k = none ∨ lastEntry log k = none) :
    look state' k = (lastEntry log k).or (look state k) := by
  induction log generalizing state with
  | nil =>
    rw [List.foldlM_nil] at h
    cases h
    rfl
  | cons entry rest ih =>
    rw [List.foldlM_cons] at h
    obtain ⟨middle, hmiddle, hrest⟩ := Option.bind_eq_some_iff.1 h
    rw [List.map_cons, List.nodup_cons] at hkeys
    rw [lastEntry_cons] at hone ⊢
    by_cases hk : entry.1 = k
    · -- the key does not come again
      have hnone : lastEntry rest k = none := by
        apply lastEntry_eq_none
        intro value hmem
        rw [hk] at hkeys
        exact hkeys.1 (List.mem_map.2 ⟨(k, value), hmem, rfl⟩)
      rw [hnone, if_pos hk] at hone ⊢
      have hfresh : look state entry.1 = none := by
        rcases hone with hone | hone
        · rw [hk]
          exact hone
        · cases hone
      have hentered := hstep.new hmiddle hfresh
      rw [hk] at hentered
      rw [ih hkeys.2 hrest (.inr hnone), hnone, hentered]
      rfl
    · have hsame := hstep.elsewhere hmiddle hk
      rw [if_neg hk, Option.or_none] at hone ⊢
      rw [ih hkeys.2 hrest (hsame ▸ hone), hsame]

end LastEntry

/-- A stable sort by the key keeps the last entries. -/
theorem lastEntry_sortBy {κ α : Type} [LinearOrder κ] (key : α → κ) (items : List α) (k : κ) :
    lastEntry ((sortBy key items).map fun item => (key item, item)) k
      = lastEntry (items.map fun item => (key item, item)) k := by
  apply lastEntry_congr
  rw [List.filter_map, List.filter_map]
  exact congrArg (List.map _) (filter_sortBy key items k)

/-! ## Differences of tables -/

/-- The keys at which two maps differ: those that are new or have another value, and those that
are gone. -/
theorem mem_changedKeys {κ β : Type} [Ord κ] [TransOrd κ] [LawfulEqOrd κ] [DecidableEq β]
    {previous current : ExtTreeMap κ β} {key : κ} :
    key ∈ ((current.toList.filter fun (key, value) =>
          previous[key]? ≠ some value).map Prod.fst)
        ++ previous.keys.filter (fun key => !current.contains key)
      ↔ previous[key]? ≠ current[key]? := by
  rw [List.mem_append]
  constructor
  · rintro (hchanged | hremoved)
    · rcases List.mem_map.1 hchanged with ⟨⟨key, value⟩, hentry, rfl⟩
      rw [List.mem_filter, ExtTreeMap.mem_toList_iff_getElem?_eq_some] at hentry
      rw [hentry.1]
      simpa using hentry.2
    · rw [List.mem_filter, ExtTreeMap.mem_keys] at hremoved
      intro hsame
      have hmem : key ∈ current := by
        rw [ExtTreeMap.mem_iff_isSome_getElem?, ← hsame, ← ExtTreeMap.mem_iff_isSome_getElem?]
        exact hremoved.1
      rw [← ExtTreeMap.contains_iff_mem] at hmem
      rw [hmem] at hremoved
      exact Bool.false_ne_true hremoved.2
  · intro hdiffer
    rcases hcurrent : current[key]? with _ | value
    · -- the key is gone
      right
      rw [hcurrent] at hdiffer
      rw [List.mem_filter, ExtTreeMap.mem_keys, ExtTreeMap.mem_iff_isSome_getElem?]
      constructor
      · exact Option.isSome_iff_ne_none.2 hdiffer
      · rw [Bool.not_eq_true', ← Bool.not_eq_true, ExtTreeMap.contains_iff_mem,
          ExtTreeMap.mem_iff_isSome_getElem?, hcurrent]
        exact Bool.false_ne_true
    · left
      rw [hcurrent] at hdiffer
      refine List.mem_map.2 ⟨(key, value), ?_, rfl⟩
      rw [List.mem_filter, ExtTreeMap.mem_toList_iff_getElem?_eq_some]
      exact ⟨hcurrent, by simpa using hdiffer⟩

end TypePython.Lib
