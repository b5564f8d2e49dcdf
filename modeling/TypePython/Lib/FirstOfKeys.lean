import Mathlib.Data.List.Nodup

/-!
# The first item of each key

Going through a list and keeping an item when its key has not been seen, neither before the list
nor in it.
-/

namespace TypePython.Lib

section

variable {α β κ : Type} [DecidableEq κ] (key : α → κ)

def firstOfKeys : List κ → List α → List α
  | _, [] => []
  | seen, item :: rest =>
    if key item ∈ seen then firstOfKeys seen rest
    else item :: firstOfKeys (key item :: seen) rest

attribute [grind =] firstOfKeys

theorem firstOfKeys_sublist (seen : List κ) (items : List α) :
    List.Sublist (firstOfKeys key seen items) items := by
  induction items generalizing seen with
  | nil => exact List.Sublist.refl []
  | cons item rest ih =>
    rw [firstOfKeys]
    split
    · exact (ih seen).trans (List.sublist_cons_self item rest)
    · exact (ih _).cons_cons item

/-- Only the set of the keys seen matters. -/
theorem firstOfKeys_congr {seen seen' : List κ} (h : ∀ k, k ∈ seen ↔ k ∈ seen') (items : List α) :
    firstOfKeys key seen items = firstOfKeys key seen' items := by
  induction items generalizing seen seen' with
  | nil => rfl
  | cons item rest ih =>
    have hcons : ∀ k, k ∈ key item :: seen ↔ k ∈ key item :: seen' := by
      intro k
      rw [List.mem_cons, List.mem_cons, h k]
    simp only [firstOfKeys, h (key item), ih h, ih hcons]

/-- The key of an item has been seen, or an item with it is kept. -/
theorem exists_mem_firstOfKeys {seen : List κ} {items : List α} {item : α} (h : item ∈ items)
    (hnew : key item ∉ seen) : ∃ kept ∈ firstOfKeys key seen items, key kept = key item := by
  induction items generalizing seen with
  | nil => exact absurd h List.not_mem_nil
  | cons first rest ih =>
    rw [firstOfKeys]
    by_cases hsame : key item = key first
    · rw [if_neg (hsame ▸ hnew)]
      exact ⟨first, List.mem_cons_self, hsame.symm⟩
    · have hrest : item ∈ rest := by
        rcases List.mem_cons.1 h with rfl | hrest
        · exact absurd rfl hsame
        · exact hrest
      split
      · exact ih hrest hnew
      · have hnew' : key item ∉ key first :: seen := by
          rw [List.mem_cons, not_or]
          exact ⟨hsame, hnew⟩
        rcases ih hrest hnew' with ⟨kept, hkept, hkey⟩
        exact ⟨kept, List.mem_cons_of_mem _ hkept, hkey⟩

/-- The keys after the list are those before it and those of the list. -/
theorem mem_append_firstOfKeys (seen : List κ) (items : List α) (k : κ) :
    k ∈ seen ++ (firstOfKeys key seen items).map key ↔ k ∈ seen ∨ k ∈ items.map key := by
  rw [List.mem_append]
  constructor
  · rintro (hseen | hkept)
    · exact .inl hseen
    · exact .inr ((firstOfKeys_sublist key seen items).map key |>.subset hkept)
  · rintro (hseen | hitem)
    · exact .inl hseen
    · by_cases hmem : k ∈ seen
      · exact .inl hmem
      · rcases List.mem_map.1 hitem with ⟨item, hin, rfl⟩
        rcases exists_mem_firstOfKeys key hin hmem with ⟨kept, hkept, hkey⟩
        exact .inr (hkey ▸ List.mem_map_of_mem hkept)

/-- Items whose key has been seen may be left out before. -/
theorem firstOfKeys_filter {seen : List κ} {items : List α} {p : α → Bool}
    (h : ∀ item ∈ items, p item = false → key item ∈ seen) :
    firstOfKeys key seen (items.filter p) = firstOfKeys key seen items := by
  induction items generalizing seen with
  | nil => rfl
  | cons item rest ih =>
    rw [List.forall_mem_cons] at h
    by_cases hp : p item = true
    · rw [List.filter_cons_of_pos hp, firstOfKeys, firstOfKeys, ih h.2,
        ih fun other hother hnot => List.mem_cons_of_mem _ (h.2 other hother hnot)]
    · rw [List.filter_cons_of_neg hp, firstOfKeys, ih h.2,
        if_pos (h.1 (Bool.not_eq_true _ ▸ hp))]

/-- Nothing is left out when the keys are new and differ. -/
theorem firstOfKeys_eq_self_iff {seen : List κ} {items : List α} :
    firstOfKeys key seen items = items
      ↔ (items.map key).Nodup ∧ ∀ item ∈ items, key item ∉ seen := by
  induction items generalizing seen with
  | nil => simp [firstOfKeys]
  | cons item rest ih =>
    rw [List.map_cons, List.nodup_cons, List.forall_mem_cons, firstOfKeys]
    split
    · rename_i hseen
      constructor
      · intro hsame
        have hlength := (firstOfKeys_sublist key seen rest).length_le
        rw [hsame, List.length_cons] at hlength
        omega
      · exact fun h => absurd hseen h.2.1
    · rename_i hnew
      rw [List.cons.injEq, ih]
      constructor
      · rintro ⟨-, hnodup, hrest⟩
        refine ⟨⟨?_, hnodup⟩, hnew, ?_⟩
        · intro hmem
          rcases List.mem_map.1 hmem with ⟨other, hother, hkey⟩
          exact hrest other hother (hkey ▸ List.mem_cons_self)
        · exact fun other hother hmem => hrest other hother (List.mem_cons_of_mem _ hmem)
      · rintro ⟨⟨hfresh, hnodup⟩, -, hrest⟩
        refine ⟨rfl, hnodup, ?_⟩
        intro other hother hmem
        rcases List.mem_cons.1 hmem with hsame | hseen
        · exact hfresh (hsame ▸ List.mem_map_of_mem hother)
        · exact hrest other hother hseen

/-- Items are kept by the keys of what is made of them. -/
theorem firstOfKeys_filterMap {f : β → Option α} {keyOf : β → κ}
    (h : ∀ item made, f item = some made → key made = keyOf item) (seen : List κ) (items : List β) :
    firstOfKeys key seen (items.filterMap f)
      = (firstOfKeys keyOf seen (items.filter fun item => (f item).isSome)).filterMap f := by
  induction items generalizing seen with
  | nil => rfl
  | cons item rest ih =>
    cases hmade : f item with
    | none =>
      rw [List.filterMap_cons_none hmade, List.filter_cons_of_neg (by simp [hmade]), ih]
    | some made =>
      rw [List.filterMap_cons_some hmade, List.filter_cons_of_pos (by simp [hmade]),
        firstOfKeys, firstOfKeys, h item made hmade]
      split
      · exact ih seen
      · rw [List.filterMap_cons_some hmade, ih]

end

end TypePython.Lib
