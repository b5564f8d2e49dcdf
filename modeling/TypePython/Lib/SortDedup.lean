import Mathlib.Data.List.Sort

/-!
# Sorting by a key and removing neighbours

`sortBy` is the stable sort by a key, `dedupBy` keeps the first of every run of neighbours
with one key. Together they keep one item for each key of the list.
-/

namespace TypePython.Lib

section

variable {α κ : Type}

/-- The stable sort by a key. -/
def sortBy [LE κ] [DecidableLE κ] (key : α → κ) (items : List α) : List α :=
  items.insertionSort fun a b => key a ≤ key b

theorem perm_sortBy [LE κ] [DecidableLE κ] (key : α → κ) (items : List α) :
    (sortBy key items).Perm items :=
  List.perm_insertionSort _ items

variable [DecidableEq κ]

/-- Drop the items at the front of the list that have the key `k`, and the first of every
later run stays. -/
def dedupFrom (key : α → κ) (k : κ) : List α → List α
  | [] => []
  | a :: rest => if key a = k then dedupFrom key k rest else a :: dedupFrom key (key a) rest

/-- Keep the first of every run of neighbours with one key. -/
def dedupBy (key : α → κ) : List α → List α
  | [] => []
  | a :: rest => a :: dedupFrom key (key a) rest

theorem exists_mem_dedupFrom (key : α → κ) (items : List α) (k x : κ) (hx : x ≠ k) :
    (∃ a ∈ dedupFrom key k items, key a = x) ↔ ∃ a ∈ items, key a = x := by
  induction items generalizing k with
  | nil => simp [dedupFrom]
  | cons a rest ih =>
    by_cases hak : key a = k
    · simp [dedupFrom, hak, ih k hx, Ne.symm hx]
    · by_cases hxa : x = key a
      · simp [dedupFrom, hak, hxa]
      · have hax : ¬ key a = x := fun h => hxa h.symm
        simp [dedupFrom, hak, hax, ih (key a) hxa]

/-- The keys that occur are the same before and after. -/
theorem exists_mem_dedupBy (key : α → κ) (items : List α) (x : κ) :
    (∃ a ∈ dedupBy key items, key a = x) ↔ ∃ a ∈ items, key a = x := by
  cases items with
  | nil => simp [dedupBy]
  | cons a rest =>
    by_cases hxa : x = key a
    · simp [dedupBy, hxa]
    · have hax : ¬ key a = x := fun h => hxa h.symm
      simp [dedupBy, hax, exists_mem_dedupFrom key rest (key a) x hxa]

theorem mem_of_mem_dedupFrom (key : α → κ) (items : List α) (k : κ) {a : α}
    (ha : a ∈ dedupFrom key k items) : a ∈ items := by
  induction items generalizing k with
  | nil => simp [dedupFrom] at ha
  | cons b rest ih =>
    by_cases hbk : key b = k
    · exact List.mem_cons_of_mem b (ih k (by simpa [dedupFrom, hbk] using ha))
    · have hcases : a = b ∨ a ∈ dedupFrom key (key b) rest := by
        simpa [dedupFrom, hbk] using ha
      rcases hcases with rfl | hrest
      · exact List.mem_cons_self
      · exact List.mem_cons_of_mem b (ih (key b) hrest)

theorem mem_of_mem_dedupBy (key : α → κ) (items : List α) {a : α}
    (ha : a ∈ dedupBy key items) : a ∈ items := by
  cases items with
  | nil => simp [dedupBy] at ha
  | cons b rest =>
    rcases List.mem_cons.1 ha with rfl | hrest
    · exact List.mem_cons_self
    · exact List.mem_cons_of_mem b (mem_of_mem_dedupFrom key rest (key b) hrest)

/-- Sorting and removing neighbours keeps the keys of the list. -/
theorem exists_mem_dedupBy_sortBy [LE κ] [DecidableLE κ] (key : α → κ) (items : List α) (x : κ) :
    (∃ a ∈ dedupBy key (sortBy key items), key a = x) ↔ ∃ a ∈ items, key a = x := by
  rw [exists_mem_dedupBy]
  have hperm := perm_sortBy key items
  constructor
  · rintro ⟨a, ha, hax⟩
    exact ⟨a, hperm.mem_iff.1 ha, hax⟩
  · rintro ⟨a, ha, hax⟩
    exact ⟨a, hperm.mem_iff.2 ha, hax⟩

theorem dedupBy_eq_nil_iff (key : α → κ) (items : List α) : dedupBy key items = [] ↔ items = [] := by
  cases items <;> simp [dedupBy]

end

/-! ## What the sorted list determines -/

section Stable

variable {α κ : Type} [LinearOrder κ] {key : α → κ}

theorem pairwise_sortBy (key : α → κ) (items : List α) :
    (sortBy key items).Pairwise fun a b => key a ≤ key b := by
  have htotal : Std.Total fun a b : α => key a ≤ key b := ⟨fun a b => le_total (key a) (key b)⟩
  have htrans : IsTrans α fun a b => key a ≤ key b := ⟨fun a b c => le_trans⟩
  exact List.pairwise_insertionSort _ items

/-- An item of a sorted list stands, behind the items with smaller keys, after items with
its own key only. -/
theorem exists_dropWhile_eq {key : α → κ} {items : List α}
    (hsorted : items.Pairwise fun a b => key a ≤ key b) {a : α} (ha : a ∈ items) :
    ∃ same rest, items.dropWhile (fun b => decide (key b < key a)) = same ++ a :: rest
      ∧ ∀ b ∈ same, key b = key a := by
  induction items with
  | nil => cases ha
  | cons b items ih =>
    rcases List.pairwise_cons.mp hsorted with ⟨hfirst, hitems⟩
    by_cases hlt : key b < key a
    · have hne : a ≠ b := fun h => absurd hlt (by rw [h]; exact lt_irrefl _)
      rw [List.dropWhile_cons_of_pos (by simpa using hlt)]
      exact ih hitems ((List.mem_cons.mp ha).resolve_left hne)
    · rw [List.dropWhile_cons_of_neg (by simpa using hlt)]
      obtain ⟨same, rest, hsplit⟩ := List.append_of_mem ha
      refine ⟨same, rest, hsplit, ?_⟩
      intro c hc
      -- `c` stands between `b`, which is not smaller than `a`, and `a`
      have hbc : key b ≤ key c := by
        have hmem : c ∈ b :: items := hsplit ▸ List.mem_append_left _ hc
        rcases List.mem_cons.mp hmem with rfl | hmem
        · exact le_refl _
        · exact hfirst c hmem
      have hca : key c ≤ key a := by
        rw [hsplit] at hsorted
        exact (List.pairwise_append.mp hsorted).2.2 c hc a List.mem_cons_self
      exact le_antisymm hca (le_trans (not_lt.mp hlt) hbc)

/-- Items with one key stay in order. -/
theorem filter_sortBy (key : α → κ) (items : List α) (k : κ) :
    (sortBy key items).filter (fun a => key a = k) = items.filter fun a => key a = k := by
  have htotal : Std.Total fun a b : α => key a ≤ key b := ⟨fun a b => le_total (key a) (key b)⟩
  have htrans : IsTrans α fun a b => key a ≤ key b := ⟨fun a b c => le_trans⟩
  have hequal : (items.filter fun a => key a = k).Pairwise fun a b => key a ≤ key b := by
    apply List.pairwise_of_forall_mem_list
    intro a ha b hb
    have hak : key a = k := by simpa using (List.mem_filter.1 ha).2
    have hbk : key b = k := by simpa using (List.mem_filter.1 hb).2
    rw [hak, hbk]
  have hsub : List.Sublist (items.filter fun a => key a = k) (sortBy key items) :=
    List.sublist_insertionSort hequal List.filter_sublist
  have hfilter := hsub.filter fun a => key a = k
  rw [List.filter_filter] at hfilter
  simp only [Bool.and_self] at hfilter
  exact (hfilter.eq_of_length ((perm_sortBy key items).filter _).length_eq.symm).symm

/-- A sorted list is known by its items for each key. -/
theorem eq_of_pairwise_of_filter {items items' : List α}
    (hsorted : items.Pairwise fun a b => key a ≤ key b)
    (hsorted' : items'.Pairwise fun a b => key a ≤ key b)
    (h : ∀ k, (items.filter fun a => key a = k) = items'.filter fun a => key a = k) :
    items = items' := by
  induction items generalizing items' with
  | nil =>
    cases items' with
    | nil => rfl
    | cons b rest' =>
      have hb := h (key b)
      simp at hb
  | cons a rest ih =>
    cases items' with
    | nil =>
      have ha := h (key a)
      simp at ha
    | cons b rest' =>
      rw [List.pairwise_cons] at hsorted hsorted'
      -- each head is the least item of its list
      have hab : key a = key b := by
        apply le_antisymm
        · have hmem : b ∈ (a :: rest).filter fun c => key c = key b := by
            rw [h]
            simp
          rcases List.mem_cons.1 (List.mem_of_mem_filter hmem) with rfl | hrest
          · exact le_rfl
          · exact hsorted.1 b hrest
        · have hmem : a ∈ (b :: rest').filter fun c => key c = key a := by
            rw [← h]
            simp
          rcases List.mem_cons.1 (List.mem_of_mem_filter hmem) with rfl | hrest
          · exact le_rfl
          · exact hsorted'.1 a hrest
      have hheads := h (key a)
      simp only [hab, decide_true, List.filter_cons_of_pos, List.cons.injEq] at hheads
      rw [hheads.1, ih hsorted.2 hsorted'.2]
      intro k
      have hk := h k
      rw [hheads.1] at hk
      by_cases hbk : key b = k
      · simpa [List.filter_cons, hbk] using hk
      · simpa [List.filter_cons, hbk] using hk

/-- Two lists sort to the same list when they have the same items for each key, in order. -/
theorem sortBy_eq_iff {items items' : List α} :
    sortBy key items = sortBy key items'
      ↔ ∀ k, (items.filter fun a => key a = k) = items'.filter fun a => key a = k := by
  constructor
  · intro h k
    rw [← filter_sortBy, h, filter_sortBy]
  · intro h
    apply eq_of_pairwise_of_filter (pairwise_sortBy key items) (pairwise_sortBy key items')
    intro k
    rw [filter_sortBy, filter_sortBy, h]

/-- Of neighbours with one key the first stays. -/
theorem filter_dedupFrom {items : List α} {k : κ}
    (hsorted : items.Pairwise fun a b => key a ≤ key b) (hle : ∀ a ∈ items, k ≤ key a) (x : κ) :
    (dedupFrom key k items).filter (fun a => key a = x)
      = if x = k then [] else (items.find? fun a => key a = x).toList := by
  induction items generalizing k with
  | nil => simp [dedupFrom]
  | cons a rest ih =>
    rw [List.pairwise_cons] at hsorted
    by_cases hak : key a = k
    · have hrest := ih hsorted.2 fun b hb => hle b (List.mem_cons_of_mem a hb)
      unfold dedupFrom
      rw [if_pos hak, hrest]
      by_cases hxk : x = k
      · rw [if_pos hxk, if_pos hxk]
      · have hax : key a ≠ x := fun h => hxk (h.symm.trans hak)
        rw [if_neg hxk, if_neg hxk, List.find?_cons, decide_eq_false hax]
    · have hrest := ih hsorted.2 hsorted.1
      have hlt : k < key a := lt_of_le_of_ne (hle a List.mem_cons_self) (Ne.symm hak)
      unfold dedupFrom
      rw [if_neg hak, List.filter_cons, hrest, List.find?_cons]
      by_cases hax : key a = x
      · have hxk : x ≠ k := fun h => hak (hax.trans h)
        simp [hax, hxk]
      · have hxa : x ≠ key a := Ne.symm hax
        by_cases hxk : x = k
        · -- nothing of the rest is as small as this
          have hnone : rest.find? (fun b => key b = x) = none := by
            rw [List.find?_eq_none]
            intro b hb hbx
            have hbx' : key b = x := by simpa using hbx
            have hab := hsorted.1 b hb
            rw [hbx', hxk] at hab
            exact absurd hlt (not_lt_of_ge hab)
          rw [if_pos hxk, if_neg hxa, hnone, decide_eq_false hax]
          rfl
        · simp [hax, hxa, hxk]

theorem pairwise_dedupFrom {items : List α} (k : κ)
    (hsorted : items.Pairwise fun a b => key a ≤ key b) :
    (dedupFrom key k items).Pairwise fun a b => key a ≤ key b := by
  induction items generalizing k with
  | nil => exact List.Pairwise.nil
  | cons a rest ih =>
    rw [List.pairwise_cons] at hsorted
    unfold dedupFrom
    split
    · exact ih k hsorted.2
    · rw [List.pairwise_cons]
      exact ⟨fun b hb => hsorted.1 b (mem_of_mem_dedupFrom key rest _ hb), ih (key a) hsorted.2⟩

theorem filter_dedupBy_sortBy (key : α → κ) (items : List α) (x : κ) :
    (dedupBy key (sortBy key items)).filter (fun a => key a = x)
      = (items.find? fun a => key a = x).toList := by
  have hfind : (sortBy key items).find? (fun a => key a = x) = items.find? fun a => key a = x := by
    rw [← List.head?_filter, ← List.head?_filter, filter_sortBy]
  have hsorted := pairwise_sortBy key items
  rw [← hfind]
  cases hitems : sortBy key items with
  | nil => rfl
  | cons a rest =>
    rw [hitems, List.pairwise_cons] at hsorted
    unfold dedupBy
    rw [List.filter_cons, filter_dedupFrom hsorted.2 hsorted.1, List.find?_cons]
    by_cases hax : key a = x
    · simp [hax]
    · have hxa : x ≠ key a := Ne.symm hax
      simp [hax, hxa]

/-- Sorted and without duplicates, two lists agree when the first items of each key do. -/
theorem dedupBy_sortBy_eq_iff {items items' : List α} :
    dedupBy key (sortBy key items) = dedupBy key (sortBy key items')
      ↔ ∀ k, (items.find? fun a => key a = k) = items'.find? fun a => key a = k := by
  have hpairwise : ∀ list : List α, (dedupBy key (sortBy key list)).Pairwise
      fun a b => key a ≤ key b := by
    intro list
    have hsorted := pairwise_sortBy key list
    cases hlist : sortBy key list with
    | nil => exact List.Pairwise.nil
    | cons a rest =>
      rw [hlist, List.pairwise_cons] at hsorted
      exact List.pairwise_cons.2
        ⟨fun b hb => hsorted.1 b (mem_of_mem_dedupFrom key rest _ hb),
          pairwise_dedupFrom (key a) hsorted.2⟩
  constructor
  · intro h k
    have hk := filter_dedupBy_sortBy key items k
    rw [h, filter_dedupBy_sortBy] at hk
    simpa using (congrArg List.head? hk).symm
  · intro h
    apply eq_of_pairwise_of_filter (hpairwise items) (hpairwise items')
    intro k
    rw [filter_dedupBy_sortBy, filter_dedupBy_sortBy, h]

end Stable

/-! ## Groups -/

section Groups

variable {α β γ κ : Type}

/-- Lists that agree under some functions agree under whatever these decide. -/
theorem map_eq_map_of_map_eq {f f' : α → β} {g g' : α → γ} {items items' : List α}
    (h : items.map f = items'.map f')
    (hfg : ∀ a ∈ items, ∀ b ∈ items', f a = f' b → g a = g' b) : items.map g = items'.map g' := by
  induction items generalizing items' with
  | nil =>
    rw [List.map_nil, eq_comm, List.map_eq_nil_iff] at h
    rw [h]
    rfl
  | cons a rest ih =>
    cases items' with
    | nil => cases h
    | cons b rest' =>
      rw [List.map_cons, List.map_cons, List.cons.injEq] at h
      rw [List.map_cons, List.map_cons,
        hfg a List.mem_cons_self b List.mem_cons_self h.1, ih h.2]
      intro a' ha' b' hb'
      exact hfg a' (List.mem_cons_of_mem a ha') b' (List.mem_cons_of_mem b hb')

/-- Lists that agree under `f` everywhere, and under `g` within each group, agree under both. -/
theorem map_pair_eq_of_groups [DecidableEq κ] {f : α → β} {g : α → γ} (group : β → κ)
    {items items' : List α} (hf : items.map f = items'.map f)
    (hg : ∀ k, (items.filter fun a => group (f a) = k).map g
      = (items'.filter fun a => group (f a) = k).map g) :
    items.map (fun a => (f a, g a)) = items'.map fun a => (f a, g a) := by
  induction items generalizing items' with
  | nil =>
    rw [List.map_nil, eq_comm, List.map_eq_nil_iff] at hf
    rw [hf]
  | cons a rest ih =>
    cases items' with
    | nil => cases hf
    | cons b rest' =>
      rw [List.map_cons, List.map_cons, List.cons.injEq] at hf
      -- both heads are the first of their group
      have hheads := hg (group (f a))
      rw [List.filter_cons_of_pos (by simp), List.filter_cons_of_pos (by simp [hf.1]),
        List.map_cons, List.map_cons, List.cons.injEq] at hheads
      rw [List.map_cons, List.map_cons, hf.1, hheads.1, ih hf.2]
      intro k
      by_cases hk : group (f a) = k
      · rw [← hk]
        exact hheads.2
      · have hk' : ¬ group (f b) = k := by rwa [← hf.1]
        have hrest := hg k
        rwa [List.filter_cons_of_neg (by simpa using hk),
          List.filter_cons_of_neg (by simpa using hk')] at hrest

/-- The first item of a key, when the key decides the item. -/
theorem find?_eq_ite [DecidableEq κ] (key : α → κ) (value : κ → α) {items : List α}
    (h : ∀ a ∈ items, a = value (key a)) (k : κ) :
    (items.find? fun a => key a = k) = if k ∈ items.map key then some (value k) else none := by
  split
  · rename_i hmem
    rcases hfind : items.find? fun a => key a = k with _ | a
    · rcases List.mem_map.1 hmem with ⟨a, ha, hak⟩
      have hnot := List.find?_eq_none.1 hfind a ha
      simp [hak] at hnot
    · have hkey : key a = k := by simpa using List.find?_some hfind
      rw [h a (List.mem_of_find?_eq_some hfind), hkey]
  · rename_i hmem
    rw [List.find?_eq_none]
    intro a ha hak
    exact hmem (List.mem_map.2 ⟨a, ha, by simpa using hak⟩)

end Groups

end TypePython.Lib
