import Mathlib.Data.List.Induction
import Mathlib.Data.List.Nodup

/-!
# Lists with one item for each key

Two ways to put an item into a list that may have one of its key: in the place of that one, as a
dictionary that keeps its insertion order does, or behind all others. `override` and `replace` say
what a whole list put in item by item comes to (`foldl_moveToEnd`, `foldl_setItem`), and
`kept_append_iff` when the two ways give one list. `lastItem` looks a key up.
-/

namespace TypePython.Lib

section

variable {α κ : Type} [DecidableEq κ] (key : α → κ)

/-- Put an item behind all others, and take the one with its key out. -/
def moveToEnd (items : List α) (item : α) : List α :=
  items.eraseP (fun other => key other = key item) ++ [item]

/-- Put an item in the place of the one with its key, else behind all others. -/
def setItem (items : List α) (item : α) : List α :=
  if key item ∈ items.map key then
    items.map fun other => if key other = key item then item else other
  else items ++ [item]

/-- The items of a list that a later one has no item for, and the later one. -/
def override (items later : List α) : List α :=
  items.filter (fun item => key item ∉ later.map key) ++ later

/-- What a list has in the place of an item: its own one of that key, if it has one. -/
def replacement (later : List α) (item : α) : α :=
  (later.find? fun other => key other = key item).getD item

/-- The items of a list, those of a later one in their places, and the rest of the later one. -/
def replace (items later : List α) : List α :=
  items.map (replacement key later) ++ later.filter fun item => key item ∉ items.map key

variable {key}

/-! ## Behind all others -/

theorem eraseP_eq_filter {items : List α} {k : κ} (h : (items.map key).Nodup) :
    items.eraseP (fun other => key other = k) = items.filter fun other => key other ≠ k := by
  induction items with
  | nil => rfl
  | cons item rest ih =>
    rw [List.map_cons, List.nodup_cons] at h
    by_cases hkey : key item = k
    · -- the item taken out is the only one with the key
      have hrest : rest.filter (fun other => key other ≠ k) = rest := by
        rw [List.filter_eq_self]
        intro other hother
        have hne : key other ≠ k := fun heq =>
          h.1 (by rw [hkey, ← heq]; exact List.mem_map_of_mem hother)
        exact decide_eq_true hne
      rw [List.eraseP_cons_of_pos (by simp [hkey]), List.filter_cons_of_neg (by simp [hkey]),
        hrest]
    · rw [List.eraseP_cons_of_neg (by simp [hkey]), List.filter_cons_of_pos (by simp [hkey]),
        ih h.2]

theorem nodup_override {items later : List α} (hitems : (items.map key).Nodup)
    (hlater : (later.map key).Nodup) : ((override key items later).map key).Nodup := by
  unfold override
  rw [List.map_append]
  refine List.Nodup.append ?_ hlater ?_
  · exact hitems.sublist ((List.filter_sublist).map key)
  · intro k hk hk'
    rcases List.mem_map.1 hk with ⟨item, hitem, rfl⟩
    exact of_decide_eq_true (List.mem_filter.1 hitem).2 hk'

theorem nodup_moveToEnd {items : List α} (item : α) (h : (items.map key).Nodup) :
    ((moveToEnd key items item).map key).Nodup := by
  unfold moveToEnd
  rw [eraseP_eq_filter h, List.map_append, List.nodup_append]
  refine ⟨h.sublist ((List.filter_sublist).map key), List.nodup_singleton _, ?_⟩
  rintro k hk k' hk' rfl
  rcases List.mem_map.1 hk with ⟨other, hother, hsame⟩
  rw [List.map_singleton, List.mem_singleton, ← hsame] at hk'
  exact of_decide_eq_true (List.mem_filter.1 hother).2 hk'

theorem nodup_foldl_moveToEnd {items : List α} (later : List α) (h : (items.map key).Nodup) :
    ((later.foldl (moveToEnd key) items).map key).Nodup := by
  induction later generalizing items with
  | nil => exact h
  | cons item rest ih => exact ih (nodup_moveToEnd item h)

theorem map_override {β : Type} {f : α → β} {key' : β → κ} (h : ∀ item, key' (f item) = key item)
    (items later : List α) :
    (override key items later).map f = override key' (items.map f) (later.map f) := by
  unfold override
  rw [List.map_append, List.filter_map, List.map_map]
  have hkeys : key' ∘ f = key := funext h
  rw [hkeys]
  congr 2
  apply List.filter_congr
  intro item _
  simp only [Function.comp, h]

/-- Items put behind all others, one after the other. -/
theorem foldl_moveToEnd {items later : List α} (hitems : (items.map key).Nodup)
    (hlater : (later.map key).Nodup) :
    later.foldl (moveToEnd key) items = override key items later := by
  induction later using List.reverseRecOn with
  | nil => simp [override]
  | append_singleton later item ih =>
    rw [List.map_append, List.nodup_append] at hlater
    have hinit := ih hlater.1
    have hfresh : key item ∉ later.map key := fun hmem =>
      hlater.2.2 (key item) hmem (key item) (by simp) rfl
    rw [List.foldl_append, List.foldl_cons, List.foldl_nil, hinit, moveToEnd,
      eraseP_eq_filter (nodup_override hitems hlater.1)]
    have hself : later.filter (fun other => key other ≠ key item) = later := by
      rw [List.filter_eq_self]
      intro other hother
      exact decide_eq_true fun heq => hfresh (heq ▸ List.mem_map_of_mem hother)
    unfold override
    rw [List.filter_append, List.filter_filter, hself, List.append_assoc]
    congr 1
    apply List.filter_congr
    intro other _
    simp only [List.map_append, List.mem_append, List.map_singleton, List.mem_singleton, not_or,
      ne_eq, Bool.decide_and, Bool.and_comm]

/-! ## In place -/

theorem map_setItem {items : List α} {item : α} :
    (setItem key items item).map key
      = if key item ∈ items.map key then items.map key else items.map key ++ [key item] := by
  unfold setItem
  split
  · rw [List.map_map]
    apply List.map_congr_left
    intro other _
    by_cases hkey : key other = key item
    · simp [hkey]
    · simp [hkey]
  · rw [List.map_append]
    rfl

theorem nodup_setItem {items : List α} (item : α) (h : (items.map key).Nodup) :
    ((setItem key items item).map key).Nodup := by
  rw [map_setItem]
  split
  · exact h
  · next hfresh =>
      rw [List.nodup_append]
      refine ⟨h, List.nodup_singleton _, ?_⟩
      rintro k hk k' hk' rfl
      rw [List.mem_singleton] at hk'
      exact hfresh (hk' ▸ hk)

theorem nodup_foldl_setItem {items : List α} (later : List α) (h : (items.map key).Nodup) :
    ((later.foldl (setItem key) items).map key).Nodup := by
  induction later generalizing items with
  | nil => exact h
  | cons item rest ih => exact ih (nodup_setItem item h)

theorem replacement_append_singleton {later : List α} {item other : α}
    (hfresh : key item ∉ later.map key) :
    replacement key (later ++ [item]) other
      = if key other = key item then item else replacement key later other := by
  unfold replacement
  rw [List.find?_append]
  by_cases hkey : key other = key item
  · have hnone : later.find? (fun later => key later = key other) = none := by
      rw [List.find?_eq_none]
      intro entry hentry heq
      exact hfresh (by rw [← hkey, ← of_decide_eq_true heq]; exact List.mem_map_of_mem hentry)
    rw [hnone]
    simp [hkey]
  · have hnone : [item].find? (fun later => key later = key other) = none := by
      rw [List.find?_eq_none]
      intro entry hentry heq
      rw [List.mem_singleton.1 hentry] at heq
      exact hkey (of_decide_eq_true heq).symm
    rw [hnone, Option.or_none, if_neg hkey]

theorem key_replacement {later : List α} {item : α} :
    key (replacement key later item) = key item := by
  unfold replacement
  cases hfound : later.find? (fun other => key other = key item) with
  | none => rfl
  | some other => simpa using List.find?_some hfound

/-- Items put in place, one after the other. -/
theorem foldl_setItem {items later : List α} (hlater : (later.map key).Nodup) :
    later.foldl (setItem key) items = replace key items later := by
  induction later using List.reverseRecOn with
  | nil =>
    have hplaces : items.map (replacement key []) = items := by
      conv_rhs => rw [← List.map_id items]
      exact List.map_congr_left fun other _ => rfl
    simp [replace, hplaces]
  | append_singleton later item ih =>
    rw [List.map_append, List.nodup_append] at hlater
    have hfresh : key item ∉ later.map key := fun hmem =>
      hlater.2.2 (key item) hmem (key item) (by simp) rfl
    have hkeys : ∀ k, k ∈ (replace key items later).map key
        ↔ k ∈ items.map key ∨ k ∈ later.map key := by
      intro k
      unfold replace
      rw [List.map_append, List.map_map, List.mem_append]
      have hplaces : items.map (key ∘ replacement key later) = items.map key :=
        List.map_congr_left fun other _ => key_replacement
      rw [hplaces]
      constructor
      · rintro (h | h)
        · exact .inl h
        · rcases List.mem_map.1 h with ⟨other, hother, rfl⟩
          exact .inr (List.mem_map_of_mem (List.mem_of_mem_filter hother))
      · intro h
        by_cases hmem : k ∈ items.map key
        · exact .inl hmem
        · rcases List.mem_map.1 (h.resolve_left hmem) with ⟨other, hother, rfl⟩
          exact .inr (List.mem_map_of_mem (List.mem_filter.2 ⟨hother, decide_eq_true hmem⟩))
    have hplaces : items.map (replacement key (later ++ [item]))
        = (items.map (replacement key later)).map fun other =>
            if key other = key item then item else other := by
      rw [List.map_map]
      apply List.map_congr_left
      intro other _
      have hkey : key (replacement key later other) = key other := key_replacement
      rw [replacement_append_singleton hfresh, Function.comp, hkey]
    rw [List.foldl_append, List.foldl_cons, List.foldl_nil, ih hlater.1, setItem]
    have hself : (later.filter fun other => key other ∉ items.map key).map
          (fun other => if key other = key item then item else other)
        = later.filter fun other => key other ∉ items.map key := by
      conv_rhs => rw [← List.map_id (later.filter _)]
      apply List.map_congr_left
      intro other hother
      have hne : key other ≠ key item := fun heq =>
        hfresh (heq ▸ List.mem_map_of_mem (List.mem_of_mem_filter hother))
      rw [if_neg hne]
      rfl
    by_cases hmem : key item ∈ items.map key
    · rw [if_pos ((hkeys _).2 (.inl hmem))]
      unfold replace
      have hold : decide (key item ∉ items.map key) = false := by
        rw [decide_eq_false_iff_not, not_not]
        exact hmem
      rw [List.map_append, hself, hplaces, List.filter_append, List.filter_cons_of_neg (by
        rw [hold]; exact Bool.false_ne_true), List.filter_nil, List.append_nil]
    · have hnew : key item ∉ (replace key items later).map key := fun h =>
        ((hkeys _).1 h).elim hmem hfresh
      rw [if_neg hnew]
      unfold replace
      rw [hplaces, List.filter_append, ← List.append_assoc]
      congr 1
      · congr 1
        -- no place of the list has the key of the item
        rw [List.map_map]
        apply List.map_congr_left
        intro other hother
        have hne : key other ≠ key item := fun heq => hmem (heq ▸ List.mem_map_of_mem hother)
        have hplace : key (replacement key later other) ≠ key item :=
          fun heq => hne (key_replacement.symm.trans heq)
        rw [Function.comp, if_neg hplace]
      · rw [List.filter_cons_of_pos (by exact decide_eq_true hmem), List.filter_nil]

end

/-! ## The last item of a key -/

section

variable {α κ : Type} [DecidableEq κ] (key : α → κ)

def lastItem (items : List α) (k : κ) : Option α := items.reverse.find? fun item => key item = k

variable {key}

theorem key_lastItem {items : List α} {k : κ} {item : α} (h : lastItem key items k = some item) :
    key item = k := by
  simpa using List.find?_some h

/-- Where every key has one item, each item is the last of its key. -/
theorem mem_iff_lastItem {items : List α} (h : (items.map key).Nodup) (item : α) :
    item ∈ items ↔ lastItem key items (key item) = some item := by
  constructor
  · intro hmem
    unfold lastItem
    cases hfound : items.reverse.find? fun other => key other = key item with
    | none =>
      have hnone := List.find?_eq_none.1 hfound item (List.mem_reverse.2 hmem)
      simp at hnone
    | some other =>
      have hother := List.mem_reverse.1 (List.mem_of_find?_eq_some hfound)
      have hkey : key other = key item := by simpa using List.find?_some hfound
      rw [List.inj_on_of_nodup_map h hother hmem hkey]
  · intro hfound
    exact List.mem_reverse.1 (List.mem_of_find?_eq_some hfound)

theorem lastItem_append (items later : List α) (k : κ) :
    lastItem key (items ++ later) k = (lastItem key later k).or (lastItem key items k) := by
  rw [lastItem, List.reverse_append, List.find?_append]
  rfl

theorem lastItem_singleton (item : α) (k : κ) :
    lastItem key [item] k = if key item = k then some item else none := by
  by_cases hk : key item = k <;> simp [lastItem, hk]

theorem lastItem_map {β : Type} {key' : β → κ} {f : α → β} (h : ∀ item, key' (f item) = key item)
    (items : List α) (k : κ) : lastItem key' (items.map f) k = (lastItem key items k).map f := by
  rw [lastItem, ← List.map_reverse, List.find?_map]
  congr 2
  funext item
  exact congrArg (fun k' => decide (k' = k)) (h item)

theorem lastItem_filter {p : α → Bool} {keep : κ → Bool} {items : List α}
    (h : ∀ item ∈ items, p item = keep (key item)) (k : κ) :
    lastItem key (items.filter p) k = if keep k then lastItem key items k else none := by
  rw [List.filter_congr h, lastItem, ← List.filter_reverse, List.find?_filter]
  by_cases hkeep : keep k
  · rw [if_pos hkeep]
    congr 1
    funext item
    by_cases hk : key item = k
    · simp [hk, hkeep]
    · simp [hk]
  · rw [if_neg hkeep, List.find?_eq_none]
    intro item _
    by_cases hk : key item = k
    · simp [hk, hkeep]
    · simp [hk]

theorem lastItem_setItem (items : List α) (item : α) (k : κ) :
    lastItem key (setItem key items item) k
      = if key item = k then some item else lastItem key items k := by
  unfold setItem
  split
  · next hmem =>
      -- the items in place have the keys that were there
      have hkey : ∀ other, key (if key other = key item then item else other) = key other := by
        intro other
        split
        · next hsame => exact hsame.symm
        · rfl
      rw [lastItem_map hkey]
      by_cases hk : key item = k
      · rw [if_pos hk]
        cases hlast : lastItem key items k with
        | none =>
          obtain ⟨other, hother, hsame⟩ := List.mem_map.1 hmem
          have hnot := List.find?_eq_none.1 hlast other (List.mem_reverse.2 hother)
          simp [hsame, hk] at hnot
        | some other =>
          have hother := key_lastItem hlast
          rw [Option.map_some, if_pos (hother.trans hk.symm)]
      · rw [if_neg hk]
        cases hlast : lastItem key items k with
        | none => rfl
        | some other =>
          have hother := key_lastItem hlast
          rw [Option.map_some, if_neg fun hsame => hk (hsame.symm.trans hother)]
  · rw [lastItem_append, lastItem_singleton]
    by_cases hk : key item = k <;> simp [hk]

/-- The items put in last are found. -/
theorem lastItem_foldl_setItem (later items : List α) (k : κ) :
    lastItem key (later.foldl (setItem key) items) k
      = (lastItem key later k).or (lastItem key items k) := by
  induction later generalizing items with
  | nil => rfl
  | cons item rest ih =>
    rw [List.foldl_cons, ih, lastItem_setItem, ← List.singleton_append, lastItem_append,
      lastItem_singleton]
    by_cases hk : key item = k
    · simp [hk]
    · simp [hk]

end

/-! ## Lists with the same items of every kind -/

section

variable {α κ τ : Type} [DecidableEq κ] [DecidableEq τ]

/-- The items of each kind are the same, in the same order. -/
def SameByKind (kind : α → τ) (items items' : List α) : Prop :=
  ∀ k, items.filter (fun item => kind item = k) = items'.filter fun item => kind item = k

variable {kind : α → τ} {key : α → κ}

theorem SameByKind.symm {items items' : List α} (h : SameByKind kind items items') :
    SameByKind kind items' items := fun k => (h k).symm

theorem SameByKind.trans {items items' items'' : List α} (h : SameByKind kind items items')
    (h' : SameByKind kind items' items'') : SameByKind kind items items'' :=
  fun k => (h k).trans (h' k)

theorem SameByKind.mem_iff {items items' : List α} (h : SameByKind kind items items') {item : α} :
    item ∈ items ↔ item ∈ items' := by
  have hfilter : ∀ {entries : List α}, item ∈ entries
      ↔ item ∈ entries.filter fun other => kind other = kind item := by
    intro entries
    simp
  rw [hfilter, h, ← hfilter]

omit [DecidableEq κ] in
theorem SameByKind.mem_map_iff {items items' : List α} (h : SameByKind kind items items') {k : κ} :
    k ∈ items.map key ↔ k ∈ items'.map key := by
  simp only [List.mem_map, h.mem_iff]

theorem SameByKind.filter {items items' : List α} (h : SameByKind kind items items')
    (p : α → Bool) : SameByKind kind (items.filter p) (items'.filter p) := by
  intro k
  rw [List.filter_comm, h k, List.filter_comm]

theorem SameByKind.override {items items' later later' : List α}
    (h : SameByKind kind items items') (hlater : SameByKind kind later later') :
    SameByKind kind (override key items later) (override key items' later') := by
  have htest : ∀ item, decide (key item ∉ later.map key) = decide (key item ∉ later'.map key) := by
    intro item
    simp only [hlater.mem_map_iff]
  intro k
  unfold Lib.override
  simp only [List.filter_append, htest]
  rw [(h.filter _) k, hlater k]

end

/-! ## When both ways agree -/

section

variable {α : Type} {p : α → Prop} [DecidablePred p]

/-- A list that has what fails a test first and what passes it last. -/
theorem filter_append_filter_iff {items : List α} :
    items = items.filter (¬ p ·) ++ items.filter p ↔ items.Pairwise fun a b => p a → p b := by
  induction items with
  | nil => simp
  | cons item rest ih =>
    rw [List.pairwise_cons]
    by_cases hp : p item
    · have hrest : (∀ other ∈ rest, p item → p other) ↔ rest.filter (¬ p ·) = [] := by
        simp [List.filter_eq_nil_iff, hp]
      rw [List.filter_cons_of_neg (by simpa using hp), List.filter_cons_of_pos (by simpa using hp),
        hrest]
      constructor
      · intro h
        have hnil : rest.filter (¬ p ·) = [] := by
          cases hkept : rest.filter (¬ p ·) with
          | nil => rfl
          | cons first others =>
            rw [hkept, List.cons_append, List.cons.injEq] at h
            have hfirst : first ∈ rest.filter (¬ p ·) := hkept ▸ List.mem_cons_self
            exact absurd (h.1 ▸ hp) (by simpa using (List.mem_filter.1 hfirst).2)
        refine ⟨hnil, ih.1 ?_⟩
        rw [hnil, List.nil_append] at h ⊢
        exact (List.cons.inj h).2
      · rintro ⟨hnil, hpair⟩
        have hall := ih.2 hpair
        rw [hnil, List.nil_append] at hall ⊢
        rw [← hall]
    · rw [List.filter_cons_of_pos (by simpa using hp), List.filter_cons_of_neg (by simpa using hp),
        List.cons_append, List.cons.injEq, ih]
      simp [hp]

/-- Items that pass a test are taken out of their places and put behind the rest: nothing changes
when they stand there already, with the new ones behind them. -/
theorem kept_append_iff {kept moved items new : List α} (hmoved : ∀ item ∈ moved, p item)
    (hnew : ∀ item ∈ new, p item) (hkept : kept ++ moved = items ++ new → ∀ item ∈ kept, ¬ p item) :
    kept ++ moved = items ++ new
      ↔ kept = items.filter (¬ p ·) ∧ items.Pairwise (fun a b => p a → p b)
        ∧ moved = items.filter p ++ new := by
  have hnone : ∀ {entries : List α}, (∀ item ∈ entries, p item) →
      entries.filter (¬ p ·) = [] := by
    intro entries h
    simpa [List.filter_eq_nil_iff] using h
  have hself : ∀ {entries : List α}, (∀ item ∈ entries, p item) → entries.filter p = entries := by
    intro entries h
    simpa [List.filter_eq_self] using h
  rw [← filter_append_filter_iff]
  constructor
  · intro h
    have hwithout := hkept h
    have hrest : kept = items.filter (¬ p ·) := by
      have hfilter := congrArg (List.filter (¬ p ·)) h
      rw [List.filter_append, List.filter_append, hnone hmoved, hnone hnew, List.append_nil,
        List.append_nil] at hfilter
      rw [← hfilter, eq_comm, List.filter_eq_self]
      intro item hitem
      simpa using hwithout item hitem
    have hpart : moved = items.filter p ++ new := by
      have hfilter := congrArg (List.filter p) h
      have hnil : kept.filter p = [] := by simpa [List.filter_eq_nil_iff] using hwithout
      rwa [List.filter_append, List.filter_append, hself hmoved, hself hnew, hnil,
        List.nil_append] at hfilter
    refine ⟨hrest, ?_, hpart⟩
    rw [hrest, hpart, ← List.append_assoc] at h
    exact (List.append_cancel_right h).symm
  · rintro ⟨hrest, hitems, hpart⟩
    rw [hrest, hpart, ← List.append_assoc, ← hitems]

end

end TypePython.Lib
