import Mathlib.Data.List.Basic

/-!
# Partial functions over lists

`List.mapM` with a function that may fail: it fails if the function fails anywhere.
-/

namespace TypePython.Lib

variable {α β : Type}

theorem mapM_congr {f g : α → Option β} :
    ∀ {items : List α}, (∀ item ∈ items, f item = g item) → items.mapM f = items.mapM g
  | [], _ => by simp
  | item :: rest, h => by
    rw [List.mapM_cons, List.mapM_cons, h item (by simp),
      mapM_congr fun other hother => h other (List.mem_cons_of_mem _ hother)]

/-- Tests that agree on the items of a list. -/
theorem all_congr_mem {p q : α → Bool} {items : List α} (h : ∀ item ∈ items, p item = q item) :
    items.all p = items.all q := by
  induction items with
  | nil => rfl
  | cons item rest ih =>
    rw [List.forall_mem_cons] at h
    rw [List.all_cons, List.all_cons, h.1, ih h.2]

/-- What is true of each item from some depth on is true of all from some depth on. -/
theorem exists_common_depth {p : Nat → α → Prop} {items : List α}
    (h : ∀ item ∈ items, ∃ depth, ∀ fuel ≥ depth, p fuel item) :
    ∃ depth, ∀ fuel ≥ depth, ∀ item ∈ items, p fuel item := by
  induction items with
  | nil => exact ⟨0, fun _ _ item hitem => absurd hitem List.not_mem_nil⟩
  | cons first rest ih =>
    rw [List.forall_mem_cons] at h
    have ⟨depth, hfirst⟩ := h.1
    have ⟨depth', hrest⟩ := ih h.2
    refine ⟨max depth depth', fun fuel hfuel => List.forall_mem_cons.2 ⟨?_, ?_⟩⟩
    · exact hfirst fuel (by omega)
    · exact hrest fuel (by omega)

theorem mapM_spec {f : α → Option β} {xs : List α} {ys : List β}
    (h : xs.mapM f = some ys) (y : β) : y ∈ ys ↔ ∃ x ∈ xs, f x = some y := by
  induction xs generalizing ys with
  | nil =>
    cases h
    simp
  | cons x xs ih =>
    rw [List.mapM_cons] at h
    rcases Option.bind_eq_some_iff.1 h with ⟨z, hz, hrest⟩
    rcases Option.bind_eq_some_iff.1 hrest with ⟨zs, hzs, heq⟩
    cases heq
    rw [List.mem_cons, ih hzs]
    constructor
    · rintro (rfl | ⟨x', hx', hy⟩)
      · exact ⟨x, List.mem_cons_self, hz⟩
      · exact ⟨x', List.mem_cons_of_mem x hx', hy⟩
    · rintro ⟨x', hx', hy⟩
      rcases List.mem_cons.1 hx' with rfl | hx'
      · exact .inl (Option.some.inj (hy.symm.trans hz))
      · exact .inr ⟨x', hx', hy⟩

theorem mapM_defined {f : α → Option β} {xs : List α} {ys : List β}
    (h : xs.mapM f = some ys) : ∀ x ∈ xs, ∃ y ∈ ys, f x = some y := by
  intro x hx
  cases hy : f x with
  | some y => exact ⟨y, (mapM_spec h y).2 ⟨x, hx, hy⟩, rfl⟩
  | none =>
    -- an element that fails makes the whole map fail
    induction xs generalizing ys with
    | nil => cases hx
    | cons first xs ih =>
      rw [List.mapM_cons] at h
      rcases Option.bind_eq_some_iff.1 h with ⟨z, hz, hrest⟩
      rcases Option.bind_eq_some_iff.1 hrest with ⟨zs, hzs, -⟩
      rcases List.mem_cons.1 hx with rfl | hx
      · rw [hy] at hz
        cases hz
      · rcases ih hzs hx with ⟨_, _, hsome⟩
        cases hsome

theorem mapM_isSome {f : α → Option β} {xs : List α}
    (h : ∀ x ∈ xs, (f x).isSome) : ∃ ys, xs.mapM f = some ys := by
  induction xs with
  | nil => exact ⟨[], rfl⟩
  | cons x xs ih =>
    rcases Option.isSome_iff_exists.1 (h x List.mem_cons_self) with ⟨y, hy⟩
    rcases ih fun x' hx' => h x' (List.mem_cons_of_mem x hx') with ⟨ys, hys⟩
    exact ⟨y :: ys, by simp [List.mapM_cons, hy, hys]⟩

/-- Two maps of one list are related item by item. -/
theorem forall₂_mapM {γ : Type} {f : α → Option β} {g : α → Option γ} {R : β → γ → Prop}
    {xs : List α} {ys : List β} {zs : List γ} (hf : xs.mapM f = some ys)
    (hg : xs.mapM g = some zs) :
    List.Forall₂ R ys zs ↔ ∀ x ∈ xs, ∀ y z, f x = some y → g x = some z → R y z := by
  induction xs generalizing ys zs with
  | nil =>
    cases hf
    cases hg
    simp
  | cons x xs ih =>
    rw [List.mapM_cons] at hf hg
    rcases Option.bind_eq_some_iff.1 hf with ⟨y, hy, hrest⟩
    rcases Option.bind_eq_some_iff.1 hrest with ⟨ys', hys, heq⟩
    rcases Option.bind_eq_some_iff.1 hg with ⟨z, hz, hrest'⟩
    rcases Option.bind_eq_some_iff.1 hrest' with ⟨zs', hzs, heq'⟩
    cases heq
    cases heq'
    rw [List.forall₂_cons, ih hys hzs, List.forall_mem_cons]
    simp [hy, hz]

/-- A partial function that goes along with two changes of what it takes and gives. -/
theorem mapM_map_map {α β α' β' : Type} {f : α → Option β} {f' : α' → Option β'} {g : α → α'}
    {g' : β → β'} (h : ∀ item, f' (g item) = (f item).map g') :
    ∀ {items : List α}, (items.map g).mapM f' = (items.mapM f).map (List.map g')
  | [] => rfl
  | item :: rest => by
    rw [List.map_cons, List.mapM_cons, List.mapM_cons, h, mapM_map_map h]
    cases f item with
    | none => rfl
    | some _ => cases rest.mapM f <;> rfl

end TypePython.Lib
