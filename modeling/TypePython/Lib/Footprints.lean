import Mathlib.Data.List.Forall2
import Mathlib.Data.Set.Function
import Mathlib.Data.Set.Lattice
import Mathlib.Logic.Function.Basic
import Mathlib.Order.CompletePartialOrder

/-!
# Actions on parts of a store

An action that is confined to a part of a store changes nothing else and looks at nothing else.
Confined actions on disjoint parts do not disturb one another: after all of them, in any order,
each part is as its own action leaves it (`foldr_eqOn`).
-/

namespace TypePython.Lib

variable {ι κ β : Type}

/-- The action changes nothing outside of the part, and what it leaves there depends on nothing
outside of it. -/
structure Confined (part : Set κ) (act : (κ → β) → κ → β) : Prop where
  frame : ∀ store k, k ∉ part → act store k = store k
  congr : ∀ {store store' : κ → β}, Set.EqOn store store' part →
    Set.EqOn (act store) (act store') part

theorem confined_id (part : Set κ) : Confined part (id : (κ → β) → κ → β) where
  frame _ _ _ := rfl
  congr h := h

theorem Confined.comp {part : Set κ} {act act' : (κ → β) → κ → β} (h : Confined part act)
    (h' : Confined part act') : Confined part fun store => act (act' store) where
  frame store k hk := by
    rw [h.frame _ k hk, h'.frame _ k hk]
  congr heq := h.congr (h'.congr heq)

/-- An update at a key of the part with a value read off the part. -/
theorem confined_update [DecidableEq κ] {part : Set κ} {key : κ} (hkey : key ∈ part)
    {value : (κ → β) → β} (hvalue : ∀ {store store' : κ → β}, Set.EqOn store store' part →
      value store = value store') :
    Confined part fun store => Function.update store key (value store) where
  frame store k hk := Function.update_of_ne (ne_of_mem_of_not_mem hkey hk).symm _ _
  congr := by
    intro store store' heq k hk
    by_cases hsame : k = key
    · rw [hsame, Function.update_self, Function.update_self]
      exact hvalue heq
    · rw [Function.update_of_ne hsame, Function.update_of_ne hsame]
      exact heq hk

/-- A choice between two actions by what stands in the part. -/
theorem Confined.ite {part : Set κ} {act act' : (κ → β) → κ → β} (h : Confined part act)
    (h' : Confined part act') {test : (κ → β) → Bool}
    (htest : ∀ {store store' : κ → β}, Set.EqOn store store' part → test store = test store') :
    Confined part fun store => if test store then act store else act' store where
  frame store k hk := by
    split
    · exact h.frame store k hk
    · exact h'.frame store k hk
  congr := by
    intro store store' heq
    show Set.EqOn (if test store then act store else act' store)
      (if test store' then act store' else act' store') part
    rw [htest heq]
    split
    · exact h.congr heq
    · exact h'.congr heq

/-! ## Actions one after another -/

section

variable {part : ι → Set κ} {act : ι → (κ → β) → κ → β}

/-- What is in no part is left as it is. -/
theorem foldr_frame {items : List ι} (hconfined : ∀ i ∈ items, Confined (part i) (act i))
    (store : κ → β) {k : κ} (hk : ∀ i ∈ items, k ∉ part i) :
    items.foldr act store k = store k := by
  induction items with
  | nil => rfl
  | cons i rest ih =>
    rw [List.forall_mem_cons] at hconfined hk
    rw [List.foldr_cons, hconfined.1.frame _ k hk.1, ih hconfined.2 hk.2]

/-- Each part is as its own action leaves it. -/
theorem foldr_eqOn {items : List ι} (hconfined : ∀ i ∈ items, Confined (part i) (act i))
    (hdisjoint : items.Pairwise fun i j => Disjoint (part i) (part j)) (store : κ → β) {i : ι}
    (hi : i ∈ items) : Set.EqOn (items.foldr act store) (act i store) (part i) := by
  induction items with
  | nil => cases hi
  | cons first rest ih =>
    rw [List.forall_mem_cons] at hconfined
    rcases List.pairwise_cons.1 hdisjoint with ⟨hfirst, hrest⟩
    rw [List.foldr_cons]
    rcases List.mem_cons.1 hi with rfl | hmem
    · -- the others have left the part of the first alone
      apply hconfined.1.congr
      intro k hk
      apply foldr_frame hconfined.2
      intro j hj hkj
      exact Set.disjoint_left.1 (hfirst j hj) hk hkj
    · intro k hk
      have hout : k ∉ part first := fun hkf => Set.disjoint_left.1 (hfirst i hmem) hkf hk
      rw [hconfined.1.frame _ k hout]
      exact ih hconfined.2 hrest hmem hk

/-- Actions that each give a part its old contents give the store its old contents. -/
theorem foldr_restores {items : List ι} (hconfined : ∀ i ∈ items, Confined (part i) (act i))
    (hdisjoint : items.Pairwise fun i j => Disjoint (part i) (part j)) {old store : κ → β}
    (hrestores : ∀ i ∈ items, Set.EqOn (act i store) old (part i))
    (houtside : ∀ k, (∀ i ∈ items, k ∉ part i) → store k = old k) :
    items.foldr act store = old := by
  funext k
  by_cases h : ∀ i ∈ items, k ∉ part i
  · rw [foldr_frame hconfined store h, houtside k h]
  · simp only [not_forall, not_not] at h
    rcases h with ⟨i, hi, hk⟩
    rw [foldr_eqOn hconfined hdisjoint store hi hk, hrestores i hi hk]

end

/-! ## Two lists side by side -/

theorem exists_right_of_mem {R : ι → κ → Prop} {items : List ι} {others : List κ}
    (h : List.Forall₂ R items others) {i : ι} (hi : i ∈ items) : ∃ k ∈ others, R i k := by
  induction h with
  | nil => cases hi
  | @cons first other rest others hfirst hrest ih =>
    rcases List.mem_cons.1 hi with rfl | hmem
    · exact ⟨other, List.mem_cons_self, hfirst⟩
    · rcases ih hmem with ⟨k, hk, hik⟩
      exact ⟨k, List.mem_cons_of_mem _ hk, hik⟩

theorem forall₂_imp_of_mem {R S : ι → κ → Prop} {items : List ι} {others : List κ}
    (h : List.Forall₂ R items others) (himp : ∀ k ∈ others, ∀ i, R i k → S i k) :
    List.Forall₂ S items others := by
  induction h with
  | nil => exact .nil
  | cons hfirst hrest ih =>
    rw [List.forall_mem_cons] at himp
    exact .cons (himp.1 _ hfirst) (ih himp.2)

theorem exists_left_of_mem {R : ι → κ → Prop} {items : List ι} {others : List κ}
    (h : List.Forall₂ R items others) {k : κ} (hk : k ∈ others) : ∃ i ∈ items, R i k :=
  @exists_right_of_mem κ ι (flip R) _ _ h.flip _ hk

end TypePython.Lib
