import Mathlib.Logic.Basic

/-!
# Propagation along a graph

Facts are given at some nodes of a graph and travel against its edges, one edge a round.
`Within n k e` says that the fact `e` has arrived at the node `k` after `n` rounds, and
`Arrives k e` that it arrives at all. A round that brings nothing new is the last one that
does anything (`within_of_stable`).
-/

namespace TypePython.Lib

section Propagation

variable {κ ε : Type} (given : κ → ε → Prop) (next : κ → κ → Prop)

/-- The facts that are at a node after some rounds. -/
def Within : Nat → κ → ε → Prop
  | 0, _, _ => False
  | n + 1, k, e => given k e ∨ ∃ k', next k k' ∧ Within n k' e

/-- The facts that arrive at a node along some path. -/
inductive Arrives : κ → ε → Prop
  | given {k : κ} {e : ε} (h : given k e) : Arrives k e
  | along {k k' : κ} {e : ε} (h : next k k') (harrives : Arrives k' e) : Arrives k e

variable {given next}

theorem Within.succ {n : Nat} {k : κ} {e : ε} (h : Within given next n k e) :
    Within given next (n + 1) k e := by
  induction n generalizing k with
  | zero => exact h.elim
  | succ n ih =>
    rcases h with hgiven | ⟨k', hnext, hwithin⟩
    · exact .inl hgiven
    · exact .inr ⟨k', hnext, ih hwithin⟩

theorem Within.mono {n m : Nat} (hle : n ≤ m) {k : κ} {e : ε} (h : Within given next n k e) :
    Within given next m k e := by
  induction hle with
  | refl => exact h
  | step _ ih => exact ih.succ

/-- The more is given, the more is at a node. -/
theorem Within.mono_given {given' : κ → ε → Prop} (hgiven : ∀ k e, given k e → given' k e)
    {n : Nat} {k : κ} {e : ε} (h : Within given next n k e) : Within given' next n k e := by
  induction n generalizing k with
  | zero => exact h.elim
  | succ n ih =>
    rcases h with hhere | ⟨k', hnext, hwithin⟩
    · exact .inl (hgiven k e hhere)
    · exact .inr ⟨k', hnext, ih hwithin⟩

/-- Nothing arrives after a round that brought nothing. -/
theorem within_of_stable {n : Nat}
    (hstable : ∀ k e, Within given next (n + 1) k e → Within given next n k e) {m : Nat} {k : κ}
    {e : ε} (h : Within given next m k e) : Within given next n k e := by
  induction m generalizing k with
  | zero => exact h.elim
  | succ m ih =>
    apply hstable
    rcases h with hgiven | ⟨k', hnext, hwithin⟩
    · exact .inl hgiven
    · exact .inr ⟨k', hnext, ih hwithin⟩

end Propagation

end TypePython.Lib
