import Std.Data.ExtTreeSet
import Mathlib.Data.Finset.Card
import Mathlib.Logic.Relation

/-!
# Search with a stack

A depth-first search over an arbitrary successor function: pop an item, and push each successor
of it that has not been found yet. What is found is what the root reaches in one or more steps
(`run_spec`); the root itself is found only if it lies on a cycle.
-/

namespace TypePython.Lib.StackSearch

open Std

variable {α : Type} [Ord α] [TransOrd α] [LawfulEqOrd α]

/-- The state of the loop: the items to look at and the items found. -/
structure St (α : Type) [Ord α] where
  stack : List α
  found : ExtTreeSet α

/-- Note one successor. -/
def push (s : St α) (y : α) : St α :=
  if y ∈ s.found then s else { stack := y :: s.stack, found := s.found.insert y }

/-- The loop, with a bound on its rounds; `none` when the bound is too small. -/
def run (succ : α → List α) : Nat → St α → Option (ExtTreeSet α)
  | 0, _ => none
  | n + 1, s =>
    match s.stack with
    | [] => some s.found
    | x :: rest => run succ n ((succ x).foldl push { s with stack := rest })

def Edge (succ : α → List α) (x y : α) : Prop := y ∈ succ x

/-! ## The invariant -/

/-- What is found is reached, and all successors of what has been looked at are found. -/
structure Inv (succ : α → List α) (root : α) (s : St α) : Prop where
  reached : ∀ y ∈ s.found, Relation.TransGen (Edge succ) root y
  stack_known : ∀ x ∈ s.stack, x = root ∨ x ∈ s.found
  closed : ∀ x, (x = root ∨ x ∈ s.found) → x ∉ s.stack → ∀ y, Edge succ x y → y ∈ s.found

theorem mem_found_push (s : St α) (y z : α) : z ∈ (push s y).found ↔ z = y ∨ z ∈ s.found := by
  unfold push
  split
  · rename_i hy
    constructor
    · exact .inr
    · rintro (rfl | hz)
      · exact hy
      · exact hz
  · show z ∈ s.found.insert y ↔ _
    rw [ExtTreeSet.mem_insert, Std.compare_eq_iff_eq, eq_comm]

omit [LawfulEqOrd α] in
theorem mem_stack_push (s : St α) (y z : α) :
    z ∈ (push s y).stack ↔ z ∈ s.stack ∨ (z = y ∧ y ∉ s.found) := by
  by_cases hy : y ∈ s.found
  · simp [push, hy]
  · simp [push, hy, or_comm]

theorem mem_found_foldl_push (ys : List α) (s : St α) (z : α) :
    z ∈ (ys.foldl push s).found ↔ z ∈ ys ∨ z ∈ s.found := by
  induction ys generalizing s with
  | nil => simp
  | cons y ys ih => rw [List.foldl_cons, ih, mem_found_push, List.mem_cons, or_left_comm, or_assoc]

theorem mem_stack_foldl_push (ys : List α) (s : St α) (z : α) :
    z ∈ (ys.foldl push s).stack ↔ z ∈ s.stack ∨ (z ∈ ys ∧ z ∉ s.found) := by
  induction ys generalizing s with
  | nil => simp
  | cons y ys ih =>
    rw [List.foldl_cons, ih, mem_stack_push, mem_found_push, List.mem_cons]
    by_cases hzy : z = y
    · subst hzy
      by_cases hz : z ∈ s.found <;> simp [hz]
    · simp [hzy]

omit [LawfulEqOrd α] in
theorem init_inv (succ : α → List α) (root : α) : Inv succ root ⟨[root], ∅⟩ where
  reached := by simp
  stack_known := by simp
  closed := by simp

/-- One round preserves the invariant. -/
theorem step_inv {succ : α → List α} {root x : α} {rest : List α} {found : ExtTreeSet α}
    (hi : Inv succ root ⟨x :: rest, found⟩) :
    Inv succ root ((succ x).foldl push ⟨rest, found⟩) := by
  have hx : x = root ∨ x ∈ found := hi.stack_known x List.mem_cons_self
  constructor
  · intro y hy
    rcases (mem_found_foldl_push _ _ _).1 hy with hy | hy
    · rcases hx with rfl | hx
      · exact .single hy
      · exact (hi.reached x hx).tail hy
    · exact hi.reached y hy
  · intro y hy
    rw [mem_found_foldl_push]
    rcases (mem_stack_foldl_push _ _ _).1 hy with hy | ⟨hy, -⟩
    · rcases hi.stack_known y (List.mem_cons_of_mem x hy) with hroot | hfound
      · exact .inl hroot
      · exact .inr (.inr hfound)
    · exact .inr (.inl hy)
  · intro z hz hstack y hedge
    rw [mem_stack_foldl_push, not_or] at hstack
    rw [mem_found_foldl_push] at hz ⊢
    by_cases hzx : z = x
    · -- the popped item: its successors have just been pushed
      subst hzx
      exact .inl hedge
    · have hold : z = root ∨ z ∈ found := by
        rcases hz with hz | hz | hz
        · exact .inl hz
        · by_contra hnot
          exact hstack.2 ⟨hz, fun hfound => hnot (.inr hfound)⟩
        · exact .inr hz
      have hnotin : z ∉ x :: rest := by
        rw [List.mem_cons, not_or]
        exact ⟨hzx, hstack.1⟩
      exact .inr (hi.closed z hold hnotin y hedge)

/-! ## Termination and the result -/

/-- What a run still has to do within the universe `U`. -/
def potential (U : Finset α) (s : St α) : Nat :=
  by
    classical
    exact (U.filter (· ∉ s.found)).card + s.stack.length

theorem potential_push (U : Finset α) (s : St α) {y : α} (hy : y ∈ U) :
    potential U (push s y) = potential U s := by
  classical
  by_cases h : y ∈ s.found
  · simp [push, h]
  · have hset : U.filter (· ∉ (push s y).found) = (U.filter (· ∉ s.found)).erase y := by
      ext z
      simp only [Finset.mem_filter, Finset.mem_erase, mem_found_push, not_or]
      tauto
    have hmem : y ∈ U.filter (· ∉ s.found) := Finset.mem_filter.2 ⟨hy, h⟩
    have hpos := Finset.card_pos.2 ⟨y, hmem⟩
    have hstack : (push s y).stack.length = s.stack.length + 1 := by simp [push, h]
    simp only [potential, hset, Finset.card_erase_of_mem hmem, hstack]
    omega

theorem potential_foldl_push (U : Finset α) (ys : List α) (s : St α) (hys : ∀ y ∈ ys, y ∈ U) :
    potential U (ys.foldl push s) = potential U s := by
  induction ys generalizing s with
  | nil => rfl
  | cons y ys ih =>
    rw [List.foldl_cons, ih _ fun z hz => hys z (List.mem_cons_of_mem y hz),
      potential_push U s (hys y List.mem_cons_self)]

omit [LawfulEqOrd α] in
/-- An empty stack leaves nothing to look at. -/
theorem Inv.mem_found_iff {succ : α → List α} {root : α} {found : ExtTreeSet α}
    (hi : Inv succ root ⟨[], found⟩) (y : α) :
    y ∈ found ↔ Relation.TransGen (Edge succ) root y := by
  constructor
  · exact hi.reached y
  · intro hreach
    induction hreach with
    | single hedge => exact hi.closed root (.inl rfl) List.not_mem_nil _ hedge
    | tail _ hedge ih => exact hi.closed _ (.inr ih) List.not_mem_nil _ hedge

theorem run_ends {succ : α → List α} {root : α} (U : Finset α) (hU : ∀ x, ∀ y ∈ succ x, y ∈ U) :
    ∀ (n : Nat) (s : St α), Inv succ root s → potential U s < n →
      ∃ found, run succ n s = some found
        ∧ ∀ y, y ∈ found ↔ Relation.TransGen (Edge succ) root y := by
  intro n
  induction n with
  | zero =>
    intro s _ hlt
    omega
  | succ n ih =>
    rintro ⟨stack, found⟩ hi hlt
    cases stack with
    | nil => exact ⟨found, rfl, hi.mem_found_iff⟩
    | cons x rest =>
      have hpotential : potential U ⟨x :: rest, found⟩ = potential U ⟨rest, found⟩ + 1 := by
        simp [potential, Nat.add_assoc]
      have hpushed := potential_foldl_push U (succ x) ⟨rest, found⟩ (hU x)
      apply ih _ (step_inv hi)
      show potential U ((succ x).foldl push ⟨rest, found⟩) < n
      omega

/-- With enough rounds the loop ends and has found what the root reaches in one or more
steps. -/
theorem run_spec (succ : α → List α) (root : α) (U : Finset α) (hU : ∀ x, ∀ y ∈ succ x, y ∈ U)
    (n : Nat) (hn : U.card + 2 ≤ n) :
    ∃ found, run succ n ⟨[root], ∅⟩ = some found
      ∧ ∀ y, y ∈ found ↔ Relation.TransGen (Edge succ) root y := by
  have hpotential : potential U ⟨[root], ∅⟩ ≤ U.card + 1 :=
    Nat.add_le_add_right (Finset.card_filter_le U _) 1
  have hrounds : potential U ⟨[root], ∅⟩ < n := by omega
  exact run_ends U hU n _ (init_inv succ root) hrounds

end TypePython.Lib.StackSearch
