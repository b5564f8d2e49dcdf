import Std.Data.ExtTreeSet
import Mathlib.Data.Finset.Card
import Mathlib.Logic.Relation

/-!
# Worklists

A breadth-first worklist over an arbitrary successor function: pop the front of
the queue, collect every successor of it, and queue the successors that have not
been visited. `visited` is seeded with the roots and `found` with a set of its
own, so the two sets may differ.

* `Inv` is the invariant of the loop, `step_inv` its preservation by one step;
* `potential` counts what is left to visit, and falls by one in every step;
* `run_spec`: the loop ends, and then `found` holds its seed and exactly the
  items reached from the roots by one or more successor steps.
-/

namespace TypePython.Lib.Worklist

open Std

variable {α : Type} [Ord α] [TransOrd α] [LawfulEqOrd α]

/-- The loop state: the queue, the items ever queued and the items collected. -/
structure St (α : Type) [Ord α] where
  queue : List α
  visited : ExtTreeSet α
  found : ExtTreeSet α

/-- Collect one successor, queueing it when it is new. -/
def visit (s : St α) (y : α) : St α where
  queue := if y ∈ s.visited then s.queue else s.queue ++ [y]
  visited := s.visited.insert y
  found := s.found.insert y

/-- One round of the loop; `none` when the queue is empty. -/
def step (succ : α → List α) (s : St α) : Option (St α) :=
  match s.queue with
  | [] => none
  | x :: rest => some ((succ x).foldl visit { s with queue := rest })

/-- The loop, with a bound on its rounds; `none` when the bound is too small. -/
def run (succ : α → List α) : Nat → St α → Option (St α)
  | 0, _ => none
  | n + 1, s =>
    match step succ s with
    | none => some s
    | some s' => run succ n s'

/-- `y` is a successor of `x`. -/
def Edge (succ : α → List α) (x y : α) : Prop := y ∈ succ x

/-! ## The invariant -/

/-- The invariant of the loop, relative to the roots and to the seed of `found`.
`processed` is what has left the queue: visited and not queued. -/
structure Inv (succ : α → List α) (roots seed : ExtTreeSet α) (s : St α) : Prop where
  roots_visited : ∀ x ∈ roots, x ∈ s.visited
  seed_found : ∀ x ∈ seed, x ∈ s.found
  queue_visited : ∀ x ∈ s.queue, x ∈ s.visited
  queue_nodup : s.queue.Nodup
  visited_reached : ∀ y ∈ s.visited, ∃ x ∈ roots, Relation.ReflTransGen (Edge succ) x y
  found_reached : ∀ y ∈ s.found,
    y ∈ seed ∨ ∃ x ∈ roots, Relation.TransGen (Edge succ) x y
  closed : ∀ x ∈ s.visited, x ∉ s.queue → ∀ y, Edge succ x y → y ∈ s.visited ∧ y ∈ s.found

@[simp] theorem mem_visited_visit (s : St α) (y z : α) :
    z ∈ (visit s y).visited ↔ y = z ∨ z ∈ s.visited := by
  simp [visit]

@[simp] theorem mem_found_visit (s : St α) (y z : α) :
    z ∈ (visit s y).found ↔ y = z ∨ z ∈ s.found := by
  simp [visit]

omit [LawfulEqOrd α] in
theorem mem_queue_visit (s : St α) (y z : α) :
    z ∈ (visit s y).queue ↔ z ∈ s.queue ∨ (z = y ∧ y ∉ s.visited) := by
  by_cases h : y ∈ s.visited <;> simp [visit, h]

theorem mem_visited_foldl_visit (ys : List α) (s : St α) (z : α) :
    z ∈ (ys.foldl visit s).visited ↔ z ∈ ys ∨ z ∈ s.visited := by
  induction ys generalizing s with
  | nil => simp
  | cons y ys ih =>
    rw [List.foldl_cons, ih, mem_visited_visit, List.mem_cons]
    constructor
    · rintro (h | rfl | h) <;> simp [*]
    · rintro ((rfl | h) | h) <;> simp [*]

theorem mem_found_foldl_visit (ys : List α) (s : St α) (z : α) :
    z ∈ (ys.foldl visit s).found ↔ z ∈ ys ∨ z ∈ s.found := by
  induction ys generalizing s with
  | nil => simp
  | cons y ys ih =>
    rw [List.foldl_cons, ih, mem_found_visit, List.mem_cons]
    constructor
    · rintro (h | rfl | h) <;> simp [*]
    · rintro ((rfl | h) | h) <;> simp [*]

theorem mem_queue_foldl_visit (ys : List α) (s : St α) (z : α) :
    z ∈ (ys.foldl visit s).queue ↔ z ∈ s.queue ∨ (z ∈ ys ∧ z ∉ s.visited) := by
  induction ys generalizing s with
  | nil => simp
  | cons y ys ih =>
    rw [List.foldl_cons, ih, mem_queue_visit, mem_visited_visit, List.mem_cons]
    by_cases hzy : z = y
    · subst hzy
      by_cases hz : z ∈ s.visited <;> simp [hz]
    · have hyz : ¬ y = z := fun h => hzy h.symm
      simp [hzy, hyz]

theorem queue_nodup_foldl_visit (ys : List α) (s : St α)
    (hq : ∀ x ∈ s.queue, x ∈ s.visited) (hnd : s.queue.Nodup) :
    (ys.foldl visit s).queue.Nodup := by
  induction ys generalizing s with
  | nil => exact hnd
  | cons y ys ih =>
    refine ih (visit s y) ?_ ?_
    · intro x hx
      rw [mem_queue_visit] at hx
      rcases hx with hx | ⟨rfl, _⟩ <;> simp [*]
    · by_cases h : y ∈ s.visited
      · simpa [visit, h] using hnd
      · have hy : y ∉ s.queue := fun hmem => h (hq y hmem)
        have happ : (s.queue ++ [y]).Nodup := by
          rw [← List.concat_eq_append]
          exact hnd.concat hy
        simpa [visit, h] using happ

variable {succ : α → List α} {s : St α}

omit [LawfulEqOrd α] in
/-- One round pops the front of the queue and visits its successors. -/
theorem step_cases {s' : St α} (h : step succ s = some s') :
    ∃ x rest, s.queue = x :: rest ∧ s' = (succ x).foldl visit { s with queue := rest } := by
  cases hq : s.queue with
  | nil => simp [step, hq] at h
  | cons x rest =>
    refine ⟨x, rest, rfl, ?_⟩
    simpa [step, hq] using h.symm

theorem init_inv (succ : α → List α) (roots seed : ExtTreeSet α) :
    Inv succ roots seed ⟨roots.toList, roots, seed⟩ where
  roots_visited := fun _ hx => hx
  seed_found := fun _ hx => hx
  queue_visited := fun x hx => by simpa using hx
  queue_nodup := by
    refine ExtTreeSet.distinct_toList.imp ?_
    intro a b hab heq
    exact hab (heq ▸ Std.ReflCmp.compare_self)
  visited_reached := fun y hy => ⟨y, hy, .refl⟩
  found_reached := fun _ hy => .inl hy
  closed := fun x hx hq => absurd (by simpa using hx) hq

variable {roots seed : ExtTreeSet α}

/-- One round preserves the invariant. -/
theorem step_inv {s' : St α} (hs : step succ s = some s') (hi : Inv succ roots seed s) :
    Inv succ roots seed s' := by
  obtain ⟨x, rest, hq, rfl⟩ := step_cases hs
  have hxv : x ∈ s.visited := hi.queue_visited x (by simp [hq])
  have hnd : x ∉ rest ∧ rest.Nodup := by simpa [hq] using hi.queue_nodup
  obtain ⟨r, hr, hrx⟩ := hi.visited_reached x hxv
  refine ⟨?_, ?_, ?_, ?_, ?_, ?_, ?_⟩
  · intro y hy
    exact (mem_visited_foldl_visit _ _ _).2 (.inr (hi.roots_visited y hy))
  · intro y hy
    exact (mem_found_foldl_visit _ _ _).2 (.inr (hi.seed_found y hy))
  · intro y hy
    rw [mem_visited_foldl_visit]
    rcases (mem_queue_foldl_visit _ _ _).1 hy with hy | ⟨hy, _⟩
    · exact .inr (hi.queue_visited y (by simp [hq, hy]))
    · exact .inl hy
  · exact queue_nodup_foldl_visit _ _
      (fun y hy => hi.queue_visited y (by simp [hq, hy])) hnd.2
  · intro y hy
    rcases (mem_visited_foldl_visit _ _ _).1 hy with hy | hy
    · exact ⟨r, hr, hrx.tail hy⟩
    · exact hi.visited_reached y hy
  · intro y hy
    rcases (mem_found_foldl_visit _ _ _).1 hy with hy | hy
    · exact .inr ⟨r, hr, Relation.TransGen.tail' hrx hy⟩
    · exact hi.found_reached y hy
  · intro z hz hzq y hzy
    rw [mem_queue_foldl_visit, not_or] at hzq
    rw [mem_visited_foldl_visit, mem_found_foldl_visit]
    by_cases hzx : z = x
    · -- the popped item: all its successors have just been visited
      subst hzx
      exact ⟨.inl hzy, .inl hzy⟩
    · -- an item processed in an earlier round
      have hzv : z ∈ s.visited := by
        rcases (mem_visited_foldl_visit _ _ _).1 hz with h | h
        · by_contra hnot
          exact hzq.2 ⟨h, hnot⟩
        · exact h
      have hold := hi.closed z hzv (by simp [hq, hzx, hzq.1]) y hzy
      exact ⟨.inr hold.1, .inr hold.2⟩

/-! ## Termination and the result -/

/-- What a run still has to do within the universe `U`: the items not yet visited
and the items waiting in the queue. -/
def potential (U : Finset α) (s : St α) : Nat :=
  by
    classical
    exact (U.filter (· ∉ s.visited)).card + s.queue.length

theorem potential_visit (U : Finset α) (s : St α) {y : α} (hy : y ∈ U) :
    potential U (visit s y) = potential U s := by
  classical
  by_cases h : y ∈ s.visited
  · have hset : U.filter (· ∉ (visit s y).visited) = U.filter (· ∉ s.visited) := by
      refine Finset.filter_congr fun z _ => ?_
      rw [mem_visited_visit, not_or]
      exact ⟨And.right, fun hz => ⟨fun hyz => hz (hyz ▸ h), hz⟩⟩
    have hq : (visit s y).queue.length = s.queue.length := by simp [visit, h]
    simp only [potential, hset, hq]
  · have hset : U.filter (· ∉ (visit s y).visited) = (U.filter (· ∉ s.visited)).erase y := by
      ext z
      simp only [Finset.mem_filter, Finset.mem_erase, mem_visited_visit, not_or]
      constructor
      · rintro ⟨hzU, hyz, hz⟩
        exact ⟨fun hzy => hyz hzy.symm, hzU, hz⟩
      · rintro ⟨hzy, hzU, hz⟩
        exact ⟨hzU, fun hyz => hzy hyz.symm, hz⟩
    have hmem : y ∈ U.filter (· ∉ s.visited) := Finset.mem_filter.2 ⟨hy, h⟩
    have hpos := Finset.card_pos.2 ⟨y, hmem⟩
    have hq : (visit s y).queue.length = s.queue.length + 1 := by simp [visit, h]
    simp only [potential, hset, Finset.card_erase_of_mem hmem, hq]
    omega

theorem potential_foldl_visit (U : Finset α) (ys : List α) (s : St α) (hys : ∀ y ∈ ys, y ∈ U) :
    potential U (ys.foldl visit s) = potential U s := by
  induction ys generalizing s with
  | nil => rfl
  | cons y ys ih =>
    rw [List.foldl_cons, ih _ fun z hz => hys z (by simp [hz]),
      potential_visit U s (hys y (by simp))]

/-- Every round lowers the potential by one. -/
theorem potential_step (U : Finset α) (hU : ∀ x, ∀ y ∈ succ x, y ∈ U) {s' : St α}
    (hs : step succ s = some s') : potential U s' + 1 = potential U s := by
  obtain ⟨x, rest, hq, rfl⟩ := step_cases hs
  rw [potential_foldl_visit U _ _ (hU x)]
  simp [potential, hq, Nat.add_assoc]

/-- The loop ends after at most `potential` rounds, in a state with an empty queue. -/
theorem run_ends (U : Finset α) (hU : ∀ x, ∀ y ∈ succ x, y ∈ U) :
    ∀ (n : Nat) (s : St α), Inv succ roots seed s → potential U s < n →
      ∃ s', run succ n s = some s' ∧ s'.queue = [] ∧ Inv succ roots seed s' := by
  intro n
  induction n with
  | zero => intro s _ hlt; omega
  | succ n ih =>
    intro s hi hlt
    cases hs : step succ s with
    | none =>
      refine ⟨s, by simp [run, hs], ?_, hi⟩
      cases hq : s.queue with
      | nil => rfl
      | cons x rest => simp [step, hq] at hs
    | some s' =>
      have hpot := potential_step U hU hs
      obtain ⟨s'', hrun, hq, hinv⟩ := ih s' (step_inv hs hi) (by omega)
      exact ⟨s'', by simpa [run, hs] using hrun, hq, hinv⟩

omit [LawfulEqOrd α] in
/-- With an empty queue the invariant determines `found`: the seed, and what the roots
reach in one or more steps. -/
theorem Inv.mem_found_iff (hi : Inv succ roots seed s) (hq : s.queue = []) (y : α) :
    y ∈ s.found ↔ y ∈ seed ∨ ∃ x ∈ roots, Relation.TransGen (Edge succ) x y := by
  constructor
  · exact hi.found_reached y
  · rintro (hy | ⟨x, hx, hxy⟩)
    · exact hi.seed_found y hy
    · have hboth : y ∈ s.visited ∧ y ∈ s.found := by
        induction hxy with
        | single h => exact hi.closed x (hi.roots_visited x hx) (by simp [hq]) _ h
        | tail _ h ih => exact hi.closed _ ih.1 (by simp [hq]) _ h
      exact hboth.2

/-- The worklist computes the closure: with enough rounds the loop ends, and `found` is
its seed together with everything reached from the roots in one or more steps. -/
theorem run_spec (succ : α → List α) (roots seed : ExtTreeSet α) (U : Finset α)
    (hU : ∀ x, ∀ y ∈ succ x, y ∈ U) (n : Nat) (hn : roots.toList.length + U.card + 1 ≤ n) :
    ∃ s, run succ n ⟨roots.toList, roots, seed⟩ = some s ∧
      ∀ y, y ∈ s.found ↔ y ∈ seed ∨ ∃ x ∈ roots, Relation.TransGen (Edge succ) x y := by
  have hpotential : potential U ⟨roots.toList, roots, seed⟩ ≤ U.card + roots.toList.length :=
    Nat.add_le_add_right (Finset.card_filter_le U _) _
  have hrounds : potential U ⟨roots.toList, roots, seed⟩ < n := by omega
  rcases run_ends U hU n _ (init_inv succ roots seed) hrounds with ⟨s, hrun, hq, hinv⟩
  exact ⟨s, hrun, hinv.mem_found_iff hq⟩

end TypePython.Lib.Worklist
