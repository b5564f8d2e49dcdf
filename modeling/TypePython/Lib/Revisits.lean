import Mathlib.Init

/-!
# Searches that answer yes when they come back

A recursive test that keeps the keys it is under and answers yes at a key that is among them.
What it accepts is in the greatest relation that its rules keep: `Greatest Step`
(`greatest_of_visits`).
-/

namespace TypePython.Lib

variable {α κ : Type}

/-- In some set whose members keep to the rules, relative to the set itself. -/
def Greatest (Step : (α → Prop) → α → Prop) (a : α) : Prop :=
  ∃ R : α → Prop, R a ∧ ∀ x, R x → Step R x

/-- Rules that ask for more only of a larger set. -/
def MonotoneRules (Step : (α → Prop) → α → Prop) : Prop :=
  ∀ R S : α → Prop, (∀ x, R x → S x) → ∀ x, Step R x → Step S x

variable {Step : (α → Prop) → α → Prop}

/-- The members keep to the rules, relative to all members. -/
theorem Greatest.step (hmono : MonotoneRules Step) {a : α} (h : Greatest Step a) :
    Step (Greatest Step) a := by
  rcases h with ⟨R, ha, hR⟩
  exact hmono R _ (fun x hx => ⟨R, hx, hR⟩) a (hR a ha)

/-- A set whose members keep to the rules, relative to the set and all members, has members
only. -/
theorem Greatest.coinduct (hmono : MonotoneRules Step) {R : α → Prop}
    (hR : ∀ x, R x → Step (fun y => R y ∨ Greatest Step y) x) {a : α} (ha : R a) :
    Greatest Step a := by
  refine ⟨fun y => R y ∨ Greatest Step y, .inl ha, ?_⟩
  intro x hx
  rcases hx with hx | hx
  · exact hR x hx
  · exact hmono _ _ (fun y hy => .inr hy) x (hx.step hmono)

section Visits

variable (key : α → κ) (accepts : List κ → α → Prop)

/-- Every key on the way was accepted where it was met. -/
def AllAccepted : List κ → Prop
  | [] => True
  | k :: visited => (∃ a, key a = k ∧ accepts visited a) ∧ AllAccepted visited

variable {key accepts}

/-- A key on the way was accepted with fewer keys on the way. -/
theorem AllAccepted.of_mem {visited : List κ} (h : AllAccepted key accepts visited) {k : κ}
    (hk : k ∈ visited) :
    ∃ earlier : List κ, earlier.length < visited.length ∧ AllAccepted key accepts earlier
      ∧ ∃ a, key a = k ∧ accepts earlier a := by
  induction visited with
  | nil => cases hk
  | cons k' visited ih =>
    rcases List.mem_cons.1 hk with rfl | hk
    · exact ⟨visited, Nat.lt_succ_self _, h.2, h.1⟩
    · rcases ih h.2 hk with ⟨earlier, hlength, hrest⟩
      exact ⟨earlier, Nat.lt_succ_of_lt hlength, hrest⟩

/-- What is accepted with nothing on the way keeps to the rules for ever: where a key was met
again, the rules were followed when it was met first. -/
theorem greatest_of_visits (key : α → κ) (accepts : List κ → α → Prop) (hmono : MonotoneRules Step)
    (hkey : ∀ visited a b, key a = key b → accepts visited a → accepts visited b)
    (haccepts : ∀ visited a, accepts visited a →
      key a ∈ visited ∨ Step (accepts (key a :: visited)) a)
    {a : α} (h : accepts [] a) : Greatest Step a := by
  refine ⟨fun x => ∃ visited, AllAccepted key accepts visited ∧ accepts visited x,
    ⟨[], trivial, h⟩, ?_⟩
  rintro x ⟨visited, hvisited, hx⟩
  -- by induction on the number of keys on the way
  induction hn : visited.length using Nat.strongRecOn generalizing visited with
  | ind n ih =>
    rcases haccepts visited x hx with hmem | hstep
    · rcases hvisited.of_mem hmem with ⟨earlier, hlength, hearlier, a, hkeys, ha⟩
      exact ih earlier.length (hn ▸ hlength) earlier hearlier (hkey _ _ _ hkeys ha) rfl
    · refine hmono _ _ ?_ x hstep
      intro y hy
      exact ⟨key x :: visited, ⟨⟨x, rfl, hx⟩, hvisited⟩, hy⟩

end Visits

end TypePython.Lib
