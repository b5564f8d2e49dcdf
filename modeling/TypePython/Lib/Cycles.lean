import Mathlib.Data.Fintype.Card
import Mathlib.Data.Set.Finite.Basic
import Mathlib.Logic.Relation

/-!
# Cycles

In a relation that leads to finitely many places, every way from a place ends exactly when no
cycle is reached from it.
-/

namespace TypePython.Lib

open Relation

variable {α : Type} {r : α → α → Prop}

/-- Nothing that ends leads back to itself. -/
theorem not_transGen_of_acc {a : α} (h : Acc (flip r) a) : ¬ TransGen r a a := by
  induction h with
  | intro a _ ih =>
    intro hcycle
    rcases TransGen.head'_iff.1 hcycle with ⟨b, hab, hba⟩
    -- the cycle goes through its second place too
    exact ih b hab (TransGen.tail' hba hab)

theorem acc_of_reaches {a b : α} (h : Acc (flip r) a) (hreaches : ReflTransGen r a b) :
    Acc (flip r) b := by
  induction hreaches with
  | refl => exact h
  | tail _ hlast ih => exact ih.inv hlast

/-- Without a cycle, every way through finitely many places ends. -/
theorem acc_of_no_cycle_reached {a : α} (hreached : {b | ReflTransGen r a b}.Finite)
    (h : ∀ b, ReflTransGen r a b → ¬ TransGen r b b) : Acc (flip r) a := by
  let reached : Set α := {b | ReflTransGen r a b}
  have : Finite reached := hreached
  let after : reached → reached → Prop := fun x y => TransGen r y.1 x.1
  have : IsTrans reached after := ⟨fun _ _ _ hxy hyz => hyz.trans hxy⟩
  have : Std.Irrefl after := ⟨fun x hx => h x.1 x.2 hx⟩
  have hwf : WellFounded after := Finite.wellFounded_of_trans_of_irrefl after
  have hacc : ∀ x : reached, Acc (flip r) x.1 := by
    intro x
    induction x using hwf.induction with
    | _ x ih =>
      constructor
      intro b hb
      exact ih ⟨b, x.2.tail hb⟩ (TransGen.single hb)
  exact hacc ⟨a, .refl⟩

theorem acc_iff_no_cycle_reached {a : α} (hreached : {b | ReflTransGen r a b}.Finite) :
    Acc (flip r) a ↔ ∀ b, ReflTransGen r a b → ¬ TransGen r b b := by
  constructor
  · intro h b hb
    exact not_transGen_of_acc (acc_of_reaches h hb)
  · exact acc_of_no_cycle_reached hreached

theorem acc_iff_no_cycle (hfinite : {b | ∃ a, r a b}.Finite) {a : α} :
    Acc (flip r) a ↔ ∀ b, ReflTransGen r a b → ¬ TransGen r b b := by
  apply acc_iff_no_cycle_reached
  apply (hfinite.insert a).subset
  intro b hb
  rcases ReflTransGen.cases_tail hb with hsame | ⟨c, -, hcb⟩
  · exact .inl hsame
  · exact .inr ⟨c, hcb⟩

end TypePython.Lib
