import Mathlib.Logic.Relation
import TypePython.Lib.PartialMaps

/-!
# C3 linearizations

The order in which a class and what it derives from are searched: the linearizations of the
bases and the list of the bases are merged, and each time the first head is taken that stands in
no tail. There is none for hierarchies with a cycle, nor where the orders of the lists contradict
each other.
-/

namespace TypePython.Lib

open Relation

variable {α : Type} [DecidableEq α]

/-! ## Merging -/

def nextHead (seqs : List (List α)) : Option α :=
  (seqs.filterMap List.head?).find? fun head => seqs.all fun seq => head ∉ seq.tail

def dropHead (head : α) (seq : List α) : List α :=
  if seq.head? = some head then seq.tail else seq

def mergeFrom : Nat → List (List α) → Option (List α)
  | 0, seqs => if seqs.all List.isEmpty then some [] else none
  | fuel + 1, seqs =>
    if seqs.all List.isEmpty then some []
    else do
      let head ← nextHead seqs
      let rest ← mergeFrom fuel (seqs.map (dropHead head))
      return head :: rest

/-- Every step takes an element off, so the lengths bound the steps. -/
def merge (seqs : List (List α)) : Option (List α) :=
  mergeFrom seqs.flatten.length seqs

/-! ## Linearizing -/

section

variable (bases : α → List α)

def linearize : Nat → α → Option (List α)
  | 0, _ => none
  | fuel + 1, cls => do
    let lins ← (bases cls).mapM (linearize fuel)
    let rest ← merge (lins ++ [bases cls])
    return cls :: rest

def Linearizes (cls : α) (lin : List α) : Prop := ∃ fuel, linearize bases fuel cls = some lin

end

variable {bases : α → List α}

theorem linearize_succ {fuel : Nat} {cls : α} {lin : List α} :
    linearize bases (fuel + 1) cls = some lin ↔
      ∃ lins rest, (bases cls).mapM (linearize bases fuel) = some lins
        ∧ merge (lins ++ [bases cls]) = some rest ∧ lin = cls :: rest := by
  rw [linearize]
  constructor
  · intro h
    obtain ⟨lins, hlins, h⟩ := Option.bind_eq_some_iff.1 h
    obtain ⟨rest, hrest, h⟩ := Option.bind_eq_some_iff.1 h
    exact ⟨lins, rest, hlins, hrest, (Option.some.inj h).symm⟩
  · rintro ⟨lins, rest, hlins, hrest, rfl⟩
    rw [hlins, Option.bind_eq_bind, Option.bind_some, hrest]
    rfl

/-- A class comes first in its own order. -/
theorem Linearizes.eq_cons {cls : α} {lin : List α} (h : Linearizes bases cls lin) :
    ∃ rest, lin = cls :: rest := by
  obtain ⟨fuel, hfuel⟩ := h
  cases fuel with
  | zero => cases hfuel
  | succ fuel =>
    obtain ⟨-, rest, -, -, hlin⟩ := linearize_succ.1 hfuel
    exact ⟨rest, hlin⟩

/-- What has a linearization has one of every base, found with less fuel. -/
theorem linearize_base {fuel : Nat} {cls : α} {lin : List α}
    (h : linearize bases (fuel + 1) cls = some lin) {base : α} (hbase : base ∈ bases cls) :
    ∃ lin', linearize bases fuel base = some lin' := by
  obtain ⟨lins, -, hlins, -⟩ := linearize_succ.1 h
  obtain ⟨lin', -, hlin'⟩ := mapM_defined hlins base hbase
  exact ⟨lin', hlin'⟩

/-- No way up from a class that has a linearization goes on for ever. -/
theorem Linearizes.acc {cls : α} {lin : List α} (h : Linearizes bases cls lin) :
    Acc (flip fun cls base => base ∈ bases cls) cls := by
  obtain ⟨fuel, hfuel⟩ := h
  induction fuel generalizing cls lin with
  | zero => cases hfuel
  | succ fuel ih =>
    constructor
    intro base hbase
    obtain ⟨lin', hlin'⟩ := linearize_base hfuel hbase
    exact ih hlin'

end TypePython.Lib
