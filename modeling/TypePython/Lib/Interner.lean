import Mathlib.Data.List.Basic
import Mathlib.Data.List.Nodup

/-!
# Interners

A table that gives every value it has seen a number, the same one each time. Numbers are
positions, so two tables agree on a value only as far as one extends the other.
-/

namespace TypePython.Lib

/-- The values seen so far, each once, in the order in which they were first seen. -/
structure Interner (α : Type) where
  arena : List α
  nodup : arena.Nodup

namespace Interner

variable {α : Type}

def empty : Interner α := ⟨[], List.nodup_nil⟩

def get (store : Interner α) (id : Nat) : Option α := store.arena[id]?

/-- The second table was reached from the first by interning. -/
def Extends (first later : Interner α) : Prop := first.arena <+: later.arena

section

variable {store first later : Interner α} {a : α}

theorem Extends.refl (store : Interner α) : store.Extends store := List.prefix_rfl

theorem Extends.trans {last : Interner α} (h : first.Extends later) (h' : later.Extends last) :
    first.Extends last :=
  List.IsPrefix.trans h h'

theorem Extends.mem (h : first.Extends later) (ha : a ∈ first.arena) : a ∈ later.arena :=
  List.IsPrefix.subset h ha

end

variable [DecidableEq α]

/-- The number of a value, new if the value is. -/
def intern (store : Interner α) (a : α) : Interner α × Nat :=
  if h : a ∈ store.arena then (store, store.arena.idxOf a)
  else (⟨store.arena ++ [a], List.nodup_append.2 ⟨store.nodup, List.nodup_singleton a,
    fun b hb c hc hbc => h (by rwa [← List.mem_singleton.1 hc, ← hbc])⟩⟩, store.arena.length)

/-- The number a value has, or would be given next. -/
def idOf (store : Interner α) (a : α) : Nat := store.arena.idxOf a

def internAll (store : Interner α) (values : List α) : Interner α :=
  values.foldl (fun store a => (store.intern a).1) store

section

variable {store first later : Interner α} {a : α}

theorem Extends.idOf_eq (h : first.Extends later) (ha : a ∈ first.arena) :
    later.idOf a = first.idOf a := by
  obtain ⟨rest, hrest⟩ := h
  rw [idOf, ← hrest, List.idxOf_append_of_mem ha]
  rfl

theorem extends_intern (store : Interner α) (a : α) : store.Extends (store.intern a).1 := by
  unfold intern
  split
  · exact List.prefix_rfl
  · exact List.prefix_append _ _

theorem mem_intern (store : Interner α) (a : α) : a ∈ (store.intern a).1.arena := by
  unfold intern
  split
  · assumption
  · simp

theorem intern_eq_self (h : a ∈ store.arena) : (store.intern a).1 = store := by
  unfold intern
  rw [dif_pos h]

/-- The number a value is given is its position from then on. -/
theorem intern_snd (store : Interner α) (a : α) :
    (store.intern a).2 = (store.intern a).1.idOf a := by
  unfold intern
  split
  · rfl
  · next h => simp [idOf, List.idxOf_append_of_notMem h]

theorem get_idOf (h : a ∈ store.arena) : store.get (store.idOf a) = some a :=
  List.getElem?_idxOf h

theorem extends_internAll (store : Interner α) (values : List α) :
    store.Extends (store.internAll values) := by
  induction values generalizing store with
  | nil => exact Extends.refl store
  | cons a rest ih => exact (extends_intern store a).trans (ih (store.intern a).1)

theorem mem_internAll (store : Interner α) {values : List α} (ha : a ∈ values) :
    a ∈ (store.internAll values).arena := by
  induction values generalizing store with
  | nil => simp at ha
  | cons b rest ih =>
    rcases List.mem_cons.1 ha with rfl | ha
    · exact (extends_internAll _ rest).mem (mem_intern store a)
    · exact ih (store.intern b).1 ha

theorem internAll_append (store : Interner α) (values values' : List α) :
    store.internAll (values ++ values') = (store.internAll values).internAll values' :=
  List.foldl_append

end

end Interner

end TypePython.Lib
