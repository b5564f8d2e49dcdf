import TypePython.Lib.Searches

/-!
# Walks that act on the way out

A walk that enters every key once and acts on a place when it leaves it, after all that lies
behind it. What it gathers is what acting on the places in the order in which they are left comes
to (`run_eq_foldl_order`).
-/

namespace TypePython.Lib

structure LeavingWalk (N K S : Type) where
  key : N → K
  next : N → List N
  leave : S → N → S

namespace LeavingWalk

variable {N K S : Type} [DecidableEq K]

/-- The keys entered and what is gathered. -/
abbrev Memory (K S : Type) := List K × S

section

variable (walk : LeavingWalk N K S)

def leavePlace (place : N) (memory : Memory K S) : Memory K S :=
  (memory.1, walk.leave memory.2 place)

def run : Nat → Memory K S → N → Memory K S
  | 0, memory, _ => memory
  | fuel + 1, memory, place =>
    if walk.key place ∈ memory.1 then memory
    else
      walk.leavePlace place
        ((walk.next place).foldl (run fuel) (walk.key place :: memory.1, memory.2))

/-- The walk that only notes the places it leaves. -/
def noting : LeavingWalk N K (List N) where
  key := walk.key
  next := walk.next
  leave := fun left place => left ++ [place]

/-- The places in the order in which they are left. -/
def order (fuel : Nat) (place : N) : List N := (walk.noting.run fuel ([], []) place).2

end

variable {walk : LeavingWalk N K S}

theorem run_of_mem (walk : LeavingWalk N K S) {fuel : Nat} {memory : Memory K S} {place : N}
    (h : walk.key place ∈ memory.1) : walk.run fuel memory place = memory := by
  cases fuel with
  | zero => rfl
  | succ fuel => rw [run, if_pos h]

theorem run_of_not_mem (walk : LeavingWalk N K S) {fuel : Nat} {memory : Memory K S} {place : N}
    (h : walk.key place ∉ memory.1) :
    walk.run (fuel + 1) memory place
      = walk.leavePlace place
          ((walk.next place).foldl (walk.run fuel) (walk.key place :: memory.1, memory.2)) := by
  rw [run, if_neg h]

/-! ## Gathering along the order -/

/-- Two walks over the same places enter the same keys; one notes what the other acts on. -/
def NotesFor (walk : LeavingWalk N K S) (noted : List N → Memory K (List N))
    (gathered : S → Memory K S) : Prop :=
  ∃ visited new, (∀ left, noted left = (visited, left ++ new))
    ∧ ∀ start, gathered start = (visited, new.foldl walk.leave start)

omit [DecidableEq K] in
theorem notesFor_foldl {go : Memory K (List N) → N → Memory K (List N)}
    {go' : Memory K S → N → Memory K S}
    (hgo : ∀ visited place, NotesFor walk (fun left => go (visited, left) place)
      fun start => go' (visited, start) place) :
    ∀ (places : List N) visited, NotesFor walk (fun left => places.foldl go (visited, left))
      fun start => places.foldl go' (visited, start) := by
  intro places
  induction places with
  | nil => exact fun visited => ⟨visited, [], by simp, by simp⟩
  | cons place rest ih =>
    intro visited
    obtain ⟨visited', new, hnoted, hgathered⟩ := hgo visited place
    obtain ⟨visited'', new', hnoted', hgathered'⟩ := ih visited'
    dsimp only at hnoted hgathered hnoted' hgathered'
    refine ⟨visited'', new ++ new', ?_, ?_⟩
    · intro left
      dsimp only
      rw [List.foldl_cons, hnoted, hnoted', List.append_assoc]
    · intro start
      dsimp only
      rw [List.foldl_cons, hgathered, hgathered', List.foldl_append]

theorem notesFor_run (walk : LeavingWalk N K S) (fuel : Nat) : ∀ visited place,
    NotesFor walk (fun left => walk.noting.run fuel (visited, left) place)
      fun start => walk.run fuel (visited, start) place := by
  induction fuel with
  | zero => exact fun visited _ => ⟨visited, [], by simp [run], by simp [run]⟩
  | succ fuel ih =>
    intro visited place
    by_cases hmem : walk.key place ∈ visited
    · refine ⟨visited, [], ?_, ?_⟩
      · intro left
        dsimp only
        rw [run_of_mem walk.noting hmem, List.append_nil]
      · intro start
        dsimp only
        rw [run_of_mem walk hmem, List.foldl_nil]
    · obtain ⟨visited', new, hnoted, hgathered⟩ :=
        notesFor_foldl ih (walk.next place) (walk.key place :: visited)
      dsimp only at hnoted hgathered
      refine ⟨visited', new ++ [place], ?_, ?_⟩
      · intro left
        have hrest : (walk.noting.next place).foldl (walk.noting.run fuel)
            (walk.noting.key place :: visited, left) = (visited', left ++ new) := hnoted left
        dsimp only
        rw [run_of_not_mem walk.noting hmem, hrest, ← List.append_assoc]
        rfl
      · intro start
        dsimp only
        rw [run_of_not_mem walk hmem, hgathered start, List.foldl_append]
        rfl

/-- What a walk gathers from a start without memory. -/
theorem run_eq_foldl_order (fuel : Nat) (place : N) (start : S) :
    (walk.run fuel ([], start) place).2 = (walk.order fuel place).foldl walk.leave start := by
  obtain ⟨visited, new, hnoted, hgathered⟩ := notesFor_run walk fuel [] place
  dsimp only at hnoted hgathered
  rw [hgathered start, order, hnoted []]
  rfl

end LeavingWalk

end TypePython.Lib
