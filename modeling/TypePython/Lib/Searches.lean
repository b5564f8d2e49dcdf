import Mathlib.Logic.Relation
import TypePython.Lib.Cycles

/-!
# Depth-first searches

A search looks at a place, and when it finds no answer there goes through what the place lists: an
answer that is at hand, or another place to search. `fuel` bounds the depth; without an answer
after it the search has not come back.

* `returns_iff`: a search without memory comes back exactly when every way it can take ends;
* `run_returns`: a search that enters no key twice comes back when the keys are finitely
  many.
-/

namespace TypePython.Lib

open Relation

structure SearchSpace (N R : Type) where
  look : N → Option R
  next : N → List (R ⊕ N)

namespace SearchSpace

variable {N R : Type}

/-! ## Without memory -/

/-- The first answer of what a place lists, `none` when one of the searches does not come back. -/
def firstOf (go : N → Option (Option R)) : List (R ⊕ N) → Option (Option R)
  | [] => some none
  | .inl answer :: _ => some (some answer)
  | .inr place :: rest =>
    match go place with
    | none => none
    | some (some answer) => some (some answer)
    | some none => firstOf go rest

variable (space : SearchSpace N R)

def run : Nat → N → Option (Option R)
  | 0, _ => none
  | fuel + 1, place =>
    match space.look place with
    | some answer => some (some answer)
    | none => firstOf (run fuel) (space.next place)

/-- Some answer lies at a place or below it. -/
inductive Leads : N → Prop where
  | look {place answer} : space.look place = some answer → Leads place
  | listed {place answer} : .inl answer ∈ space.next place → Leads place
  | deeper {place place'} : .inr place' ∈ space.next place → Leads place' → Leads place

/-- What stands in a list before something that is searched leads to no answer. -/
def Silent (items : List (R ⊕ N)) : Prop :=
  ∀ item ∈ items, ∃ place, item = .inr place ∧ ¬ space.Leads place

/-- The search of one place gets to the search of another. -/
def GoesInto (place place' : N) : Prop :=
  space.look place = none
    ∧ ∃ before after, space.next place = before ++ .inr place' :: after ∧ space.Silent before

section

variable {space}

theorem leads_iff {place : N} (hlook : space.look place = none) :
    space.Leads place ↔ ∃ item ∈ space.next place,
      ∀ place', item = .inr place' → space.Leads place' := by
  constructor
  · intro h
    cases h with
    | look hanswer =>
      rw [hlook] at hanswer
      cases hanswer
    | listed hmem => exact ⟨_, hmem, fun place' heq => by cases heq⟩
    | deeper hmem hleads =>
      refine ⟨_, hmem, fun place' heq => ?_⟩
      rw [← Sum.inr.inj heq]
      exact hleads
  · rintro ⟨item, hmem, hleads⟩
    cases item with
    | inl answer => exact .listed hmem
    | inr place' => exact .deeper hmem (hleads place' rfl)

theorem silent_cons {place : N} {rest : List (R ⊕ N)} (hplace : ¬ space.Leads place)
    (hrest : space.Silent rest) : space.Silent (.inr place :: rest) := by
  intro item hitem
  rcases List.mem_cons.1 hitem with rfl | hmem
  · exact ⟨place, rfl, hplace⟩
  · exact hrest item hmem

/-- What the answers of a list say, when those of its places say whether they lead anywhere. -/
theorem firstOf_spec {go : N → Option (Option R)}
    (hgo : ∀ place result, go place = some result →
      (result.isSome = true ↔ space.Leads place) ∧ Acc (flip space.GoesInto) place)
    {items : List (R ⊕ N)} : ∀ {result}, firstOf go items = some result →
      (result.isSome = true ↔ ¬ space.Silent items)
        ∧ ∀ before place after, items = before ++ .inr place :: after → space.Silent before →
          Acc (flip space.GoesInto) place := by
  induction items with
  | nil =>
    intro result h
    obtain rfl : none = result := Option.some.inj h
    have hsilent : space.Silent ([] : List (R ⊕ N)) := by
      intro item hitem
      cases hitem
    constructor
    · constructor
      · intro hsome
        cases hsome
      · intro hnot
        exact absurd hsilent hnot
    · intro before place after heq
      have hlength := congrArg List.length heq
      simp only [List.length_nil, List.length_append, List.length_cons] at hlength
      omega
  | cons item rest ih =>
    intro result h
    cases item with
    | inl answer =>
      obtain rfl : some answer = result := Option.some.inj h
      have hnot : ∀ others, ¬ space.Silent (.inl answer :: others) := by
        intro others hsilent
        obtain ⟨place, heq, -⟩ := hsilent _ List.mem_cons_self
        cases heq
      refine ⟨⟨fun _ => hnot rest, fun _ => rfl⟩, ?_⟩
      intro before place after heq hsilent
      cases before with
      | nil => cases heq
      | cons first others =>
        obtain ⟨rfl, -⟩ := List.cons.inj heq
        exact absurd hsilent (hnot others)
    | inr place =>
      cases hplace : go place with
      | none =>
        rw [firstOf, hplace] at h
        cases h
      | some answer =>
        obtain ⟨hleads, hacc⟩ := hgo place answer hplace
        cases answer with
        | some found =>
          rw [firstOf, hplace] at h
          obtain rfl : some found = result := Option.some.inj h
          have hnot : ∀ others, ¬ space.Silent (.inr place :: others) := by
            intro others hsilent
            obtain ⟨place', heq, hquiet⟩ := hsilent _ List.mem_cons_self
            rw [← Sum.inr.inj heq] at hquiet
            exact hquiet (hleads.1 rfl)
          refine ⟨⟨fun _ => hnot rest, fun _ => rfl⟩, ?_⟩
          intro before place' after heq hsilent
          cases before with
          | nil =>
            obtain ⟨hsame, -⟩ := List.cons.inj heq
            rw [← Sum.inr.inj hsame]
            exact hacc
          | cons first others =>
            obtain ⟨rfl, -⟩ := List.cons.inj heq
            exact absurd hsilent (hnot others)
        | none =>
          rw [firstOf, hplace] at h
          have hquiet : ¬ space.Leads place := fun hl => by cases hleads.2 hl
          obtain ⟨hresult, hrest⟩ := ih h
          constructor
          · rw [hresult]
            constructor
            · intro hnot hsilent
              exact hnot fun item hitem => hsilent item (List.mem_cons_of_mem _ hitem)
            · intro hnot hsilent
              exact hnot (silent_cons hquiet hsilent)
          · intro before place' after heq hsilent
            cases before with
            | nil =>
              obtain ⟨hsame, -⟩ := List.cons.inj heq
              rw [← Sum.inr.inj hsame]
              exact hacc
            | cons first others =>
              obtain ⟨-, hothers⟩ := List.cons.inj heq
              exact hrest others place' after hothers fun item hitem =>
                hsilent item (List.mem_cons_of_mem _ hitem)

/-- A search that comes back has an answer exactly when there is one, and every way it could have
taken ends. -/
theorem run_spec {fuel : Nat} : ∀ {place result}, space.run fuel place = some result →
    (result.isSome = true ↔ space.Leads place) ∧ Acc (flip space.GoesInto) place := by
  induction fuel with
  | zero =>
    intro place result h
    cases h
  | succ fuel ih =>
    intro place result h
    rw [run] at h
    cases hlook : space.look place with
    | some answer =>
      rw [hlook] at h
      obtain rfl : some answer = result := Option.some.inj h
      refine ⟨⟨fun _ => .look hlook, fun _ => rfl⟩, ⟨_, ?_⟩⟩
      rintro place' ⟨hnone, -⟩
      rw [hlook] at hnone
      cases hnone
    | none =>
      rw [hlook] at h
      obtain ⟨hresult, hacc⟩ := firstOf_spec (fun place result hgo => ih hgo) h
      constructor
      · rw [hresult, leads_iff hlook]
        unfold Silent
        push Not
        constructor
        · rintro ⟨item, hitem, hnot⟩
          exact ⟨item, hitem, hnot⟩
        · rintro ⟨item, hitem, hleads⟩
          exact ⟨item, hitem, hleads⟩
      · constructor
        rintro place' ⟨-, before, after, heq, hsilent⟩
        exact hacc before place' after heq hsilent

/-! ## More fuel -/

theorem firstOf_mono {go go' : N → Option (Option R)}
    (hgo : ∀ place result, go place = some result → go' place = some result)
    {items : List (R ⊕ N)} {result : Option R} (h : firstOf go items = some result) :
    firstOf go' items = some result := by
  induction items with
  | nil => exact h
  | cons item rest ih =>
    cases item with
    | inl answer => exact h
    | inr place =>
      cases hplace : go place with
      | none =>
        rw [firstOf, hplace] at h
        cases h
      | some answer =>
        rw [firstOf, hplace] at h
        rw [firstOf, hgo place answer hplace]
        cases answer with
        | some found => exact h
        | none => exact ih h

theorem run_succ {fuel : Nat} : ∀ {place result}, space.run fuel place = some result →
    space.run (fuel + 1) place = some result := by
  induction fuel with
  | zero =>
    intro place result h
    cases h
  | succ fuel ih =>
    intro place result h
    rw [run] at h ⊢
    cases hlook : space.look place with
    | some answer =>
      rw [hlook] at h
      exact h
    | none =>
      rw [hlook] at h
      exact firstOf_mono (fun place result => ih) h

theorem run_mono {fuel fuel' : Nat} (hle : fuel ≤ fuel') {place : N} {result : Option R}
    (h : space.run fuel place = some result) : space.run fuel' place = some result := by
  induction hle with
  | refl => exact h
  | step _ ih => exact run_succ ih

/-! ## Coming back -/

/-- Every place is searched in time, so the list is. -/
theorem firstOf_returns {place : N} (hlook : space.look place = none)
    (hinto : ∀ place', space.GoesInto place place' → ∃ fuel, (space.run fuel place').isSome) :
    ∀ after before, space.next place = before ++ after → space.Silent before →
      ∃ fuel, (firstOf (space.run fuel) after).isSome := by
  intro after
  induction after with
  | nil => exact fun _ _ _ => ⟨0, rfl⟩
  | cons item rest ih =>
    intro before heq hsilent
    cases item with
    | inl answer => exact ⟨0, rfl⟩
    | inr place' =>
      obtain ⟨fuel, hfuel⟩ := hinto place' ⟨hlook, before, rest, heq, hsilent⟩
      obtain ⟨result, hresult⟩ := Option.isSome_iff_exists.1 hfuel
      cases result with
      | some answer =>
        refine ⟨fuel, ?_⟩
        rw [firstOf, hresult]
        rfl
      | none =>
        have hquiet : ¬ space.Leads place' := fun hleads => by
          cases (run_spec hresult).1.2 hleads
        have hbefore : space.Silent (before ++ [.inr place']) := by
          intro item hitem
          rcases List.mem_append.1 hitem with hmem | hmem
          · exact hsilent item hmem
          · exact ⟨place', List.mem_singleton.1 hmem, hquiet⟩
        obtain ⟨fuel', hfuel'⟩ := ih (before ++ [.inr place'])
          (by rw [heq, List.append_assoc]; rfl) hbefore
        obtain ⟨result', hresult'⟩ := Option.isSome_iff_exists.1 hfuel'
        refine ⟨max fuel fuel', ?_⟩
        rw [firstOf, run_mono (Nat.le_max_left fuel fuel') hresult]
        have hrest := firstOf_mono (fun _ _ => run_mono (Nat.le_max_right fuel fuel'))
          hresult'
        exact Option.isSome_iff_exists.2 ⟨result', hrest⟩

/-- The search comes back exactly when every way it can take ends. -/
theorem returns_iff {place : N} :
    (∃ fuel, (space.run fuel place).isSome) ↔ Acc (flip space.GoesInto) place := by
  constructor
  · rintro ⟨fuel, hfuel⟩
    obtain ⟨result, hresult⟩ := Option.isSome_iff_exists.1 hfuel
    exact (run_spec hresult).2
  · intro hacc
    induction hacc with
    | intro place _ ih =>
      cases hlook : space.look place with
      | some answer =>
        refine ⟨1, ?_⟩
        rw [run, hlook]
        rfl
      | none =>
        obtain ⟨fuel, hfuel⟩ := firstOf_returns hlook (fun place' hinto => ih place' hinto)
          (space.next place) [] rfl (fun item hitem => by cases hitem)
        refine ⟨fuel + 1, ?_⟩
        rw [run, hlook]
        exact hfuel

/-! ## What is found -/

variable (space) in
def Lists (place place' : N) : Prop := .inr place' ∈ space.next place

theorem lists_of_goesInto {place place' : N} (h : space.GoesInto place place') :
    space.Lists place place' := by
  obtain ⟨-, before, after, heq, -⟩ := h
  unfold Lists
  rw [heq]
  exact List.mem_append_right _ List.mem_cons_self

/-- The answer a search gives: of the place itself, else the first that what it lists leads to. -/
inductive Finds (space : SearchSpace N R) : N → R → Prop where
  | look {place answer} : space.look place = some answer → Finds space place answer
  | listed {place answer before after} : space.look place = none →
      space.next place = before ++ .inl answer :: after → space.Silent before →
      Finds space place answer
  | deeper {place place' answer} : space.GoesInto place place' → Finds space place' answer →
      Finds space place answer

theorem Finds.leads {place : N} {answer : R} (h : space.Finds place answer) :
    space.Leads place := by
  induction h with
  | look hlook => exact .look hlook
  | @listed place answer before after _ heq _ =>
    have hmem : .inl answer ∈ space.next place := by
      rw [heq]
      exact List.mem_append_right _ List.mem_cons_self
    exact .listed hmem
  | deeper hinto _ ih => exact .deeper (lists_of_goesInto hinto) ih

/-- Two ways to split a list at its first item that is not silent are one. -/
theorem silent_split_unique {before before' after after' : List (R ⊕ N)} {item item' : R ⊕ N}
    (heq : before ++ item :: after = before' ++ item' :: after')
    (hbefore : space.Silent before) (hbefore' : space.Silent before')
    (hitem : ¬ space.Silent [item]) (hitem' : ¬ space.Silent [item']) : item = item' := by
  induction before generalizing before' with
  | nil =>
    cases before' with
    | nil => exact (List.cons.inj heq).1
    | cons first rest =>
      -- the item would be silent
      have hsame := (List.cons.inj heq).1
      refine absurd ?_ hitem
      intro other hother
      rw [List.mem_singleton.1 hother, hsame]
      exact hbefore' first List.mem_cons_self
  | cons first rest ih =>
    cases before' with
    | nil =>
      have hsame := (List.cons.inj heq).1
      refine absurd ?_ hitem'
      intro other hother
      rw [List.mem_singleton.1 hother, ← hsame]
      exact hbefore first List.mem_cons_self
    | cons first' rest' =>
      exact ih (List.cons.inj heq).2
        (fun other hother => hbefore other (List.mem_cons_of_mem _ hother))
        (fun other hother => hbefore' other (List.mem_cons_of_mem _ hother))

theorem not_silent_answer (answer : R) : ¬ space.Silent [.inl answer] := by
  intro h
  obtain ⟨place, heq, -⟩ := h _ List.mem_cons_self
  cases heq

theorem not_silent_place {place : N} (h : space.Leads place) : ¬ space.Silent [.inr place] := by
  intro hsilent
  obtain ⟨place', heq, hquiet⟩ := hsilent _ List.mem_cons_self
  rw [← Sum.inr.inj heq] at hquiet
  exact hquiet h

theorem Finds.unique {place : N} {answer answer' : R} (h : space.Finds place answer)
    (h' : space.Finds place answer') : answer = answer' := by
  induction h with
  | look hlook =>
    cases h' with
    | look hlook' =>
      rw [hlook] at hlook'
      exact Option.some.inj hlook'
    | listed hnone =>
      rw [hlook] at hnone
      cases hnone
    | deeper hinto =>
      rw [hinto.1] at hlook
      cases hlook
  | listed hnone heq hsilent =>
    cases h' with
    | look hlook =>
      rw [hnone] at hlook
      cases hlook
    | listed _ heq' hsilent' =>
      rw [heq] at heq'
      exact Sum.inl.inj (silent_split_unique heq' hsilent hsilent' (not_silent_answer _)
        (not_silent_answer _))
    | deeper hinto hfinds =>
      obtain ⟨-, before', after', heq', hsilent'⟩ := hinto
      rw [heq] at heq'
      have hsame := silent_split_unique heq' hsilent hsilent' (not_silent_answer _)
        (not_silent_place hfinds.leads)
      cases hsame
  | deeper hinto hfinds ih =>
    obtain ⟨hnone, before, after, heq, hsilent⟩ := hinto
    cases h' with
    | look hlook =>
      rw [hnone] at hlook
      cases hlook
    | listed _ heq' hsilent' =>
      rw [heq] at heq'
      have hsame := silent_split_unique heq' hsilent hsilent'
        (not_silent_place hfinds.leads) (not_silent_answer _)
      cases hsame
    | deeper hinto' hfinds' =>
      obtain ⟨-, before', after', heq', hsilent'⟩ := hinto'
      rw [heq] at heq'
      have hsame := silent_split_unique heq' hsilent hsilent'
        (not_silent_place hfinds.leads) (not_silent_place hfinds'.leads)
      rw [← Sum.inr.inj hsame] at hfinds'
      exact ih hfinds'

/-- A way of a search ends in what is found there. -/
theorem Finds.of_way {place place' : N} {answer : R}
    (h : ReflTransGen space.GoesInto place place') (hfinds : space.Finds place' answer) :
    space.Finds place answer := by
  induction h using ReflTransGen.head_induction_on with
  | refl => exact hfinds
  | head hinto _ ih => exact .deeper hinto ih

/-- Where lists hold no answers, what is found is the answer of a place. -/
theorem Finds.way {place : N} {answer : R} (h : space.Finds place answer)
    (hnone : ∀ place answer, .inl answer ∉ space.next place) :
    ∃ place', ReflTransGen space.GoesInto place place' ∧ space.look place' = some answer := by
  induction h with
  | look hlook => exact ⟨_, .refl, hlook⟩
  | @listed place answer before after _ heq _ =>
    refine absurd ?_ (hnone place answer)
    rw [heq]
    exact List.mem_append_right _ List.mem_cons_self
  | deeper hinto _ ih =>
    obtain ⟨place', hway, hlook⟩ := ih
    exact ⟨place', .head hinto hway, hlook⟩

end

end SearchSpace

/-! ## With memory -/

/-- A search that remembers the keys it has entered and enters none of them twice. `S` is what it
gathers on the way. -/
structure RememberingSearch (N K R S : Type) where
  key : N → K
  /-- Answered before the key is looked up. -/
  atOnce : N → Option R
  enter : N → S → Option R × S
  next : N → List (R ⊕ N)

namespace RememberingSearch

variable {N K R S : Type}

/-- The keys entered and what is gathered. -/
abbrev Memory (K S : Type) := List K × S

/-- As `SearchSpace.firstOf`, with the memory handed on. -/
def firstOf {M : Type} (go : N → M → Option (Option R × M)) :
    List (R ⊕ N) → M → Option (Option R × M)
  | [], memory => some (none, memory)
  | .inl answer :: _, memory => some (some answer, memory)
  | .inr place :: rest, memory =>
    match go place memory with
    | none => none
    | some (some answer, memory) => some (some answer, memory)
    | some (none, memory) => firstOf go rest memory

/-- The places of a list, each searched with the memory the one before it leaves. -/
theorem firstOf_returns {go : N → Memory K S → Option (Option R × Memory K S)}
    {visited : List K} {items : List (R ⊕ N)} :
    (∀ place, .inr place ∈ items → ∀ memory : Memory K S, visited ⊆ memory.1 →
      ∃ result memory', go place memory = some (result, memory') ∧ memory.1 ⊆ memory'.1) →
    ∀ memory : Memory K S, visited ⊆ memory.1 →
      ∃ result memory', firstOf go items memory = some (result, memory')
        ∧ memory.1 ⊆ memory'.1 := by
  induction items with
  | nil =>
    intro _ memory _
    exact ⟨none, memory, rfl, List.Subset.refl _⟩
  | cons item rest ih =>
    intro hgo memory hsub
    cases item with
    | inl answer => exact ⟨some answer, memory, rfl, List.Subset.refl _⟩
    | inr place =>
      have ⟨result, memory', hplace, hgrows⟩ := hgo place List.mem_cons_self memory hsub
      rw [firstOf, hplace]
      cases result with
      | some answer => exact ⟨some answer, memory', rfl, hgrows⟩
      | none =>
        have hrest := ih fun place' hmem => hgo place' (List.mem_cons_of_mem _ hmem)
        have ⟨result, memory'', hrun, hgrows'⟩ :=
          hrest memory' (List.Subset.trans hsub hgrows)
        exact ⟨result, memory'', hrun, List.Subset.trans hgrows hgrows'⟩

variable [DecidableEq K] (search : RememberingSearch N K R S)

def run : Nat → N → Memory K S → Option (Option R × Memory K S)
  | 0, _, _ => none
  | fuel + 1, place, (visited, gathered) =>
    match search.atOnce place with
    | some answer => some (some answer, visited, gathered)
    | none =>
      if search.key place ∈ visited then some (none, visited, gathered)
      else
        match search.enter place gathered with
        | (some answer, gathered) => some (some answer, search.key place :: visited, gathered)
        | (none, gathered) =>
          firstOf (run fuel) (search.next place) (search.key place :: visited, gathered)

/-- How many of the keys have not been entered. -/
def unvisited (keys visited : List K) : Nat := (keys.filter fun k => k ∉ visited).length

theorem unvisited_mono {keys visited visited' : List K} (h : visited ⊆ visited') :
    unvisited keys visited' ≤ unvisited keys visited := by
  unfold unvisited
  apply List.Sublist.length_le
  apply List.monotone_filter_right
  intro k hk
  rw [decide_eq_true_eq] at hk ⊢
  exact fun hmem => hk (h hmem)

theorem unvisited_le {keys visited : List K} : unvisited keys visited ≤ keys.length :=
  List.length_filter_le _ _

theorem unvisited_cons_lt {keys visited : List K} {k : K} (hkeys : k ∈ keys)
    (hvisited : k ∉ visited) : unvisited keys (k :: visited) < unvisited keys visited := by
  unfold unvisited
  induction keys with
  | nil => cases hkeys
  | cons first rest ih =>
    have hrest : (rest.filter fun k' => k' ∉ k :: visited).length
        ≤ (rest.filter fun k' => k' ∉ visited).length :=
      unvisited_mono (List.subset_cons_self k visited)
    by_cases hsame : first = k
    · rw [hsame, List.filter_cons_of_neg (by simp),
        List.filter_cons_of_pos (by simpa using hvisited), List.length_cons]
      omega
    · have hlater := ih ((List.mem_cons.1 hkeys).resolve_left fun heq => hsame heq.symm)
      by_cases hseen : first ∈ visited
      · rw [List.filter_cons_of_neg (by simp [hseen]), List.filter_cons_of_neg (by simp [hseen])]
        exact hlater
      · rw [List.filter_cons_of_pos (by simp [hseen, hsame]),
          List.filter_cons_of_pos (by simpa using hseen), List.length_cons, List.length_cons]
        omega

/-- A search over finitely many keys comes back: every place it enters takes one of them. -/
theorem run_returns {keys : List K} {reached : N → Prop}
    (hkeys : ∀ place, reached place → search.key place ∈ keys)
    (hnext : ∀ place place', reached place → .inr place' ∈ search.next place → reached place')
    {fuel : Nat} : ∀ {place} {memory : Memory K S}, reached place →
      unvisited keys memory.1 < fuel →
      ∃ result memory', search.run fuel place memory = some (result, memory')
        ∧ memory.1 ⊆ memory'.1 := by
  induction fuel with
  | zero =>
    intro place memory _ hlt
    omega
  | succ fuel ih =>
    rintro place ⟨visited, gathered⟩ hreached hlt
    rw [run]
    cases search.atOnce place with
    | some answer => exact ⟨some answer, _, rfl, List.Subset.refl _⟩
    | none =>
      by_cases hseen : search.key place ∈ visited
      · exact ⟨none, _, if_pos hseen, List.Subset.refl _⟩
      · have hfewer := unvisited_cons_lt (hkeys place hreached) hseen
        have hgrows := List.subset_cons_self (search.key place) visited
        simp only [if_neg hseen]
        rcases search.enter place gathered with ⟨answer, gathered'⟩
        cases answer with
        | some found => exact ⟨some found, _, rfl, hgrows⟩
        | none =>
          have hplaces : ∀ place', .inr place' ∈ search.next place →
              ∀ memory : Memory K S, search.key place :: visited ⊆ memory.1 →
                ∃ result memory', search.run fuel place' memory = some (result, memory')
                  ∧ memory.1 ⊆ memory'.1 := by
            intro place' hmem memory hsub
            have hbound : unvisited keys memory.1 ≤ unvisited keys (search.key place :: visited) :=
              unvisited_mono hsub
            have hlt' : unvisited keys visited < fuel + 1 := hlt
            exact ih (hnext place place' hreached hmem) (by omega)
          have ⟨result, memory', hrun, hsub⟩ := firstOf_returns hplaces
            (search.key place :: visited, gathered') (List.Subset.refl _)
          exact ⟨result, memory', hrun, List.Subset.trans hgrows hsub⟩

end RememberingSearch

/-! ## What a search with memory finds -/

namespace SearchSpace

variable {N K R : Type}

/-- The search of a space that enters no key twice. -/
def remembering (space : SearchSpace N R) (key : N → K) : RememberingSearch N K R Unit where
  key := key
  atOnce := fun _ => none
  enter := fun place _ => (space.look place, ())
  next := space.next

variable {space : SearchSpace N R} {key : N → K}

theorem not_leads_of_lists {place place' : N} (h : ReflTransGen space.Lists place place')
    (hquiet : ¬ space.Leads place) : ¬ space.Leads place' := by
  induction h with
  | refl => exact hquiet
  | tail _ hlast ih => exact fun hleads => ih (.deeper hlast hleads)

variable (space key) in
/-- Places of one key lead to answers alike, and no way leads back to a key. -/
structure KeyedBelow (place : N) : Prop where
  alike : ∀ place' place'', ReflTransGen space.Lists place place' →
    ReflTransGen space.Lists place place'' → key place' = key place'' →
    (space.Leads place' ↔ space.Leads place'')
  noWayBack : ∀ place' place'', ReflTransGen space.Lists place place' →
    TransGen space.Lists place' place'' → key place'' ≠ key place'

theorem KeyedBelow.lists {place place' : N} (h : space.KeyedBelow key place)
    (hlists : ReflTransGen space.Lists place place') : space.KeyedBelow key place' where
  alike := fun p q hp hq => h.alike p q (hlists.trans hp) (hlists.trans hq)
  noWayBack := fun p q hp hq => h.noWayBack p q (hlists.trans hp) hq

/-- The places below a place whose keys have been entered lead nowhere. -/
def Dead (space : SearchSpace N R) (key : N → K) (visited : List K) (place : N) : Prop :=
  ∀ place', ReflTransGen space.Lists place place' → key place' ∈ visited → ¬ space.Leads place'

/-- After a place that leads nowhere, the keys it has added are dead below its neighbours too. -/
theorem Dead.after {root place place' : N} {visited visited' : List K}
    (hkeyed : space.KeyedBelow key root) (hplace : space.Lists root place)
    (hplace' : space.Lists root place') (hdead : Dead space key visited place')
    (hquiet : ¬ space.Leads place)
    (hadded : ∀ k ∈ visited', k ∈ visited
      ∨ ∃ entered, ReflTransGen space.Lists place entered ∧ key entered = k) :
    Dead space key visited' place' := by
  intro below hbelow hmem
  rcases hadded _ hmem with hold | ⟨entered, hentered, hkey⟩
  · exact hdead below hbelow hold
  · have halike := hkeyed.alike entered below (.head hplace hentered) (.head hplace' hbelow) hkey
    rw [← halike]
    exact not_leads_of_lists hentered hquiet

variable [DecidableEq K]

/-- One list of a search with memory, when the search of every place in it is right. -/
theorem firstOf_remembering {fuel : Nat} {root : N} (hkeyed : space.KeyedBelow key root)
    (hlook : space.look root = none)
    (hrun : ∀ place visited result visited', space.Lists root place →
      Dead space key visited place →
      (space.remembering key).run fuel place (visited, ()) = some (result, visited', ()) →
      (∀ answer, result = some answer → space.Finds place answer)
        ∧ (result = none → ¬ space.Leads place ∧ ∀ k ∈ visited', k ∈ visited
            ∨ ∃ entered, ReflTransGen space.Lists place entered ∧ key entered = k)) :
    ∀ after before visited result visited', space.next root = before ++ after →
      space.Silent before → (∀ place, space.Lists root place → Dead space key visited place) →
      RememberingSearch.firstOf ((space.remembering key).run fuel) after (visited, ())
        = some (result, visited', ()) →
      (∀ answer, result = some answer → space.Finds root answer)
        ∧ (result = none → space.Silent (before ++ after) ∧ ∀ k ∈ visited', k ∈ visited
            ∨ ∃ entered, TransGen space.Lists root entered ∧ key entered = k) := by
  intro after
  induction after with
  | nil =>
    intro before visited result visited' _ hsilent _ h
    have hpair := Prod.mk.inj (Option.some.inj h)
    have hvisited := (Prod.mk.inj hpair.2).1
    constructor
    · intro answer hanswer
      rw [← hpair.1] at hanswer
      cases hanswer
    · intro _
      rw [List.append_nil]
      refine ⟨hsilent, fun k hk => .inl ?_⟩
      rw [hvisited]
      exact hk
  | cons item rest ih =>
    intro before visited result visited' heq hsilent hdead h
    cases item with
    | inl answer =>
      have hpair := Prod.mk.inj (Option.some.inj h)
      constructor
      · intro answer' hanswer
        rw [← hpair.1] at hanswer
        rw [← Option.some.inj hanswer]
        exact .listed hlook heq hsilent
      · intro hnone
        rw [← hpair.1] at hnone
        cases hnone
    | inr place =>
      have hplace : space.Lists root place := by
        unfold Lists
        rw [heq]
        exact List.mem_append_right _ List.mem_cons_self
      rw [RememberingSearch.firstOf] at h
      cases hgo : (space.remembering key).run fuel place (visited, ()) with
      | none =>
        rw [hgo] at h
        cases h
      | some out =>
        obtain ⟨found, visited₁, ⟨⟩⟩ := out
        obtain ⟨hfound, hnone⟩ := hrun place visited found visited₁ hplace
          (hdead place hplace) hgo
        rw [hgo] at h
        cases found with
        | some answer =>
          have hpair := Prod.mk.inj (Option.some.inj h)
          constructor
          · intro answer' hanswer
            rw [← hpair.1] at hanswer
            rw [← Option.some.inj hanswer]
            exact .deeper ⟨hlook, before, rest, heq, hsilent⟩ (hfound answer rfl)
          · intro hnone'
            rw [← hpair.1] at hnone'
            cases hnone'
        | none =>
          obtain ⟨hquiet, hadded⟩ := hnone rfl
          have heq' : space.next root = (before ++ [.inr place]) ++ rest := by
            rw [heq, List.append_assoc]
            rfl
          have hsilent' : space.Silent (before ++ [.inr place]) := by
            intro item hitem
            rcases List.mem_append.1 hitem with hmem | hmem
            · exact hsilent item hmem
            · exact ⟨place, List.mem_singleton.1 hmem, hquiet⟩
          have hdead' : ∀ place', space.Lists root place' →
              Dead space key visited₁ place' := fun place' hplace' =>
            (hdead place' hplace').after hkeyed hplace hplace' hquiet hadded
          obtain ⟨hlater, hend⟩ := ih _ visited₁ result visited' heq' hsilent' hdead' h
          refine ⟨hlater, fun hresult => ?_⟩
          obtain ⟨hall, hvisited⟩ := hend hresult
          rw [List.append_assoc] at hall
          refine ⟨hall, fun k hk => ?_⟩
          rcases hvisited k hk with hmem | hentered
          · rcases hadded k hmem with hold | ⟨entered, hentered, hkey⟩
            · exact .inl hold
            · exact .inr ⟨entered, TransGen.head' hplace hentered, hkey⟩
          · exact .inr hentered

theorem remembering_run_succ {fuel : Nat} {place : N} {visited : List K} :
    (space.remembering key).run (fuel + 1) place (visited, ())
      = if key place ∈ visited then some (none, visited, ())
        else
          match space.look place with
          | some answer => some (some answer, key place :: visited, ())
          | none => RememberingSearch.firstOf ((space.remembering key).run fuel)
              (space.next place) (key place :: visited, ()) := by
  rw [RememberingSearch.run]
  by_cases hmem : key place ∈ visited
  · rw [if_pos hmem]
    exact if_pos hmem
  · rw [if_neg hmem]
    refine (if_neg hmem).trans ?_
    have henter : (space.remembering key).enter place () = (space.look place, ()) := rfl
    rw [henter]
    cases space.look place <;> rfl

/-- A search with memory finds what the space finds. -/
theorem remembering_spec {fuel : Nat} : ∀ {place visited result visited'},
    space.KeyedBelow key place → Dead space key visited place →
    (space.remembering key).run fuel place (visited, ()) = some (result, visited', ()) →
    (∀ answer, result = some answer → space.Finds place answer)
      ∧ (result = none → ¬ space.Leads place ∧ ∀ k ∈ visited', k ∈ visited
          ∨ ∃ entered, ReflTransGen space.Lists place entered ∧ key entered = k) := by
  induction fuel with
  | zero =>
    intro place visited result visited' _ _ h
    cases h
  | succ fuel ih =>
    intro place visited result visited' hkeyed hdead h
    rw [remembering_run_succ] at h
    split at h
    · next hmem =>
        -- a key that has been entered
        have hpair := Prod.mk.inj (Option.some.inj h)
        have hvisited := (Prod.mk.inj hpair.2).1
        constructor
        · intro answer hanswer
          rw [← hpair.1] at hanswer
          cases hanswer
        · intro _
          refine ⟨hdead place .refl hmem, fun k hk => .inl ?_⟩
          rw [hvisited]
          exact hk
    · cases hlook : space.look place with
      | some answer =>
        rw [hlook] at h
        have hpair := Prod.mk.inj (Option.some.inj h)
        constructor
        · intro answer' hanswer
          rw [← hpair.1] at hanswer
          rw [← Option.some.inj hanswer]
          exact .look hlook
        · intro hnone
          rw [← hpair.1] at hnone
          cases hnone
      | none =>
        rw [hlook] at h
        have hdead' : ∀ place', space.Lists place place' →
            Dead space key (key place :: visited) place' := by
          intro place' hplace' below hbelow hmem
          rcases List.mem_cons.1 hmem with hsame | hold
          · -- no way back to the key of the place
            exact absurd hsame
              (hkeyed.noWayBack place below .refl (TransGen.head' hplace' hbelow))
          · exact hdead below (.head hplace' hbelow) hold
        have hgo : ∀ place' visited result visited', space.Lists place place' →
            Dead space key visited place' →
            (space.remembering key).run fuel place' (visited, ())
              = some (result, visited', ()) → _ := fun place' visited result visited' hplace'
            hdead h => ih (hkeyed.lists (.single hplace')) hdead h
        obtain ⟨hfound, hend⟩ := firstOf_remembering hkeyed hlook hgo (space.next place) []
          (key place :: visited) result visited' rfl (fun item hitem => by cases hitem)
          hdead' h
        refine ⟨hfound, fun hresult => ?_⟩
        obtain ⟨hsilent, hvisited⟩ := hend hresult
        constructor
        · rw [leads_iff hlook]
          rintro ⟨item, hitem, hleads⟩
          obtain ⟨place', heq, hquiet⟩ := hsilent item hitem
          exact hquiet (hleads place' heq)
        · intro k hk
          rcases hvisited k hk with hmem | ⟨entered, hentered, hkey⟩
          · rcases List.mem_cons.1 hmem with hsame | hold
            · exact .inr ⟨place, .refl, hsame.symm⟩
            · exact .inl hold
          · exact .inr ⟨entered, hentered.to_reflTransGen, hkey⟩

/-- The answer of a search with memory that has come back. -/
theorem remembering_result_iff {place : N} (hkeyed : space.KeyedBelow key place) {fuel : Nat}
    {result : Option R} {visited : List K}
    (hrun : (space.remembering key).run fuel place ([], ()) = some (result, visited, ()))
    {answer : R} : result = some answer ↔ space.Finds place answer := by
  have hdead : Dead space key [] place := by
    intro place' _ hmem
    cases hmem
  obtain ⟨hfound, hnone⟩ := remembering_spec hkeyed hdead hrun
  constructor
  · exact hfound answer
  · intro hfinds
    cases result with
    | none => exact absurd hfinds.leads (hnone rfl).1
    | some answer' => rw [hfinds.unique (hfound answer' rfl)]

/-- A search with memory that comes back answers what the space finds, and only that. -/
theorem remembering_answers_iff {place : N} (hkeyed : space.KeyedBelow key place)
    (hreturns : ∃ fuel, ((space.remembering key).run fuel place ([], ())).isSome = true)
    {answer : R} :
    (∃ fuel memory, (space.remembering key).run fuel place ([], ()) = some (some answer, memory))
      ↔ space.Finds place answer := by
  constructor
  · rintro ⟨fuel, ⟨visited, ⟨⟩⟩, hrun⟩
    exact (remembering_result_iff hkeyed hrun).1 rfl
  · intro hfinds
    obtain ⟨fuel, hfuel⟩ := hreturns
    obtain ⟨⟨result, visited, ⟨⟩⟩, hrun⟩ := Option.isSome_iff_exists.1 hfuel
    rw [(remembering_result_iff hkeyed hrun).2 hfinds] at hrun
    exact ⟨fuel, (visited, ()), hrun⟩

end SearchSpace

end TypePython.Lib
