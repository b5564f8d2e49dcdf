import Mathlib.Data.List.Perm.Subperm
import TypePython.Lib.KeyedLists

/-!
# Walks over bases

The items of a class are those of its bases, one base after the other, and its own; a later item
replaces an earlier one with the same key. The walk goes from a class to its bases, and stops with
an error where it comes back to a class that it is on, or where it meets a base that is no class.

The walk ends (`walk_terminates`), comes back to a class exactly if no unknown base is met before
(`walk_cycle_iff`), and finds each item of the class, as it is brought along the bases
(`walk_found`).
-/

namespace TypePython.Lib

/-- Classes with their bases and items, where `ι` is what stands in a list of bases. -/
structure Hierarchy (κ ι β φ ν : Type) where
  find : κ → Option β
  bases : β → List ι
  /-- Where a base is looked up; there are bases that are passed over. -/
  target : ι → Option κ
  /-- The class has items of its own kind whether it inherits some or not. -/
  isListed : β → Bool
  own : β → List φ
  key : φ → ν
  /-- An item of a base, as the class has it that lists the base. -/
  inherit : ι → β → φ → φ
  key_inherit : ∀ base block item, key (inherit base block item) = key item

inductive WalkError (κ ι β : Type) where
  | outOfFuel
  | unknown (owner : β) (base : ι)
  | cycle (path : List κ)

/-- What is known of a class while its bases are gone through. -/
structure Inherited (φ : Type) where
  items : List φ
  isMember : Bool

variable {κ ι β φ ν : Type}

variable {base : ι} {fuel : Nat} {inherited inherited' : Inherited φ} {written : ν → φ → Prop}
  {brings : ν → Prop} {bases : List ι}

namespace Hierarchy

section

variable (h : Hierarchy κ ι β φ ν)

/-! ## Classes and bases -/

/-- The class that a base is. -/
def baseClass (base : ι) : Option β := (h.target base).bind h.find

/-- The class has items. -/
inductive Member : β → Prop
  | listed {block : β} : h.isListed block = true → Member block
  | inherited {block baseBlock : β} {base : ι} :
      base ∈ h.bases block → h.baseClass base = some baseBlock → Member baseBlock → Member block

/-- A base that items are inherited from. -/
structure MemberBase (base : ι) (baseBlock : β) : Prop where
  named : h.baseClass base = some baseBlock
  member : h.Member baseBlock

/-- From the class the walk can come to a base that is no class. -/
inductive MeetsUnknown : List κ → κ → Prop
  | here {path : List κ} {k k' : κ} {block : β} {base : ι} :
      k ∉ path → h.find k = some block → base ∈ h.bases block → h.target base = some k' →
        h.find k' = none → MeetsUnknown path k
  | onward {path : List κ} {k k' : κ} {block : β} {base : ι} :
      k ∉ path → h.find k = some block → base ∈ h.bases block → h.target base = some k' →
        MeetsUnknown (path ++ [k]) k' → MeetsUnknown path k

/-- A base that no unknown base is met at. -/
def Known (path : List κ) (base : ι) : Prop :=
  ∀ k, h.target base = some k → (h.find k).isSome = true ∧ ¬ h.MeetsUnknown path k

/-- From base to base the walk comes back to a class that it is on, and no base that is listed
before one of these leads to an unknown one. -/
inductive ReturnsFirst : List κ → κ → Prop
  | here {path : List κ} {k : κ} : k ∈ path → ReturnsFirst path k
  | onward {path : List κ} {k k' : κ} {block : β} {before after : List ι} {base : ι} :
      k ∉ path → h.find k = some block → h.bases block = before ++ base :: after →
        (∀ earlier ∈ before, h.Known (path ++ [k]) earlier) → h.target base = some k' →
          (h.find k').isSome = true → ReturnsFirst (path ++ [k]) k' → ReturnsFirst path k

end

/-! ### The way from a class -/

section

variable {h : Hierarchy κ ι β φ ν} {keys : List κ}

/-- The classes on the way are different ones, so the fuel lasts. -/
structure OnTheWay (h : Hierarchy κ ι β φ ν) (keys : List κ) (fuel : Nat) (path : List κ) :
    Prop where
  known : ∀ k, (h.find k).isSome = true → k ∈ keys
  nodup : path.Nodup
  inside : path ⊆ keys
  enough : keys.length < path.length + fuel

theorem OnTheWay.ne_zero {path : List κ} (hway : OnTheWay h keys fuel path) : fuel ≠ 0 := by
  rintro rfl
  have hle := (List.subperm_of_subset hway.nodup hway.inside).length_le
  have henough := hway.enough
  omega

theorem OnTheWay.push {path : List κ} (hway : OnTheWay h keys (fuel + 1) path) {k : κ} {block : β}
    (hfresh : k ∉ path) (hblock : h.find k = some block) : OnTheWay h keys fuel (path ++ [k]) := by
  have hk : k ∈ keys := hway.known k (by rw [hblock]; rfl)
  refine ⟨hway.known, ?_, ?_, ?_⟩
  · refine List.nodup_append.2 ⟨hway.nodup, List.nodup_singleton k, ?_⟩
    rintro other hother _ hmem rfl
    exact hfresh (List.mem_singleton.1 hmem ▸ hother)
  · intro other hother
    rcases List.mem_append.1 hother with hother | hother
    · exact hway.inside hother
    · rwa [List.mem_singleton.1 hother]
  · have henough := hway.enough
    rw [List.length_append, List.length_singleton]
    omega

/-- Where the bases end in a cycle. -/
def BasesReturn (h : Hierarchy κ ι β φ ν) (path : List κ) (bases : List ι) : Prop :=
  ∃ before base after k, bases = before ++ base :: after
    ∧ (∀ earlier ∈ before, h.Known path earlier) ∧ h.target base = some k
    ∧ (h.find k).isSome = true ∧ h.ReturnsFirst path k

theorem basesReturn_cons {rest : List ι} : BasesReturn h path (base :: rest)
    ↔ (∃ k, h.target base = some k ∧ (h.find k).isSome = true ∧ h.ReturnsFirst path k)
      ∨ h.Known path base ∧ BasesReturn h path rest := by
  constructor
  · rintro ⟨before, base', after, k, hbases, hbefore, htarget, hfind, hreturns⟩
    cases before with
    | nil =>
      rw [List.nil_append, List.cons.injEq] at hbases
      rcases hbases with ⟨rfl, rfl⟩
      exact .inl ⟨k, htarget, hfind, hreturns⟩
    | cons first before =>
      rw [List.cons_append, List.cons.injEq] at hbases
      rcases hbases with ⟨rfl, hrest⟩
      rw [List.forall_mem_cons] at hbefore
      exact .inr ⟨hbefore.1, before, base', after, k, hrest, hbefore.2, htarget, hfind, hreturns⟩
  · rintro (⟨k, htarget, hfind, hreturns⟩ | ⟨hknown, before, base', after, k, rfl, hbefore, hrest⟩)
    · exact ⟨[], base, rest, k, rfl, fun _ hmem => absurd hmem List.not_mem_nil, htarget, hfind,
        hreturns⟩
    · exact ⟨base :: before, base', after, k, rfl, List.forall_mem_cons.2 ⟨hknown, hbefore⟩, hrest⟩

variable {path : List κ} {k : κ} {block : β}

theorem meetsUnknown_iff (hfresh : k ∉ path) (hblock : h.find k = some block) :
    h.MeetsUnknown path k ↔ ∃ base ∈ h.bases block, ¬ h.Known (path ++ [k]) base := by
  constructor
  · intro hmeets
    cases hmeets with
    | @here _ _ k' block' base _ hblock' hbase htarget hnone =>
      obtain rfl : block = block' := Option.some.inj (hblock.symm.trans hblock')
      refine ⟨base, hbase, ?_⟩
      intro hknown
      have hsome := (hknown k' htarget).1
      rw [hnone] at hsome
      cases hsome
    | @onward _ _ k' block' base _ hblock' hbase htarget hmeets =>
      obtain rfl : block = block' := Option.some.inj (hblock.symm.trans hblock')
      exact ⟨base, hbase, fun hknown => (hknown k' htarget).2 hmeets⟩
  · rintro ⟨base, hbase, hunknown⟩
    unfold Hierarchy.Known at hunknown
    push Not at hunknown
    obtain ⟨k', htarget, hmeets⟩ := hunknown
    cases hfind : h.find k' with
    | none => exact .here hfresh hblock hbase htarget hfind
    | some block' => exact .onward hfresh hblock hbase htarget (hmeets (by rw [hfind]; rfl))

theorem returnsFirst_iff (hfresh : k ∉ path) (hblock : h.find k = some block) :
    h.ReturnsFirst path k ↔ BasesReturn h (path ++ [k]) (h.bases block) := by
  constructor
  · intro hreturns
    cases hreturns with
    | here hmem => exact absurd hmem hfresh
    | @onward _ _ k' block' before after base _ hblock' hbases hbefore htarget hfind hreturns =>
      obtain rfl : block = block' := Option.some.inj (hblock.symm.trans hblock')
      exact ⟨before, base, after, k', hbases, hbefore, htarget, hfind, hreturns⟩
  · rintro ⟨before, base, after, k', hbases, hbefore, htarget, hfind, hreturns⟩
    exact .onward hfresh hblock hbases hbefore htarget hfind hreturns

theorem member_iff : h.Member block ↔ h.isListed block = true
    ∨ ∃ base ∈ h.bases block, ∃ baseBlock, h.MemberBase base baseBlock := by
  constructor
  · intro hmember
    cases hmember with
    | listed hlisted => exact .inl hlisted
    | inherited hmem hnamed hmember => exact .inr ⟨_, hmem, _, hnamed, hmember⟩
  · rintro (hlisted | ⟨base, hmem, baseBlock, hbase⟩)
    · exact .listed hlisted
    · exact .inherited hmem hbase.named hbase.member

theorem memberBase_unique {baseBlock baseBlock' : β} (hbase : h.MemberBase base baseBlock)
    (hbase' : h.MemberBase base baseBlock') : baseBlock = baseBlock' :=
  Option.some.inj (hbase.named.symm.trans hbase'.named)

/-- What is to be shown of the walks below a class. -/
structure Walks (h : Hierarchy κ ι β φ ν) (path : List κ)
    (walk : κ → Except (WalkError κ ι β) (Option (List φ))) : Prop where
  fuel : ∀ k, walk k ≠ .error .outOfFuel
  cycle : ∀ k, (∃ found, walk k = .error (.cycle found)) ↔ h.ReturnsFirst path k
  unknown : ∀ k block base, walk k = .error (.unknown block base) → h.MeetsUnknown path k
  error : ∀ k, h.MeetsUnknown path k → ∃ error, walk k = .error error

theorem Walks.known (hwalks : Walks h path walk) {k : κ} {block : β} {found : Option (List φ)}
    (htarget : h.target base = some k) (hfind : h.find k = some block)
    (hwalk : walk k = .ok found) : h.Known path base := by
  intro k' hk'
  obtain rfl : k = k' := Option.some.inj (htarget.symm.trans hk')
  refine ⟨by rw [hfind]; rfl, ?_⟩
  intro hmeets
  obtain ⟨error, herror⟩ := hwalks.error k hmeets
  rw [hwalk] at herror
  cases herror

end

section

variable (h : Hierarchy κ ι β φ ν) [DecidableEq ν]

/-! ## The walk -/

def inheritAll (base : ι) (block : β) (inherited : Inherited φ) : Option (List φ) → Inherited φ
  | none => inherited
  | some items =>
    { items := (items.map (h.inherit base block)).foldl (setItem h.key) inherited.items
      isMember := true }

def addBase (walk : κ → Except (WalkError κ ι β) (Option (List φ))) (owner : β)
    (inherited : Inherited φ) (base : ι) : Except (WalkError κ ι β) (Inherited φ) :=
  match h.target base with
  | none => .ok inherited
  | some k =>
    match h.find k with
    | none => .error (.unknown owner base)
    | some block => (walk k).map (h.inheritAll base block inherited)

/-- The items of a class, once its bases are gone through. -/
def complete (block : β) (inherited : Inherited φ) : Option (List φ) :=
  if inherited.isMember then some ((h.own block).foldl (setItem h.key) inherited.items) else none

section

variable [DecidableEq κ]

/-- `path` has the classes that the walk is on. -/
def walk : Nat → List κ → κ → Except (WalkError κ ι β) (Option (List φ))
  | 0, _, _ => .error .outOfFuel
  | fuel + 1, path, k =>
    if k ∈ path then .error (.cycle (path.dropWhile (· ≠ k) ++ [k]))
    else
      match h.find k with
      | none => .ok none
      | some block =>
        ((h.bases block).foldlM (h.addBase (walk fuel (path ++ [k])) block)
          { items := [], isMember := h.isListed block }).map (h.complete block)

end

/-! ## What there is to be found -/

/-- The last item of the class itself with a key. -/
def ownItem (block : β) (k : ν) : Option φ := lastItem h.key (h.own block) k

/-- The class or one of its bases has an item with the key. -/
inductive Brings : β → ν → Prop
  | own {block : β} {k : ν} : (h.ownItem block k).isSome = true → Brings block k
  | inherited {block baseBlock : β} {base : ι} {k : ν} :
      base ∈ h.bases block → h.MemberBase base baseBlock → Brings baseBlock k → Brings block k

/-- The bases that an item is brought along, from the class on, and the item as it is declared: by
the class itself, else by the last base that brings it. -/
inductive Written : β → ν → List (ι × β) → φ → Prop
  | own {block : β} {k : ν} {item : φ} : h.ownItem block k = some item → Written block k [] item
  | inherited {block baseBlock : β} {before after : List ι} {base : ι} {k : ν}
      {steps : List (ι × β)} {item : φ} :
      h.ownItem block k = none → h.bases block = before ++ base :: after →
        h.MemberBase base baseBlock → Written baseBlock k steps item →
          (∀ later ∈ after, ∀ laterBlock, h.MemberBase later laterBlock →
            ¬ h.Brings laterBlock k) →
            Written block k ((base, baseBlock) :: steps) item

/-- A declared item as it is at the other end of the bases. -/
def inheritAlong (steps : List (ι × β)) (item : φ) : φ :=
  steps.foldr (fun step item => h.inherit step.1 step.2 item) item

def Has (block : β) (k : ν) (item : φ) : Prop :=
  ∃ steps declared, h.Written block k steps declared ∧ item = h.inheritAlong steps declared

end

/-! ## The bases one by one -/

section

variable {h : Hierarchy κ ι β φ ν} [DecidableEq ν]

variable {walk : κ → Except (WalkError κ ι β) (Option (List φ))} {owner : β}

/-- A base is passed over, is unknown, or is walked to. -/
theorem addBase_cases (inherited : Inherited φ) (base : ι) :
    (h.target base = none ∧ h.addBase walk owner inherited base = .ok inherited)
    ∨ (∃ k, h.target base = some k ∧ h.find k = none
      ∧ h.addBase walk owner inherited base = .error (.unknown owner base))
    ∨ ∃ k block, h.target base = some k ∧ h.find k = some block
      ∧ h.addBase walk owner inherited base
        = (walk k).map (h.inheritAll base block inherited) := by
  unfold Hierarchy.addBase
  cases htarget : h.target base with
  | none => exact .inl ⟨rfl, rfl⟩
  | some k =>
    cases hfind : h.find k with
    | none => exact .inr (.inl ⟨k, rfl, hfind, by simp only [hfind]⟩)
    | some block => exact .inr (.inr ⟨k, block, rfl, hfind, by simp only [hfind]⟩)

theorem foldlM_addBase_fuel (hwalks : Walks h path walk) (bases : List ι)
    (inherited : Inherited φ) :
    bases.foldlM (h.addBase walk owner) inherited ≠ .error .outOfFuel := by
  induction bases generalizing inherited with
  | nil =>
    intro herror
    cases herror
  | cons base rest ih =>
    rw [List.foldlM_cons]
    rcases @addBase_cases κ ι β φ ν h _ walk owner inherited base with
      ⟨-, hbase⟩ | ⟨k, -, -, hbase⟩ | ⟨k, block, -, -, hbase⟩
    · rw [hbase]
      exact ih inherited
    · rw [hbase]
      intro herror
      cases herror
    · rw [hbase]
      cases hwalk : walk k with
      | error error =>
        intro herror
        refine hwalks.fuel k ?_
        rw [hwalk]
        exact congrArg _ (Except.error.inj herror)
      | ok found => exact ih _

theorem foldlM_addBase_cycle (hwalks : Walks h path walk) (bases : List ι)
    (inherited : Inherited φ) :
    (∃ found, bases.foldlM (h.addBase walk owner) inherited = .error (.cycle found))
      ↔ BasesReturn h path bases := by
  induction bases generalizing inherited with
  | nil =>
    refine iff_of_false ?_ ?_
    · rintro ⟨found, hfound⟩
      cases hfound
    · rintro ⟨before, base, after, k, hbases, -⟩
      cases before <;> cases hbases
  | cons base rest ih =>
    rw [List.foldlM_cons, basesReturn_cons]
    rcases @addBase_cases κ ι β φ ν h _ walk owner inherited base with
      ⟨htarget, hbase⟩ | ⟨k, htarget, hfind, hbase⟩ | ⟨k, block, htarget, hfind, hbase⟩
    · -- the base is passed over
      have hknown : h.Known path base := by
        intro k hk
        rw [htarget] at hk
        cases hk
      rw [hbase]
      refine (ih inherited).trans ⟨fun hrest => .inr ⟨hknown, hrest⟩, ?_⟩
      rintro (⟨k, hk, -⟩ | ⟨-, hrest⟩)
      · rw [htarget] at hk
        cases hk
      · exact hrest
    · -- the base is unknown
      rw [hbase]
      refine iff_of_false ?_ ?_
      · rintro ⟨found, hfound⟩
        cases hfound
      · have hunknown : (h.find k).isSome = false := by rw [hfind]; rfl
        rintro (⟨k', hk', hsome, -⟩ | ⟨hknown, -⟩)
        · obtain rfl : k = k' := Option.some.inj (htarget.symm.trans hk')
          rw [hunknown] at hsome
          cases hsome
        · have hsome := (hknown k htarget).1
          rw [hunknown] at hsome
          cases hsome
    · -- the base is walked to
      rw [hbase]
      cases hwalk : walk k with
      | ok found =>
        have hknown := hwalks.known htarget hfind hwalk
        have hstays : ¬ h.ReturnsFirst path k := by
          rw [← hwalks.cycle k, hwalk]
          rintro ⟨found', hfound'⟩
          cases hfound'
        refine (ih _).trans ⟨fun hrest => .inr ⟨hknown, hrest⟩, ?_⟩
        rintro (⟨k', hk', -, hreturns⟩ | ⟨-, hrest⟩)
        · obtain rfl : k = k' := Option.some.inj (htarget.symm.trans hk')
          exact absurd hreturns hstays
        · exact hrest
      | error error =>
        have hfails : (Except.error error : Except (WalkError κ ι β) (Option (List φ))).map
            (h.inheritAll base block inherited) >>= (fun inherited =>
              rest.foldlM (h.addBase walk owner) inherited) = .error error := rfl
        rw [hfails]
        have hcycle := hwalks.cycle k
        rw [hwalk] at hcycle
        constructor
        · rintro ⟨found, hfound⟩
          rw [Except.error.injEq] at hfound
          exact .inl ⟨k, htarget, by rw [hfind]; rfl, hcycle.1 ⟨found, by rw [hfound]⟩⟩
        · rintro (⟨k', hk', -, hreturns⟩ | ⟨hknown, -⟩)
          · obtain rfl : k = k' := Option.some.inj (htarget.symm.trans hk')
            obtain ⟨found, hfound⟩ := hcycle.2 hreturns
            exact ⟨found, by rw [Except.error.inj hfound]⟩
          · cases error with
            | outOfFuel => exact absurd hwalk (hwalks.fuel k)
            | unknown block' base' =>
              exact absurd (hwalks.unknown k block' base' hwalk) (hknown k htarget).2
            | cycle found => exact ⟨found, rfl⟩

theorem foldlM_addBase_unknown (hwalks : Walks h path walk) {block : β}
    (herror : bases.foldlM (h.addBase walk owner) inherited = .error (.unknown block base)) :
    ∃ base ∈ bases, ¬ h.Known path base := by
  induction bases generalizing inherited with
  | nil => cases herror
  | cons first rest ih =>
    rw [List.foldlM_cons] at herror
    rcases @addBase_cases κ ι β φ ν h _ walk owner inherited first with
      ⟨-, hfirst⟩ | ⟨k, htarget, hfind, -⟩ | ⟨k, block', htarget, hfind, hfirst⟩
    · rw [hfirst] at herror
      obtain ⟨base, hbase, hunknown⟩ := ih herror
      exact ⟨base, List.mem_cons_of_mem _ hbase, hunknown⟩
    · refine ⟨first, List.mem_cons_self, ?_⟩
      intro hknown
      have hsome := (hknown k htarget).1
      rw [hfind] at hsome
      cases hsome
    · rw [hfirst] at herror
      cases hwalk : walk k with
      | ok found =>
        rw [hwalk] at herror
        obtain ⟨base, hbase, hunknown⟩ := ih herror
        exact ⟨base, List.mem_cons_of_mem _ hbase, hunknown⟩
      | error error =>
        rw [hwalk] at herror
        refine ⟨first, List.mem_cons_self, ?_⟩
        intro hknown
        refine (hknown k htarget).2 (hwalks.unknown k block base ?_)
        rw [hwalk]
        exact congrArg _ (Except.error.inj herror)

theorem foldlM_addBase_error (hwalks : Walks h path walk) (hbase : base ∈ bases)
    (hunknown : ¬ h.Known path base) (inherited : Inherited φ) :
    ∃ error, bases.foldlM (h.addBase walk owner) inherited = .error error := by
  induction bases generalizing inherited with
  | nil => cases hbase
  | cons first rest ih =>
    rw [List.foldlM_cons]
    rcases List.mem_cons.1 hbase with rfl | hrest
    · rcases @addBase_cases κ ι β φ ν h _ walk owner inherited base with
        ⟨htarget, -⟩ | ⟨k, htarget, hfind, hfirst⟩ | ⟨k, block', htarget, hfind, hfirst⟩
      · refine absurd ?_ hunknown
        intro k hk
        rw [htarget] at hk
        cases hk
      · rw [hfirst]
        exact ⟨_, rfl⟩
      · rw [hfirst]
        cases hwalk : walk k with
        | ok found => exact absurd (hwalks.known htarget hfind hwalk) hunknown
        | error error => exact ⟨_, rfl⟩
    · rcases @addBase_cases κ ι β φ ν h _ walk owner inherited first with
        ⟨-, hfirst⟩ | ⟨k, -, -, hfirst⟩ | ⟨k, block', -, -, hfirst⟩
      · rw [hfirst]
        exact ih hrest inherited
      · rw [hfirst]
        exact ⟨_, rfl⟩
      · rw [hfirst]
        cases walk k with
        | ok found => exact ih hrest _
        | error error => exact ⟨_, rfl⟩

end

/-! ## The end of the walk -/

section

variable {h : Hierarchy κ ι β φ ν} [DecidableEq ν] {path : List κ}

variable [DecidableEq κ] {keys : List κ}

theorem walks_walk (hway : OnTheWay h keys fuel path) : Walks h path (h.walk fuel path) := by
  induction fuel generalizing path with
  | zero => exact absurd rfl hway.ne_zero
  | succ fuel ih =>
    -- a class is come back to, is no class, or is one whose bases are walked to
    have hcases : ∀ k, (k ∈ path ∧ h.walk (fuel + 1) path k
          = .error (.cycle (path.dropWhile (· ≠ k) ++ [k])))
        ∨ (k ∉ path ∧ h.find k = none ∧ h.walk (fuel + 1) path k = .ok none)
        ∨ ∃ block, k ∉ path ∧ h.find k = some block ∧ h.walk (fuel + 1) path k
          = ((h.bases block).foldlM (h.addBase (h.walk fuel (path ++ [k])) block)
            { items := [], isMember := h.isListed block }).map (h.complete block) := by
      intro k
      rw [Hierarchy.walk]
      by_cases hmem : k ∈ path
      · exact .inl ⟨hmem, if_pos hmem⟩
      · rw [if_neg hmem]
        cases hfind : h.find k with
        | none => exact .inr (.inl ⟨hmem, rfl, rfl⟩)
        | some block => exact .inr (.inr ⟨block, hmem, rfl, rfl⟩)
    have hmap : ∀ {error : WalkError κ ι β} {block : β}
        {result : Except (WalkError κ ι β) (Inherited φ)},
        result.map (h.complete block) = .error error ↔ result = .error error := by
      intro error block result
      cases result with
      | error other =>
        constructor
        · intro herror
          exact congrArg _ (Except.error.inj herror)
        · intro herror
          exact congrArg _ (Except.error.inj herror)
      | ok inherited =>
        refine iff_of_false ?_ ?_
        · intro herror
          cases herror
        · intro herror
          cases herror
    constructor
    · intro k
      rcases hcases k with ⟨-, hwalk⟩ | ⟨-, -, hwalk⟩ | ⟨block, hfresh, hblock, hwalk⟩
      · rw [hwalk]
        intro herror
        cases herror
      · rw [hwalk]
        intro herror
        cases herror
      · rw [hwalk, Ne, hmap]
        exact foldlM_addBase_fuel (ih (hway.push hfresh hblock)) _ _
    · intro k
      rcases hcases k with ⟨hmem, hwalk⟩ | ⟨hfresh, hnone, hwalk⟩ | ⟨block, hfresh, hblock, hwalk⟩
      · rw [hwalk]
        exact iff_of_true ⟨_, rfl⟩ (.here hmem)
      · rw [hwalk]
        refine iff_of_false ?_ ?_
        · rintro ⟨found, hfound⟩
          cases hfound
        · intro hreturns
          cases hreturns with
          | here hmem => exact hfresh hmem
          | onward _ hblock =>
            rw [hnone] at hblock
            cases hblock
      · rw [hwalk, returnsFirst_iff hfresh hblock]
        simp only [hmap]
        exact foldlM_addBase_cycle (ih (hway.push hfresh hblock)) _ _
    · intro k block' base hunknown
      rcases hcases k with ⟨-, hwalk⟩ | ⟨-, -, hwalk⟩ | ⟨block, hfresh, hblock, hwalk⟩
      · rw [hwalk] at hunknown
        cases hunknown
      · rw [hwalk] at hunknown
        cases hunknown
      · rw [hwalk, hmap] at hunknown
        exact (meetsUnknown_iff hfresh hblock).2
          (foldlM_addBase_unknown (ih (hway.push hfresh hblock)) hunknown)
    · intro k hmeets
      rcases hcases k with ⟨hmem, hwalk⟩ | ⟨hfresh, hnone, hwalk⟩ | ⟨block, hfresh, hblock, hwalk⟩
      · exact ⟨_, hwalk⟩
      · cases hmeets with
        | here _ hblock =>
          rw [hnone] at hblock
          cases hblock
        | onward _ hblock =>
          rw [hnone] at hblock
          cases hblock
      · obtain ⟨base, hbase, hunknown⟩ := (meetsUnknown_iff hfresh hblock).1 hmeets
        rw [hwalk]
        simp only [hmap]
        exact foldlM_addBase_error (ih (hway.push hfresh hblock)) hbase hunknown _

variable (h) in
/-- With more fuel than there are classes the walk comes to an end. -/
theorem walk_terminates (hkeys : ∀ k, (h.find k).isSome = true → k ∈ keys)
    (hfuel : keys.length < fuel) (k : κ) : h.walk fuel [] k ≠ .error .outOfFuel := by
  have hway : OnTheWay h keys fuel [] :=
    ⟨hkeys, List.nodup_nil, List.nil_subset _, by rw [List.length_nil]; omega⟩
  exact (walks_walk hway).fuel k

variable (h) in
/-- When it comes back to a class that it is on. -/
theorem walk_cycle_iff (hkeys : ∀ k, (h.find k).isSome = true → k ∈ keys)
    (hfuel : keys.length < fuel) (k : κ) :
    (∃ found, h.walk fuel [] k = .error (.cycle found)) ↔ h.ReturnsFirst [] k := by
  have hway : OnTheWay h keys fuel [] :=
    ⟨hkeys, List.nodup_nil, List.nil_subset _, by rw [List.length_nil]; omega⟩
  exact (walks_walk hway).cycle k

end

/-! ## Items under their keys -/

/-- What is found under a key is what is written, and something is found where it is brought. -/
structure Reads (look : ν → Option φ) (written : ν → φ → Prop) (brings : ν → Prop) : Prop where
  written : ∀ k item, look k = some item ↔ written k item
  brings : ∀ k, (look k).isSome = true ↔ brings k

/-- Items put over others. -/
theorem Reads.over {look look' : ν → Option φ} {written' : ν → φ → Prop} {brings' : ν → Prop}
    (hreads : Reads look written brings) (hreads' : Reads look' written' brings') :
    Reads (fun k => (look k).or (look' k))
      (fun k item => written k item ∨ ¬ brings k ∧ written' k item)
      fun k => brings k ∨ brings' k := by
  constructor
  · intro k item
    rw [← hreads.written, ← hreads.brings, ← hreads'.written]
    cases look k <;> simp
  · intro k
    rw [← hreads.brings, ← hreads'.brings]
    cases look k <;> simp

theorem Reads.congr {look : ν → Option φ} {written' : ν → φ → Prop} {brings' : ν → Prop}
    (hreads : Reads look written brings) (hwritten : ∀ k item, written k item ↔ written' k item)
    (hbrings : ∀ k, brings k ↔ brings' k) : Reads look written' brings' :=
  ⟨fun k item => (hreads.written k item).trans (hwritten k item),
    fun k => (hreads.brings k).trans (hbrings k)⟩

section

variable (h : Hierarchy κ ι β φ ν) [DecidableEq ν]

def BaseBrings (base : ι) (k : ν) : Prop :=
  ∃ baseBlock, h.MemberBase base baseBlock ∧ h.Brings baseBlock k

/-- The item that is inherited from a base. -/
def BaseHas (base : ι) (k : ν) (item : φ) : Prop :=
  ∃ baseBlock baseItem, h.MemberBase base baseBlock ∧ h.Has baseBlock k baseItem
    ∧ item = h.inherit base baseBlock baseItem

/-- Some of the bases brings an item with the key. -/
def BasesBring (bases : List ι) (k : ν) : Prop := ∃ base ∈ bases, BaseBrings h base k

/-- The item of the last of the bases that bring one. -/
def BasesHave (bases : List ι) (k : ν) (item : φ) : Prop :=
  ∃ before base after, bases = before ++ base :: after ∧ BaseHas h base k item
    ∧ ¬ BasesBring h after k

end

section

variable {h : Hierarchy κ ι β φ ν} [DecidableEq ν] {block : β} {k : ν} {item : φ}

theorem has_iff : h.Has block k item
    ↔ h.ownItem block k = some item
      ∨ h.ownItem block k = none ∧ BasesHave h (h.bases block) k item := by
  constructor
  · rintro ⟨steps, declared, hwritten, rfl⟩
    cases hwritten with
    | own hown => exact .inl hown
    | inherited hown hbases hbase hwritten hlater =>
      refine .inr ⟨hown, _, _, _, hbases, ⟨_, _, hbase, ⟨_, _, hwritten, rfl⟩, rfl⟩, ?_⟩
      rintro ⟨later, hmem, laterBlock, hlaterBase, hbrings⟩
      exact hlater later hmem laterBlock hlaterBase hbrings
  · rintro (hown | ⟨hown, before, base, after, hbases,
      ⟨baseBlock, baseItem, hbase, ⟨steps, declared, hwritten, rfl⟩, rfl⟩, hlater⟩)
    · exact ⟨[], item, .own hown, rfl⟩
    · refine ⟨(base, baseBlock) :: steps, declared, .inherited hown hbases hbase hwritten ?_, rfl⟩
      intro later hmem laterBlock hlaterBase hbrings
      exact hlater ⟨later, hmem, laterBlock, hlaterBase, hbrings⟩

theorem brings_iff : h.Brings block k
    ↔ (h.ownItem block k).isSome = true ∨ BasesBring h (h.bases block) k := by
  constructor
  · intro hbrings
    cases hbrings with
    | own hown => exact .inl hown
    | inherited hmem hbase hbrings => exact .inr ⟨_, hmem, _, hbase, hbrings⟩
  · rintro (hown | ⟨base, hmem, baseBlock, hbase, hbrings⟩)
    · exact .own hown
    · exact .inherited hmem hbase hbrings

theorem basesBring_cons {rest : List ι} :
    BasesBring h (base :: rest) k ↔ BaseBrings h base k ∨ BasesBring h rest k := by
  unfold BasesBring
  simp only [List.mem_cons, exists_eq_or_imp]

/-- The first base counts where no later one brings the item. -/
theorem basesHave_cons {rest : List ι} : BasesHave h (base :: rest) k item
      ↔ BasesHave h rest k item ∨ ¬ BasesBring h rest k ∧ BaseHas h base k item := by
  constructor
  · rintro ⟨before, base', after, hbases, hhas, hlater⟩
    cases before with
    | nil =>
      rw [List.nil_append, List.cons.injEq] at hbases
      rcases hbases with ⟨rfl, rfl⟩
      exact .inr ⟨hlater, hhas⟩
    | cons first before =>
      rw [List.cons_append, List.cons.injEq] at hbases
      exact .inl ⟨before, base', after, hbases.2, hhas, hlater⟩
  · rintro (⟨before, base', after, hbases, hrest⟩ | ⟨hlater, hhas⟩)
    · exact ⟨base :: before, base', after, by rw [hbases]; rfl, hrest⟩
    · exact ⟨[], base, rest, rfl, hhas, hlater⟩

/-! ## What the walk finds -/

variable (h) in
/-- What is found for a class: items exactly if it has some, one for each key, as they are
brought. -/
structure Found (block : β) (found : Option (List φ)) : Prop where
  isSome : found.isSome = true ↔ h.Member block
  nodup : ∀ items, found = some items → (items.map h.key).Nodup
  reads : ∀ items, found = some items →
    Reads (lastItem h.key items) (h.Has block) (h.Brings block)

variable (h) in
def FindsAll (walk : κ → Except (WalkError κ ι β) (Option (List φ))) : Prop :=
  ∀ k block found, h.find k = some block → walk k = .ok found → Found h block found

variable {walk : κ → Except (WalkError κ ι β) (Option (List φ))} {owner : β}

/-- A base is passed over, or its items are put over those that are there. -/
theorem addBase_ok (hwalk : FindsAll h walk)
    (hadd : h.addBase walk owner inherited base = .ok inherited') :
    (inherited' = inherited ∧ ∀ baseBlock, ¬ h.MemberBase base baseBlock)
    ∨ ∃ (baseBlock : β) (items : List φ), h.MemberBase base baseBlock
      ∧ Reads (lastItem h.key items) (h.Has baseBlock) (h.Brings baseBlock)
      ∧ inherited' = {
          items := (items.map (h.inherit base baseBlock)).foldl (setItem h.key) inherited.items
          isMember := true } := by
  have hnamed : ∀ {baseBlock}, h.MemberBase base baseBlock →
      (h.target base).bind h.find = some baseBlock := fun hbase => hbase.named
  rcases @addBase_cases κ ι β φ ν h _ walk owner inherited base with
    ⟨htarget, hbase⟩ | ⟨k, htarget, hfind, hbase⟩ | ⟨k, baseBlock, htarget, hfind, hbase⟩
  · rw [hbase, Except.ok.injEq] at hadd
    refine .inl ⟨hadd.symm, fun baseBlock hmember => ?_⟩
    have hnone := hnamed hmember
    rw [htarget] at hnone
    cases hnone
  · rw [hbase] at hadd
    cases hadd
  · rw [hbase] at hadd
    cases hresult : walk k with
    | error error =>
      rw [hresult] at hadd
      cases hadd
    | ok found =>
      have hfound := hwalk k baseBlock found hfind hresult
      rw [hresult] at hadd
      have hsame : h.inheritAll base baseBlock inherited found = inherited' :=
        Except.ok.inj hadd
      have hclass : h.baseClass base = some baseBlock := by
        rw [Hierarchy.baseClass, htarget, Option.bind_some, hfind]
      cases found with
      | none =>
        refine .inl ⟨hsame.symm, fun baseBlock' hmember => ?_⟩
        obtain rfl : baseBlock = baseBlock' :=
          Option.some.inj (hclass.symm.trans hmember.named)
        have hsome := hfound.isSome.2 hmember.member
        cases hsome
      | some items =>
        exact .inr ⟨baseBlock, items, ⟨hclass, hfound.isSome.1 rfl⟩, hfound.reads items rfl,
          hsame.symm⟩

/-- What one base changes. -/
theorem addBase_found (hwalk : FindsAll h walk)
    (hadd : h.addBase walk owner inherited base = .ok inherited')
    (hreads : Reads (lastItem h.key inherited.items) written brings) : (inherited'.isMember = true
      ↔ inherited.isMember = true ∨ ∃ baseBlock, h.MemberBase base baseBlock)
    ∧ Reads (lastItem h.key inherited'.items)
      (fun k item => BaseHas h base k item ∨ ¬ BaseBrings h base k ∧ written k item)
      (fun k => BaseBrings h base k ∨ brings k)
    ∧ ((inherited.items.map h.key).Nodup → (inherited'.items.map h.key).Nodup) := by
  rcases addBase_ok hwalk hadd with ⟨rfl, hnone⟩ | ⟨baseBlock, items, hbase, hitems, rfl⟩
  · have hbrings : ∀ k, ¬ BaseBrings h base k := by
      rintro k ⟨baseBlock, hbase, -⟩
      exact hnone baseBlock hbase
    have hhas : ∀ k item, ¬ BaseHas h base k item := by
      rintro k item ⟨baseBlock, -, hbase, -⟩
      exact hnone baseBlock hbase
    refine ⟨by simp [hnone], hreads.congr ?_ ?_, id⟩
    · simp [hbrings, hhas]
    · simp [hbrings]
  · refine ⟨iff_of_true rfl (.inr ⟨baseBlock, hbase⟩), ?_, nodup_foldl_setItem _⟩
    have hgiven : Reads (lastItem h.key (items.map (h.inherit base baseBlock)))
        (BaseHas h base) (BaseBrings h base) := by
      constructor
      · intro k item
        rw [lastItem_map (h.key_inherit base baseBlock), Option.map_eq_some_iff]
        constructor
        · rintro ⟨baseItem, hfound, rfl⟩
          exact ⟨baseBlock, baseItem, hbase, (hitems.written k baseItem).1 hfound, rfl⟩
        · rintro ⟨baseBlock', baseItem, hbase', hhas, rfl⟩
          obtain rfl := memberBase_unique hbase' hbase
          exact ⟨baseItem, (hitems.written k baseItem).2 hhas, rfl⟩
      · intro k
        rw [lastItem_map (h.key_inherit base baseBlock), Option.isSome_map, hitems.brings]
        constructor
        · exact fun hbrings => ⟨baseBlock, hbase, hbrings⟩
        · rintro ⟨baseBlock', hbase', hbrings⟩
          rwa [memberBase_unique hbase' hbase] at hbrings
    have hmerged : lastItem h.key ((items.map (h.inherit base baseBlock)).foldl (setItem h.key)
          inherited.items)
        = fun k => (lastItem h.key (items.map (h.inherit base baseBlock)) k).or
          (lastItem h.key inherited.items k) :=
      funext fun k => lastItem_foldl_setItem _ _ k
    rw [hmerged]
    exact hgiven.over hreads

/-- All bases, from the first to the last. -/
theorem foldlM_addBase_found (hwalk : FindsAll h walk)
    (hadd : bases.foldlM (h.addBase walk owner) inherited = .ok inherited')
    (hreads : Reads (lastItem h.key inherited.items) written brings) :
    (inherited'.isMember = true ↔ inherited.isMember = true
      ∨ ∃ base ∈ bases, ∃ baseBlock, h.MemberBase base baseBlock)
    ∧ Reads (lastItem h.key inherited'.items)
      (fun k item => BasesHave h bases k item ∨ ¬ BasesBring h bases k ∧ written k item)
      (fun k => BasesBring h bases k ∨ brings k)
    ∧ ((inherited.items.map h.key).Nodup → (inherited'.items.map h.key).Nodup) := by
  induction bases generalizing inherited written brings with
  | nil =>
    rw [List.foldlM_nil] at hadd
    obtain rfl := Except.ok.inj hadd
    refine ⟨by simp, hreads.congr ?_ ?_, id⟩
    · simp [BasesHave, BasesBring]
    · simp [BasesBring]
  | cons base rest ih =>
    rw [List.foldlM_cons] at hadd
    cases hfirst : h.addBase walk owner inherited base with
    | error error =>
      rw [hfirst] at hadd
      cases hadd
    | ok middle =>
      rw [hfirst] at hadd
      obtain ⟨hmember, hmiddle, hnodup⟩ := addBase_found hwalk hfirst hreads
      obtain ⟨hmember', hlast, hnodup'⟩ := ih hadd hmiddle
      refine ⟨?_, hlast.congr ?_ ?_, fun hinherited => hnodup' (hnodup hinherited)⟩
      · rw [hmember', hmember, or_assoc]
        simp only [List.mem_cons, exists_eq_or_imp]
      · intro k item
        rw [basesHave_cons, basesBring_cons, not_or, or_assoc, and_or_left, and_assoc]
        exact or_congr_right (or_congr_right and_left_comm)
      · intro k
        rw [basesBring_cons, or_assoc]
        exact or_left_comm

/-- The items of a class put over those of its bases. -/
theorem complete_found (hmember : inherited.isMember = true ↔ h.Member block)
    (hnodup : (inherited.items.map h.key).Nodup)
    (hinherited : Reads (lastItem h.key inherited.items) (BasesHave h (h.bases block))
      (BasesBring h (h.bases block))) : Found h block (h.complete block inherited) := by
  unfold Hierarchy.complete
  by_cases htest : inherited.isMember = true
  · rw [if_pos htest]
    constructor
    · exact iff_of_true rfl (hmember.1 htest)
    · rintro _ ⟨⟩
      exact nodup_foldl_setItem _ hnodup
    · rintro _ ⟨⟩
      have hown : Reads (h.ownItem block) (fun k item => h.ownItem block k = some item)
          fun k => (h.ownItem block k).isSome = true := ⟨fun _ _ => .rfl, fun _ => .rfl⟩
      have hmerged : lastItem h.key ((h.own block).foldl (setItem h.key) inherited.items)
          = fun k => (h.ownItem block k).or (lastItem h.key inherited.items k) :=
        funext fun k => lastItem_foldl_setItem _ _ k
      rw [hmerged]
      refine (hown.over hinherited).congr ?_ ?_
      · intro k item
        rw [has_iff]
        simp
      · intro k
        rw [brings_iff]
  · rw [if_neg htest]
    constructor
    · exact iff_of_false (by simp) fun hclass => htest (hmember.2 hclass)
    · rintro _ ⟨⟩
    · rintro _ ⟨⟩

/-- What is found for a class is what there is to be found. -/
theorem walk_found [DecidableEq κ] (fuel : Nat) (path : List κ) : FindsAll h (h.walk fuel path) := by
  induction fuel generalizing path with
  | zero =>
    intro k block found _ hwalk
    cases hwalk
  | succ fuel ih =>
    intro k block found hblock hwalk
    rw [Hierarchy.walk] at hwalk
    by_cases hmem : k ∈ path
    · rw [if_pos hmem] at hwalk
      cases hwalk
    rw [if_neg hmem, hblock] at hwalk
    simp only at hwalk
    cases hbases : (h.bases block).foldlM (h.addBase (h.walk fuel (path ++ [k])) block)
        { items := [], isMember := h.isListed block } with
    | error error =>
      rw [hbases] at hwalk
      cases hwalk
    | ok inherited =>
      rw [hbases] at hwalk
      obtain rfl := Except.ok.inj hwalk
      have hempty : Reads (lastItem h.key ([] : List φ)) (fun _ _ => False) fun _ => False :=
        ⟨fun _ _ => by simp [lastItem], fun _ => by simp [lastItem]⟩
      obtain ⟨hmember, hinherited, hnodup⟩ :=
        foldlM_addBase_found (ih (path ++ [k])) hbases hempty
      refine complete_found (hmember.trans member_iff.symm) (hnodup List.nodup_nil)
        (hinherited.congr ?_ ?_)
      · simp
      · simp

end

end Hierarchy

end TypePython.Lib
