import TypePython.Effects.Summaries
import TypePython.Lib.FirstWins
import TypePython.Lib.Propagation

/-!
# Inferred effects

What `collectInferredEffectSummaries` infers. A round hands the rows of callees to their
callers, as they were when the round began, so after `n` rounds a row holds what is at most
`n` calls away (`inferRounds_rows`). There are eight rounds: the rows are the least
fixed point exactly when no effect is further away than that (`inferred_isReachable_iff`).
-/

namespace TypePython.Effects

open Std
open TypePython.Lib

attribute [local instance] lexOrd

/-! ## Looking callees up -/

def EffectCallCallee.key : EffectCallCallee → CallableKey
  | .function name => (none, name)
  | .method ownerTypeName methodName => (some ownerTypeName, methodName)

theorem getElem?_functionSummariesByName (summaries : List EffectSummary) (name : String) :
    (functionSummariesByName summaries)[name]?
      = summaries.find? fun summary => summary.key = (none, name) := by
  unfold functionSummariesByName
  have hfold := getElem?_foldl_insertIfNew EffectSummary.callable (fun summary => summary)
    (summaries.filter (·.ownerTypeName.isNone)) ∅ name
  rw [hfold, List.find?_filter]
  simp only [ExtTreeMap.getElem?_empty, Option.none_or, Option.map_id']
  congr
  funext summary
  cases howner : summary.ownerTypeName <;> simp [EffectSummary.key, howner]

theorem getElem?_methodSummariesByName (summaries : List EffectSummary) (owner name : String) :
    (methodSummariesByName summaries)[(owner, name)]?
      = summaries.find? fun summary => summary.key = (some owner, name) := by
  unfold methodSummariesByName
  rw [getElem?_foldl_insertIfNew Prod.fst Prod.snd, ExtTreeMap.getElem?_empty, Option.none_or]
  induction summaries with
  | nil => rfl
  | cons summary rest ih =>
    rw [List.filterMap_cons, List.find?_cons]
    cases howner : summary.ownerTypeName with
    | none =>
      have hkey : summary.key ≠ (some owner, name) := by simp [EffectSummary.key, howner]
      rw [decide_eq_false hkey]
      exact ih
    | some owner' =>
      simp only [Option.map_some, List.find?_cons]
      by_cases hkey : summary.key = (some owner, name)
      · have hpair : (owner', summary.callable) = (owner, name) := by
          simpa [EffectSummary.key, howner] using hkey
        rw [decide_eq_true hkey, decide_eq_true hpair]
        rfl
      · have hpair : (owner', summary.callable) ≠ (owner, name) := by
          simpa [EffectSummary.key, howner] using hkey
        rw [decide_eq_false hkey, decide_eq_false hpair]
        exact ih

/-- A callee is the first summary of its key, if that has effects. -/
theorem calleeSummary_eq (summaries : List EffectSummary) (callee : EffectCallCallee) :
    calleeSummary (effectfulFunctionSummariesByName summaries)
        (effectfulMethodSummariesByName summaries) callee
      = (summaries.find? fun summary => summary.key = callee.key).filter
          fun summary => !summary.row.isEmpty := by
  cases callee with
  | function name =>
    show (effectfulFunctionSummariesByName summaries)[name]? = _
    unfold effectfulFunctionSummariesByName
    rw [ExtTreeMap.getElem?_filter, Option.pfilter_eq_filter, getElem?_functionSummariesByName]
    rfl
  | method owner name =>
    show (effectfulMethodSummariesByName summaries)[(owner, name)]? = _
    unfold effectfulMethodSummariesByName
    rw [ExtTreeMap.getElem?_filter, Option.pfilter_eq_filter, getElem?_methodSummariesByName]
    rfl

/-! ## One round -/

def rowAt (inferred : InferredSummaries) (key : CallableKey) : EffectRow :=
  match inferred[key]? with
  | some summary => summary.row
  | none => ∅

/-- Every summary is filed under its own key. -/
def WellKeyed (inferred : InferredSummaries) : Prop :=
  ∀ (key : CallableKey) (summary : EffectSummary), inferred[key]? = some summary → summary.key = key

/-- The summary a key is looked up at in a round. -/
def roundSummary (seeds : List EffectSummary) (inferred : InferredSummaries) (key : CallableKey) :
    Option EffectSummary :=
  (roundSummaries seeds inferred).find? fun summary => summary.key = key

/-- What a call hands over in a round: its owner is inferred, and its callee has the effect. -/
def Hands (seeds : List EffectSummary) (inferred : InferredSummaries) (edge : EffectCallEdge)
    (key : CallableKey) (effect : EffectKind) : Prop :=
  edge.ownerKey = key ∧ key ∉ declaredKeys seeds
    ∧ ∃ summary, roundSummary seeds inferred edge.callee.key = some summary
        ∧ effect ∈ summary.row

theorem mem_rowAt_insert (inferred : InferredSummaries) (key key' : CallableKey)
    (summary : EffectSummary) (effect : EffectKind) :
    effect ∈ rowAt (inferred.insert key summary) key'
      ↔ (key = key' ∧ effect ∈ summary.row) ∨ (key ≠ key' ∧ effect ∈ rowAt inferred key') := by
  unfold rowAt
  rw [ExtTreeMap.getElem?_insert]
  by_cases hkey : key = key'
  · simp [hkey]
  · have hne : compare key key' ≠ .eq := fun h => hkey (LawfulEqOrd.eq_of_compare h)
    simp [hkey, hne]

variable {round : InferenceRound}

section Round

variable {seeds : List EffectSummary} {inferred : InferredSummaries}

/-- The step of a round, at the summaries the round looks callees up in. -/
def roundEdge (seeds : List EffectSummary) (inferred : InferredSummaries) :
    InferenceRound → EffectCallEdge → InferenceRound :=
  inferEdge (effectfulFunctionSummariesByName (roundSummaries seeds inferred))
    (effectfulMethodSummariesByName (roundSummaries seeds inferred)) (declaredKeys seeds)

/-- A call that hands nothing over leaves the round alone, any other extends one row. -/
theorem roundEdge_cases (hkeyed : WellKeyed round.inferred) (edge : EffectCallEdge) :
    (roundEdge seeds inferred round edge = round
        ∧ ∀ key effect, ¬ Hands seeds inferred edge key effect)
      ∨ ∃ summary : EffectSummary, summary.key = edge.ownerKey
          ∧ roundEdge seeds inferred round edge
              = { inferred := round.inferred.insert edge.ownerKey summary
                  changed := round.changed || summary.row != rowAt round.inferred edge.ownerKey }
          ∧ ∀ effect, effect ∈ summary.row
              ↔ effect ∈ rowAt round.inferred edge.ownerKey
                ∨ Hands seeds inferred edge edge.ownerKey effect := by
  have hnone : roundSummary seeds inferred edge.callee.key = none →
      ∀ key effect, ¬ Hands seeds inferred edge key effect := by
    rintro hfind key effect ⟨-, -, summary, hsummary, -⟩
    rw [hfind] at hsummary
    cases hsummary
  unfold roundEdge inferEdge
  rw [calleeSummary_eq]
  by_cases hdeclared : edge.ownerKey ∈ declaredKeys seeds
  · left
    rw [if_pos hdeclared]
    refine ⟨rfl, ?_⟩
    rintro key effect ⟨rfl, hnot, -⟩
    exact hnot hdeclared
  rw [if_neg hdeclared]
  rcases hfind : roundSummary seeds inferred edge.callee.key with _ | callee
  · left
    unfold roundSummary at hfind
    rw [hfind]
    exact ⟨rfl, hnone hfind⟩
  · have hhands : ∀ effect, Hands seeds inferred edge edge.ownerKey effect ↔ effect ∈ callee.row := by
      intro effect
      constructor
      · rintro ⟨-, -, summary, hsummary, heffect⟩
        obtain rfl : callee = summary := Option.some.inj (hfind.symm.trans hsummary)
        exact heffect
      · exact fun heffect => ⟨rfl, hdeclared, callee, hfind, heffect⟩
    by_cases hempty : callee.row.isEmpty = true
    · left
      refine ⟨?_, ?_⟩
      · unfold roundSummary at hfind
        rw [hfind]
        simp only [Option.filter_some, hempty, Bool.not_true, Bool.false_eq_true, if_false]
      · rintro key effect hhand
        obtain rfl := hhand.1
        have heffect := (hhands effect).1 hhand
        rw [ExtTreeSet.isEmpty_iff.1 hempty] at heffect
        exact absurd heffect ExtTreeSet.not_mem_empty
    · right
      have hrow : ((round.inferred[edge.ownerKey]?).getD (newInferredSummary edge)).row
          = rowAt round.inferred edge.ownerKey := by
        unfold rowAt
        cases round.inferred[edge.ownerKey]? <;> rfl
      have hkey : ((round.inferred[edge.ownerKey]?).getD (newInferredSummary edge)).key
          = edge.ownerKey := by
        rcases hentry : round.inferred[edge.ownerKey]? with _ | entry
        · rfl
        · exact hkeyed _ entry hentry
      refine ⟨((round.inferred[edge.ownerKey]?).getD (newInferredSummary edge)).absorb callee
        edge.line, hkey, ?_, ?_⟩
      · unfold roundSummary at hfind
        rw [hfind]
        simp only [Option.filter_some, hempty, Bool.not_false, if_true, Bool.false_eq_true,
          if_false, hrow]
      · intro effect
        rw [hhands, ← hrow]
        exact ExtTreeSet.mem_union_iff

theorem roundEdge_wellKeyed (hkeyed : WellKeyed round.inferred) (edge : EffectCallEdge) :
    WellKeyed (roundEdge seeds inferred round edge).inferred := by
  rcases roundEdge_cases hkeyed edge with ⟨heq, -⟩ | ⟨summary, hkey, heq, -⟩
  · rw [heq]
    exact hkeyed
  · rw [heq]
    intro key summary' hfound
    rw [ExtTreeMap.getElem?_insert] at hfound
    by_cases hsame : edge.ownerKey = key
    · obtain rfl : summary = summary' := by simpa [hsame] using hfound
      exact hkey.trans hsame
    · have hne : compare edge.ownerKey key ≠ .eq := fun h => hsame (LawfulEqOrd.eq_of_compare h)
      exact hkeyed key summary' (by simpa [hne] using hfound)

/-- A call adds what it hands over, and nothing else. -/
theorem mem_rowAt_roundEdge (hkeyed : WellKeyed round.inferred) (edge : EffectCallEdge)
    (key : CallableKey) (effect : EffectKind) :
    effect ∈ rowAt (roundEdge seeds inferred round edge).inferred key
      ↔ effect ∈ rowAt round.inferred key ∨ Hands seeds inferred edge key effect := by
  rcases roundEdge_cases hkeyed edge with ⟨heq, hnot⟩ | ⟨summary, -, heq, hrow⟩
  · rw [heq]
    exact ⟨.inl, fun h => h.resolve_right (hnot key effect)⟩
  · rw [heq, mem_rowAt_insert]
    constructor
    · rintro (⟨rfl, heffect⟩ | ⟨-, heffect⟩)
      · exact (hrow effect).1 heffect
      · exact .inl heffect
    · intro h
      by_cases hsame : edge.ownerKey = key
      · subst hsame
        exact .inl ⟨rfl, (hrow effect).2 h⟩
      · exact .inr ⟨hsame, h.resolve_right fun hhand => hsame hhand.1⟩

/-- A round that is not marked as changed has changed no row so far. -/
theorem roundEdge_unchanged (hkeyed : WellKeyed round.inferred) (edge : EffectCallEdge)
    (h : (roundEdge seeds inferred round edge).changed = false) : round.changed = false
      ∧ ∀ key effect, Hands seeds inferred edge key effect → effect ∈ rowAt round.inferred key := by
  rcases roundEdge_cases hkeyed edge with ⟨heq, hnot⟩ | ⟨summary, -, heq, hrow⟩
  · rw [heq] at h
    exact ⟨h, fun key effect hhand => absurd hhand (hnot key effect)⟩
  · rw [heq] at h
    obtain ⟨hchanged, hsame⟩ : round.changed = false
        ∧ summary.row = rowAt round.inferred edge.ownerKey := by simpa using h
    refine ⟨hchanged, fun key effect hhand => ?_⟩
    obtain rfl := hhand.1
    rw [← hsame]
    exact (hrow effect).2 (.inr hhand)

theorem foldl_roundEdge_wellKeyed (edges : List EffectCallEdge)
    (hkeyed : WellKeyed round.inferred) :
    WellKeyed (edges.foldl (roundEdge seeds inferred) round).inferred := by
  induction edges generalizing round with
  | nil => exact hkeyed
  | cons edge rest ih => exact ih (roundEdge_wellKeyed hkeyed edge)

theorem mem_rowAt_foldl_roundEdge (edges : List EffectCallEdge)
    (hkeyed : WellKeyed round.inferred) (key : CallableKey) (effect : EffectKind) :
    effect ∈ rowAt (edges.foldl (roundEdge seeds inferred) round).inferred key
      ↔ effect ∈ rowAt round.inferred key ∨ ∃ edge ∈ edges, Hands seeds inferred edge key effect := by
  induction edges generalizing round with
  | nil => simp
  | cons edge rest ih =>
    rw [List.foldl_cons, ih (roundEdge_wellKeyed hkeyed edge), mem_rowAt_roundEdge hkeyed]
    simp only [List.mem_cons, exists_eq_or_imp, or_assoc]

theorem foldl_roundEdge_unchanged (edges : List EffectCallEdge)
    (hkeyed : WellKeyed round.inferred)
    (h : (edges.foldl (roundEdge seeds inferred) round).changed = false) (key : CallableKey)
    (effect : EffectKind) :
    effect ∈ rowAt (edges.foldl (roundEdge seeds inferred) round).inferred key →
      round.changed = false ∧ effect ∈ rowAt round.inferred key := by
  induction edges generalizing round with
  | nil => exact fun heffect => ⟨h, heffect⟩
  | cons edge rest ih =>
    intro heffect
    obtain ⟨hchanged, hrow⟩ := ih (roundEdge_wellKeyed hkeyed edge) h heffect
    obtain ⟨hbefore, hhands⟩ := roundEdge_unchanged hkeyed edge hchanged
    refine ⟨hbefore, ?_⟩
    rcases (mem_rowAt_roundEdge hkeyed edge key effect).1 hrow with hold | hhand
    · exact hold
    · exact hhands key effect hhand

end Round

/-! ## The rounds together -/

variable {calls : Nat}

section Rounds

variable (edges : List EffectCallEdge) (seeds : List EffectSummary)

/-- The effects of the callees of a callable that are seeds. -/
def SeedGives (key : CallableKey) (effect : EffectKind) : Prop :=
  ∃ edge ∈ edges, edge.ownerKey = key ∧ key ∉ declaredKeys seeds
    ∧ ∃ summary, seeds.find? (fun summary => summary.key = edge.callee.key) = some summary
        ∧ effect ∈ summary.row

/-- The callees of a callable that are no seeds. -/
def CallsInferred (key callee : CallableKey) : Prop :=
  ∃ edge ∈ edges, edge.ownerKey = key ∧ key ∉ declaredKeys seeds ∧ edge.callee.key = callee
    ∧ seeds.find? (fun summary => summary.key = callee) = none

/-- The effects at most so many calls away. -/
def EffectWithin (calls : Nat) : CallableKey → EffectKind → Prop :=
  Within (SeedGives edges seeds) (CallsInferred edges seeds) calls

/-- The rows are what is so many calls away. -/
def RowsWithin (calls : Nat) (inferred : InferredSummaries) : Prop :=
  ∀ key effect, effect ∈ rowAt inferred key ↔ EffectWithin edges seeds calls key effect

variable {edges seeds}

theorem roundSummary_eq {inferred : InferredSummaries} (hkeyed : WellKeyed inferred)
    (key : CallableKey) :
    roundSummary seeds inferred key
      = (seeds.find? fun summary => summary.key = key).or inferred[key]? := by
  unfold roundSummary roundSummaries
  rw [List.find?_append, find?_toList_values hkeyed]

/-- What the calls hand over in a round is one call further away. -/
theorem hands_iff {inferred : InferredSummaries} (hkeyed : WellKeyed inferred)
    (hrows : RowsWithin edges seeds calls inferred) (key : CallableKey) (effect : EffectKind) :
    (∃ edge ∈ edges, Hands seeds inferred edge key effect)
      ↔ EffectWithin edges seeds (calls + 1) key effect := by
  constructor
  · rintro ⟨edge, hedge, hkey, hfree, summary, hsummary, heffect⟩
    rw [roundSummary_eq hkeyed] at hsummary
    rcases hseed : seeds.find? (fun summary => summary.key = edge.callee.key) with _ | seed
    · right
      refine ⟨edge.callee.key, ⟨edge, hedge, hkey, hfree, rfl, hseed⟩, ?_⟩
      rw [hseed, Option.none_or] at hsummary
      apply (hrows _ effect).1
      unfold rowAt
      rw [hsummary]
      exact heffect
    · left
      rw [hseed, Option.some_or] at hsummary
      exact ⟨edge, hedge, hkey, hfree, summary, hseed.trans hsummary, heffect⟩
  · rintro (⟨edge, hedge, hkey, hfree, summary, hseed, heffect⟩
      | ⟨callee, ⟨edge, hedge, hkey, hfree, rfl, hseed⟩, hwithin⟩)
    · refine ⟨edge, hedge, hkey, hfree, summary, ?_, heffect⟩
      rw [roundSummary_eq hkeyed, hseed, Option.some_or]
    · have hrow := (hrows _ effect).2 hwithin
      unfold rowAt at hrow
      rcases hfound : inferred[edge.callee.key]? with _ | summary
      · rw [hfound] at hrow
        exact absurd hrow ExtTreeSet.not_mem_empty
      · rw [hfound] at hrow
        refine ⟨edge, hedge, hkey, hfree, summary, ?_, hrow⟩
        rw [roundSummary_eq hkeyed, hseed, Option.none_or, hfound]

theorem inferRound_wellKeyed {inferred : InferredSummaries} (hkeyed : WellKeyed inferred) :
    WellKeyed (inferRound edges seeds inferred).inferred :=
  foldl_roundEdge_wellKeyed edges hkeyed

/-- One round reaches one call further. -/
theorem inferRound_rows {inferred : InferredSummaries} (hkeyed : WellKeyed inferred)
    (hrows : RowsWithin edges seeds calls inferred) :
    RowsWithin edges seeds (calls + 1) (inferRound edges seeds inferred).inferred := by
  intro key effect
  have hfold : effect ∈ rowAt (inferRound edges seeds inferred).inferred key
      ↔ effect ∈ rowAt inferred key ∨ ∃ edge ∈ edges, Hands seeds inferred edge key effect :=
    mem_rowAt_foldl_roundEdge edges hkeyed key effect
  rw [hfold, hands_iff hkeyed hrows, hrows]
  exact ⟨fun h => h.elim (fun hwithin => Within.succ hwithin) id, .inr⟩

/-- The rounds together reach as many calls as there are rounds, also when they stop early. -/
theorem inferRounds_rows (rounds : Nat) {inferred : InferredSummaries}
    (hkeyed : WellKeyed inferred) (hrows : RowsWithin edges seeds calls inferred) :
    WellKeyed (inferRounds edges seeds rounds inferred)
      ∧ RowsWithin edges seeds (calls + rounds) (inferRounds edges seeds rounds inferred) := by
  induction rounds generalizing inferred calls with
  | zero => exact ⟨hkeyed, hrows⟩
  | succ rounds ih =>
    have hkeyed' : WellKeyed (inferRound edges seeds inferred).inferred :=
      inferRound_wellKeyed hkeyed
    have hrows' := inferRound_rows hkeyed hrows
    unfold inferRounds
    cases hchanged : (inferRound edges seeds inferred).changed with
    | true =>
      have hrest := ih hkeyed' hrows'
      rw [Nat.add_right_comm, Nat.add_assoc] at hrest
      simpa [hchanged] using hrest
    | false =>
      refine ⟨by simpa [hchanged] using hkeyed', ?_⟩
      have hstable : ∀ key effect, EffectWithin edges seeds (calls + 1) key effect →
          EffectWithin edges seeds calls key effect := by
        intro key effect hwithin
        apply (hrows key effect).1
        have hrow := (hrows' key effect).2 hwithin
        exact (foldl_roundEdge_unchanged edges hkeyed hchanged key effect hrow).2
      intro key effect
      simp only [hchanged, Bool.false_eq_true, if_false]
      rw [hrows' key effect]
      constructor
      · exact fun h => Within.mono (by omega) h
      · exact fun h => Within.mono (by omega) (within_of_stable hstable h)

end Rounds

/-! ## The inferred rows -/

/-- The row inferred for a callable, empty when none is. -/
def inferredRow (edges : List EffectCallEdge) (seeds : List EffectSummary) (key : CallableKey) :
    EffectRow :=
  match (collectInferredEffectSummaries edges seeds).find? fun summary => summary.key = key with
  | some summary => summary.row
  | none => ∅

/-- The eight rounds together. -/
theorem inferRounds_eight (edges : List EffectCallEdge) (seeds : List EffectSummary) :
    WellKeyed (inferRounds edges seeds 8 ∅)
      ∧ RowsWithin edges seeds 8 (inferRounds edges seeds 8 ∅) := by
  have hempty : WellKeyed ∅ := by
    intro key summary h
    simp at h
  have hnothing : RowsWithin edges seeds 0 ∅ := by
    intro key effect
    have hrow : rowAt ∅ key = ∅ := by
      unfold rowAt
      rw [ExtTreeMap.getElem?_empty]
    rw [hrow]
    exact ⟨fun h => absurd h ExtTreeSet.not_mem_empty, False.elim⟩
  exact inferRounds_rows 8 hempty hnothing

/-- The effects inferred for a callable are those at most eight calls away. -/
theorem mem_inferredRow (edges : List EffectCallEdge) (seeds : List EffectSummary)
    (key : CallableKey) (effect : EffectKind) :
    effect ∈ inferredRow edges seeds key ↔ EffectWithin edges seeds 8 key effect := by
  obtain ⟨hkeyed, hrows⟩ := inferRounds_eight edges seeds
  rw [← hrows key effect]
  unfold inferredRow collectInferredEffectSummaries rowAt
  rw [find?_toList_values hkeyed]

/-- A callable has one inferred summary. -/
theorem inferredRow_of_mem {edges : List EffectCallEdge} {seeds : List EffectSummary}
    {summary : EffectSummary} (h : summary ∈ collectInferredEffectSummaries edges seeds) :
    inferredRow edges seeds summary.key = summary.row := by
  have hkeyed := (inferRounds_eight edges seeds).1
  unfold collectInferredEffectSummaries at h
  unfold inferredRow collectInferredEffectSummaries
  rw [find?_toList_values hkeyed, getElem?_of_mem_values hkeyed h]

/-- More calls bring more effects and take none away, so neither the order of the calls nor that
one is listed twice matters. -/
theorem inferredRow_mono {edges edges' : List EffectCallEdge} (h : edges ⊆ edges')
    (seeds : List EffectSummary) (key : CallableKey) (effect : EffectKind)
    (heffect : effect ∈ inferredRow edges seeds key) : effect ∈ inferredRow edges' seeds key := by
  rw [mem_inferredRow] at heffect ⊢
  generalize 8 = calls at heffect ⊢
  induction calls generalizing key with
  | zero => exact heffect
  | succ calls ih =>
    rcases heffect with ⟨edge, hedge, hgiven⟩ | ⟨callee, ⟨edge, hedge, hcalls⟩, hwithin⟩
    · exact .inl ⟨edge, h hedge, hgiven⟩
    · exact .inr ⟨callee, ⟨edge, h hedge, hcalls⟩, ih callee hwithin⟩

section LeastFixedPoint

variable (edges : List EffectCallEdge) (seeds : List EffectSummary)

/-- The effects of the callees of a callable that have a summary. -/
def CallsEffectful (key : CallableKey) (effect : EffectKind) : Prop :=
  ∃ edge ∈ edges, edge.ownerKey = key
    ∧ ∃ summary ∈ seeds, summary.key = edge.callee.key ∧ effect ∈ summary.row

/-- The callees of a callable that are neither pure nor declare a row. -/
def CallsUndeclared (key callee : CallableKey) : Prop :=
  ∃ edge ∈ edges, edge.ownerKey = key ∧ edge.callee.key = callee ∧ callee ∉ declaredKeys seeds

/-- The effects that a callable reaches through calls, however many. -/
def ReachesEffect : CallableKey → EffectKind → Prop :=
  Arrives (CallsEffectful edges seeds) (CallsUndeclared edges seeds)

/-- The rows inferred for the callables without a declared row are the effects they reach. -/
def InferredIsReachable : Prop :=
  ∀ key, key ∉ declaredKeys seeds → ∀ effect,
    effect ∈ inferredRow edges seeds key ↔ ReachesEffect edges seeds key effect

variable {edges seeds}

theorem reachesEffect_of_within {key : CallableKey} {effect : EffectKind}
    (h : EffectWithin edges seeds calls key effect) : ReachesEffect edges seeds key effect := by
  induction calls generalizing key with
  | zero => exact h.elim
  | succ calls ih =>
    rcases h with ⟨edge, hedge, hkey, -, summary, hseed, heffect⟩
      | ⟨callee, ⟨edge, hedge, hkey, -, hcallee, hseed⟩, hwithin⟩
    · have hsummary : summary.key = edge.callee.key := by simpa using List.find?_some hseed
      exact .given ⟨edge, hedge, hkey, summary, List.mem_of_find?_eq_some hseed, hsummary, heffect⟩
    · refine .along ⟨edge, hedge, hkey, hcallee, ?_⟩ (ih hwithin)
      intro hdeclared
      obtain ⟨summary, hsummary, hsame⟩ := List.mem_map.1 hdeclared
      have hnot := List.find?_eq_none.1 hseed summary (List.mem_of_mem_filter hsummary)
      simp [hsame] at hnot

/-- The inferred rows are the least fixed point exactly when every effect that is reached is
at most eight calls away, along callables without a summary and to the first summary of a
name. -/
theorem inferred_isReachable_iff (edges : List EffectCallEdge) (seeds : List EffectSummary) :
    InferredIsReachable edges seeds
      ↔ ∀ key, key ∉ declaredKeys seeds → ∀ effect,
          ReachesEffect edges seeds key effect → EffectWithin edges seeds 8 key effect := by
  constructor
  · intro h key hfree effect hreaches
    exact (mem_inferredRow edges seeds key effect).1 ((h key hfree effect).2 hreaches)
  · intro h key hfree effect
    rw [mem_inferredRow]
    exact ⟨reachesEffect_of_within, h key hfree effect⟩

end LeastFixedPoint

/-- A chain of calls down to a callable with a declared row. -/
def chainEdges : Nat → List EffectCallEdge
  | 0 => []
  | n + 1 =>
    { ownerTypeName := none, ownerName := toString (n + 1), callee := .function (toString n),
      line := n + 2 } :: chainEdges n

def chainSeeds : List EffectSummary :=
  [{ callable := "0", ownerTypeName := none, pure := false, row := (∅ : EffectRow).insert .ioFs,
     sources := [.decorator "effect_io_fs"], line := 1 }]

theorem longerChain_row : EffectKind.ioFs ∈ inferredRow (chainEdges 2) chainSeeds (none, "1") :=
  inferredRow_mono (List.subset_cons_self _ (chainEdges 1)) chainSeeds (none, "1") .ioFs
    (by decide +kernel)

theorem mem_chainEdges {n length : Nat} (h : n < length) :
    { ownerTypeName := none, ownerName := toString (n + 1), callee := .function (toString n),
      line := n + 2 } ∈ chainEdges length := by
  induction length with
  | zero => exact absurd h (Nat.not_lt_zero n)
  | succ length ih =>
    rcases Nat.lt_succ_iff_lt_or_eq.1 h with hlt | rfl
    · exact List.mem_cons_of_mem _ (ih hlt)
    · exact List.mem_cons_self

/-- The effect at the end of nine calls is lost. -/
theorem chainOfNine_not_reachable : ¬ InferredIsReachable (chainEdges 9) chainSeeds := by
  intro h
  have hdeclared : declaredKeys chainSeeds = [(none, "0")] := by decide +kernel
  have hreaches : ∀ n < 9,
      ReachesEffect (chainEdges 9) chainSeeds (none, toString (n + 1)) .ioFs := by
    intro n
    induction n with
    | zero =>
      intro hlt
      exact .given ⟨_, mem_chainEdges hlt, rfl, _, List.mem_singleton_self _, rfl,
        ExtTreeSet.mem_insert_self⟩
    | succ n ih =>
      intro hlt
      have hname : ∀ m < 9, toString (m + 1) ≠ "0" := by decide
      refine .along ⟨_, mem_chainEdges hlt, rfl, rfl, ?_⟩ (ih (by omega))
      rw [hdeclared, List.mem_singleton]
      exact fun heq => hname n (by omega) (congrArg Prod.snd heq)
  have hfree : ((none, "9") : CallableKey) ∉ declaredKeys chainSeeds := by
    rw [hdeclared]
    decide
  have hmissing : EffectKind.ioFs ∉ inferredRow (chainEdges 9) chainSeeds (none, "9") := by
    decide +kernel
  exact hmissing ((h (none, "9") hfree .ioFs).2 (hreaches 8 (by omega)))

end TypePython.Effects
