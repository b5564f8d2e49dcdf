import TypePython.Effects.Export

/-!
# Exported and checked effects

Whether the facts a module exports list the effects it is checked with. A function whose
effects come from an imported function has a row when the module is checked, and no fact.
-/

namespace TypePython.Effects

open Std
open TypePython.Lib
open TypePython.Binding

attribute [local instance] lexOrd

/-! ## Local summaries are declared -/

def EffectSource.isInferred : EffectSource → Bool
  | .inferred _ => true
  | _ => false

/-- Effects that are declared have a source that declares them. -/
def DeclaredEffects.Attributed (declared : DeclaredEffects) : Prop :=
  declared.row.isEmpty = false →
    ∃ source : EffectSource, source ∈ declared.sources ∧ source.isInferred = false

/-- The sources of framework adapters are decorators. -/
def AdapterSources (adapterEffects : ExtTreeMap String (EffectRow × EffectSource)) : Prop :=
  ∀ (name : String) (row : EffectRow) (source : EffectSource),
    adapterEffects[name]? = some (row, source) → source.isInferred = false

theorem adapterSources_insert {rows : ExtTreeMap String (EffectRow × EffectSource)}
    (h : AdapterSources rows) (name text : String) (row : EffectRow) :
    AdapterSources (rows.insert name (row, .decorator text)) := by
  intro name' row' source hfound
  rw [ExtTreeMap.getElem?_insert] at hfound
  split at hfound
  · cases hfound
    rfl
  · exact h name' row' source hfound

theorem adapterSources_adapterEffectRows (context : EffectContext) (node : ModuleNode) :
    AdapterSources (adapterEffectRows context node) := by
  unfold adapterEffectRows
  apply List.foldlRecOn (motive := AdapterSources)
  · intro name row source hfound
    simp at hfound
  · intro rows hrows provider _
    dsimp only
    split
    · exact hrows
    · exact adapterSources_insert hrows _ _ _

/-- Whatever the row is, a source that declares it has been noted with it. -/
theorem attributed_append (pure : Bool) (row : EffectRow) (sources : List EffectSource)
    {source : EffectSource} (h : source.isInferred = false) :
    DeclaredEffects.Attributed { pure, row, sources := sources ++ [source] } :=
  fun _ => ⟨source, List.mem_append_right _ (List.mem_singleton_self _), h⟩

theorem readDecorator_attributed {adapterEffects : ExtTreeMap String (EffectRow × EffectSource)}
    (hadapters : AdapterSources adapterEffects) {declared : DeclaredEffects}
    (h : declared.Attributed) (decorator : String) :
    (readDecorator adapterEffects declared decorator).Attributed := by
  unfold readDecorator
  dsimp only
  split
  · -- the adapter's own source comes last
    rename_i row source hfound
    apply attributed_append
    rcases hshort : adapterEffects[decoratorShortName decorator]? with _ | ⟨row', source'⟩
    · rw [hshort, Option.none_or] at hfound
      exact hadapters _ _ _ hfound
    · rw [hshort, Option.some_or] at hfound
      cases hfound
      exact hadapters _ _ _ hshort
  · split
    · exact attributed_append _ _ _ rfl
    · split
      · exact attributed_append _ _ _ rfl
      · split
        · exact attributed_append _ _ _ rfl
        · exact h

variable {summary : EffectSummary}

theorem collectLocal_declared {context : EffectContext} {node : ModuleNode}
    (h : summary ∈ collectLocalEffectSummaries context node) :
    summary.pure = true ∨ summary.hasDeclaredEffectRow = true := by
  unfold collectLocalEffectSummaries at h
  split at h
  · exact absurd h List.not_mem_nil
  rename_i callables _
  obtain ⟨site, -, hsite⟩ := List.mem_filterMap.1 h
  have hattributed : (site.decorators.foldl (readDecorator (adapterEffectRows context node))
      {}).Attributed := by
    apply List.foldlRecOn (motive := DeclaredEffects.Attributed)
    · intro hrow
      simp at hrow
    · intro declared hdeclared decorator _
      exact readDecorator_attributed (adapterSources_adapterEffectRows context node) hdeclared
        decorator
  unfold localEffectSummary at hsite
  dsimp only at hsite
  split at hsite
  · rename_i hkept
    cases hsite
    rcases Bool.or_eq_true_iff.1 hkept with hpure | hrow
    · exact .inl hpure
    · right
      obtain ⟨source, hsource, hnot⟩ := hattributed (by simpa using hrow)
      unfold EffectSummary.hasDeclaredEffectRow
      rw [Bool.and_eq_true]
      refine ⟨hrow, List.any_eq_true.2 ⟨source, hsource, ?_⟩⟩
      cases source <;> first | rfl | cases hnot
  · cases hsite

variable {seeds : List EffectSummary}

/-- Nothing is inferred for a callable that has a local summary. -/
theorem not_mem_local_of_free {context : EffectContext} {node : ModuleNode}
    (hseeds : collectLocalEffectSummaries context node ⊆ seeds)
    (hfree : summary.key ∉ declaredKeys seeds) :
    summary ∉ collectLocalEffectSummaries context node := by
  intro hlocal
  apply hfree
  refine List.mem_map.2 ⟨summary, List.mem_filter.2 ⟨hseeds hlocal, ?_⟩, rfl⟩
  rw [Bool.or_eq_true]
  exact collectLocal_declared hlocal

/-! ## The facts of a callable without a declared row -/

variable {label : String}

theorem mem_labels {row : EffectRow} :
    label ∈ row.labels ↔ ∃ effect : EffectKind, effect ∈ row ∧ effect.label = label := by
  unfold EffectRow.labels
  rw [List.mem_map]
  simp only [ExtTreeSet.mem_toList]

theorem mem_effectFact_effects {context : EffectContext} :
    label ∈ (effectFact context summary).effects
      ↔ effectLabelEnabled context label = true
          ∧ ∃ effect : EffectKind, effect ∈ summary.row ∧ effect.label = label := by
  show label ∈ summary.row.labels.filter (effectLabelEnabled context) ↔ _
  rw [List.mem_filter, mem_labels, and_comm]

theorem effectLabelEnabled_none {context : EffectContext}
    (h : (!context.effectRowsEnabled && !context.taintEnabled) = true) (label : String) :
    effectLabelEnabled context label = false := by
  unfold effectLabelEnabled
  rw [Bool.and_eq_true, Bool.not_eq_true', Bool.not_eq_true'] at h
  rw [h.1, h.2, Bool.false_and, Bool.false_and, Bool.false_or]

theorem mem_facts {context : EffectContext} {node : ModuleNode} {fact : SummaryEffectFact} :
    fact ∈ collectEffectSummaryFacts context node
      ↔ (!context.effectRowsEnabled && !context.taintEnabled) = false
        ∧ (∃ summary, (summary ∈ collectLocalEffectSummaries context node
            ∨ summary ∈ collectInferredEffectSummaries (context.effectCallEdges node)
                (exportSeeds context node))
          ∧ effectFact context summary = fact)
        ∧ ((context.effectRowsEnabled && fact.pure) || !fact.effects.isEmpty) = true := by
  unfold collectEffectSummaryFacts
  split
  · rename_i hoff
    simp [hoff]
  · rename_i hon
    have hon' := Bool.eq_false_iff.2 hon
    rw [List.mem_insertionSort, List.mem_filter, List.mem_map]
    simp only [List.mem_append, hon', true_and]

variable {key : CallableKey} {effect : EffectKind}

section Agreement

variable (context : EffectContext) (node : ModuleNode)

/-- A callable has a label at most eight calls away. -/
def LabelWithin (seeds : List EffectSummary) (key : CallableKey) (label : String) : Prop :=
  ∃ effect : EffectKind, effect.label = label
    ∧ EffectWithin (context.effectCallEdges node) seeds 8 key effect

/-- Whatever row a module is checked with, its facts list the callable with these effects. -/
def ExportAgrees : Prop :=
  ∀ key : CallableKey,
    (∃ effect, effect ∈ inferredRow (context.effectCallEdges node) (visibleSeeds context node) key) →
      ∃ fact ∈ collectEffectSummaryFacts context node, fact.key = key
        ∧ ∀ label, label ∈ fact.effects
            ↔ label ∈ (inferredRow (context.effectCallEdges node) (visibleSeeds context node)
                key).labels

variable {context node}

theorem mem_labels_inferredRow :
    label ∈ (inferredRow (context.effectCallEdges node) seeds key).labels
      ↔ LabelWithin context node seeds key label := by
  rw [mem_labels]
  unfold LabelWithin
  simp only [mem_inferredRow]
  exact exists_congr fun effect => and_comm

theorem free_of_within {edges : List EffectCallEdge} {calls : Nat}
    (h : EffectWithin edges seeds calls key effect) : key ∉ declaredKeys seeds := by
  cases calls with
  | zero => exact h.elim
  | succ calls =>
    rcases h with ⟨edge, -, -, hfree, -⟩ | ⟨callee, ⟨edge, -, -, hfree, -⟩, -⟩
    · exact hfree
    · exact hfree

theorem local_subset_visibleSeeds :
    collectLocalEffectSummaries context node ⊆ visibleSeeds context node :=
  fun _ h => List.mem_append_left _ (List.mem_append_left _ h)

/-- A fact of a callable without a declared row is inferred from the export seeds. -/
theorem mem_effects_of_fact {fact : SummaryEffectFact}
    (hfact : fact ∈ collectEffectSummaryFacts context node)
    (hfree : fact.key ∉ declaredKeys (visibleSeeds context node)) (label : String) :
    label ∈ fact.effects
      ↔ effectLabelEnabled context label = true
          ∧ LabelWithin context node (exportSeeds context node) fact.key label := by
  obtain ⟨-, ⟨summary, hsummary, rfl⟩, -⟩ := mem_facts.1 hfact
  have hkey : (effectFact context summary).key = summary.key := rfl
  rcases hsummary with hlocal | hinferred
  · rw [hkey] at hfree
    exact absurd hlocal (not_mem_local_of_free local_subset_visibleSeeds hfree)
  · rw [mem_effectFact_effects, ← mem_labels, hkey, ← inferredRow_of_mem hinferred,
      mem_labels_inferredRow]

/-- A callable whose export row has an enabled effect has a fact. -/
theorem exists_fact (henabled : effectLabelEnabled context label = true)
    (hlabel : LabelWithin context node (exportSeeds context node) key label) :
    ∃ fact ∈ collectEffectSummaryFacts context node, fact.key = key := by
  have hlabels := mem_labels_inferredRow.2 hlabel
  unfold inferredRow at hlabels
  split at hlabels
  · rename_i summary hfind
    have hkey : summary.key = key := by simpa using List.find?_some hfind
    have heffects : label ∈ (effectFact context summary).effects :=
      mem_effectFact_effects.2 ⟨henabled, mem_labels.1 hlabels⟩
    refine ⟨effectFact context summary, mem_facts.2 ⟨?_, ?_, ?_⟩, hkey⟩
    · rw [← Bool.not_eq_true]
      intro hoff
      rw [effectLabelEnabled_none hoff] at henabled
      cases henabled
    · exact ⟨summary, .inr (List.mem_of_find?_eq_some hfind), rfl⟩
    · have hnonempty : (effectFact context summary).effects.isEmpty = false :=
        List.isEmpty_eq_false_iff.2 (List.ne_nil_of_mem heffects)
      rw [hnonempty, Bool.not_false, Bool.or_true]
  · obtain ⟨effect, heffect, -⟩ := mem_labels.1 hlabels
    exact absurd heffect ExtTreeSet.not_mem_empty

/-- What a callable is handed by the imported callables it calls. -/
def ImportGives (context : EffectContext) (node : ModuleNode) (key : CallableKey)
    (effect : EffectKind) : Prop :=
  ∃ edge ∈ context.effectCallEdges node, edge.ownerKey = key
    ∧ key ∉ declaredKeys (visibleSeeds context node)
    ∧ (collectLocalEffectSummaries context node).find?
        (fun summary => summary.key = edge.callee.key) = none
    ∧ ∃ summary, (collectImportedEffectSummaries context node).find?
        (fun summary => summary.key = edge.callee.key) = some summary
      ∧ effect ∈ summary.row

/-- A callable has a label at most eight calls away, the last of which is imported. -/
def ImportedLabelWithin (context : EffectContext) (node : ModuleNode) (key : CallableKey)
    (label : String) : Prop :=
  ∃ effect : EffectKind, effect.label = label
    ∧ Within (ImportGives context node)
        (CallsInferred (context.effectCallEdges node) (visibleSeeds context node)) 8 key effect

theorem exportSeeds_subset_visibleSeeds :
    exportSeeds context node ⊆ visibleSeeds context node := by
  intro summary hsummary
  rcases List.mem_append.1 hsummary with hlocal | hstdlib
  · exact List.mem_append_left _ (List.mem_append_left _ hlocal)
  · exact List.mem_append_right _ hstdlib

theorem not_mem_declaredKeys_of_subset {seeds' : List EffectSummary} (h : seeds ⊆ seeds')
    (hfree : key ∉ declaredKeys seeds') : key ∉ declaredKeys seeds := by
  intro hkey
  obtain ⟨summary, hsummary, hsame⟩ := List.mem_map.1 hkey
  rw [List.mem_filter] at hsummary
  exact hfree (List.mem_map.2 ⟨summary, List.mem_filter.2 ⟨h hsummary.1, hsummary.2⟩, hsame⟩)

theorem find?_eq_none_of_subset {seeds' : List EffectSummary} (h : seeds ⊆ seeds')
    {p : EffectSummary → Bool} (hnone : seeds'.find? p = none) : seeds.find? p = none :=
  List.find?_eq_none.2 fun summary hsummary => List.find?_eq_none.1 hnone summary (h hsummary)

theorem importGives_seedGives (h : ImportGives context node key effect) :
    SeedGives (context.effectCallEdges node) (visibleSeeds context node) key effect := by
  obtain ⟨edge, hedge, hkey, hfree, hlocal, summary, himported, heffect⟩ := h
  refine ⟨edge, hedge, hkey, hfree, summary, ?_, heffect⟩
  unfold visibleSeeds
  rw [List.find?_append, List.find?_append, hlocal, Option.none_or, himported, Option.some_or]

/-- What the checks see beyond the facts comes from imported callables. -/
theorem imported_or_export_of_visible {calls : Nat}
    (h : EffectWithin (context.effectCallEdges node) (visibleSeeds context node) calls key effect) :
    Within (ImportGives context node)
        (CallsInferred (context.effectCallEdges node) (visibleSeeds context node)) calls key effect
      ∨ EffectWithin (context.effectCallEdges node) (exportSeeds context node) calls key effect := by
  induction calls generalizing key with
  | zero => exact h.elim
  | succ calls ih =>
    rcases h with ⟨edge, hedge, hkey, hfree, summary, hseed, heffect⟩
      | ⟨callee, ⟨edge, hedge, hkey, hfree, hcallee, hseed⟩, hwithin⟩
    · have hfree' := not_mem_declaredKeys_of_subset exportSeeds_subset_visibleSeeds hfree
      unfold visibleSeeds at hseed
      rw [List.find?_append, List.find?_append] at hseed
      rcases hlocal : (collectLocalEffectSummaries context node).find?
          (fun summary => summary.key = edge.callee.key) with _ | found
      · rw [hlocal, Option.none_or] at hseed
        rcases himported : (collectImportedEffectSummaries context node).find?
            (fun summary => summary.key = edge.callee.key) with _ | found
        · rw [himported, Option.none_or] at hseed
          refine .inr (.inl ⟨edge, hedge, hkey, hfree', summary, ?_, heffect⟩)
          unfold exportSeeds
          rw [List.find?_append, hlocal, Option.none_or, hseed]
        · rw [himported, Option.some_or] at hseed
          exact .inl (.inl ⟨edge, hedge, hkey, hfree, hlocal, summary,
            himported.trans hseed, heffect⟩)
      · rw [hlocal, Option.some_or, Option.some_or] at hseed
        refine .inr (.inl ⟨edge, hedge, hkey, hfree', summary, ?_, heffect⟩)
        unfold exportSeeds
        rw [List.find?_append, hlocal, Option.some_or, hseed]
    · rcases ih hwithin with himported | hexport
      · exact .inl (.inr ⟨callee, ⟨edge, hedge, hkey, hfree, hcallee, hseed⟩, himported⟩)
      · exact .inr (.inr ⟨callee, ⟨edge, hedge, hkey,
          not_mem_declaredKeys_of_subset exportSeeds_subset_visibleSeeds hfree, hcallee,
          find?_eq_none_of_subset exportSeeds_subset_visibleSeeds hseed⟩, hexport⟩)

/-- The facts of a module agree with the rows it is checked with exactly when, for every
callable with such a row, the effects it reaches in eight calls are of an enabled family, those
it reaches in imported callables it reaches elsewhere too, and no imported name hides an effect
the facts list. -/
theorem exportAgrees_iff (context : EffectContext) (node : ModuleNode) :
    ExportAgrees context node
      ↔ ∀ key, (∃ label, LabelWithin context node (visibleSeeds context node) key label) →
          (∀ label, LabelWithin context node (visibleSeeds context node) key label →
            effectLabelEnabled context label = true)
          ∧ (∀ label, ImportedLabelWithin context node key label →
              LabelWithin context node (exportSeeds context node) key label)
          ∧ ∀ label, effectLabelEnabled context label = true →
              LabelWithin context node (exportSeeds context node) key label →
                LabelWithin context node (visibleSeeds context node) key label := by
  constructor
  · rintro hagrees key ⟨label', effect, -, hwithin⟩
    obtain ⟨fact, hfact, rfl, heffects⟩ :=
      hagrees key ⟨effect, (mem_inferredRow _ _ _ _).2 hwithin⟩
    have hsame : ∀ label, LabelWithin context node (visibleSeeds context node) fact.key label
        ↔ effectLabelEnabled context label = true
            ∧ LabelWithin context node (exportSeeds context node) fact.key label := by
      intro label
      rw [← mem_effects_of_fact hfact (free_of_within hwithin), heffects, mem_labels_inferredRow]
    refine ⟨fun label hlabel => ((hsame label).1 hlabel).1, ?_, ?_⟩
    · rintro label ⟨effect', heffect', himported⟩
      exact ((hsame label).1 ⟨effect', heffect', himported.mono_given fun _ _ => importGives_seedGives⟩).2
    · exact fun label henabled hexport => (hsame label).2 ⟨henabled, hexport⟩
  · rintro hcondition key ⟨effect, heffect⟩
    have hwithin := (mem_inferredRow _ _ _ _).1 heffect
    have hrow : LabelWithin context node (visibleSeeds context node) key effect.label :=
      ⟨effect, rfl, hwithin⟩
    obtain ⟨henabled, himported, hhidden⟩ := hcondition key ⟨_, hrow⟩
    have hexport : ∀ label, LabelWithin context node (visibleSeeds context node) key label →
        LabelWithin context node (exportSeeds context node) key label := by
      rintro label ⟨effect', rfl, hwithin'⟩
      rcases imported_or_export_of_visible hwithin' with h | h
      · exact himported _ ⟨effect', rfl, h⟩
      · exact ⟨effect', rfl, h⟩
    obtain ⟨fact, hfact, rfl⟩ := exists_fact (henabled _ hrow) (hexport _ hrow)
    refine ⟨fact, hfact, rfl, fun label => ?_⟩
    rw [mem_effects_of_fact hfact (free_of_within hwithin), mem_labels_inferredRow]
    exact ⟨fun h => hhidden label h.1 h.2, fun h => ⟨henabled label h, hexport label h⟩⟩

end Agreement

/-! ## An effect that is lost on the way -/

/-- A module with a function that declares an effect. -/
def providerModule : ModuleNode where
  moduleKey := "provider"
  declarations := [{ name := "read", kind := .function }]

/-- A module that imports the function and calls it from a function of its own. -/
def callerModule : ModuleNode where
  moduleKey := "caller"
  declarations :=
    [{ name := "read", kind := .importDecl,
       metadata := .importDecl (BoundImportTarget.new "provider.read") },
     { name := "load", kind := .function }]

def importContext : EffectContext where
  nodes := [providerModule, callerModule]
  effectRowsEnabled := true
  taintEnabled := false
  loadDecoratorTransformModuleInfo := fun node =>
    if node.moduleKey = "provider" then
      some [{ ownerTypeName := none, name := "read", decorators := ["effect_io_fs"], line := 1 }]
    else none
  loadFrameworkTransformModuleInfo := fun _ => none
  effectCallEdges := fun node =>
    if node.moduleKey = "caller" then
      [{ ownerTypeName := none, ownerName := "load", callee := .function "read", line := 3 }]
    else []

/-- The caller is checked with the effect, but exports no fact of it. -/
theorem importContext_not_agrees : ¬ ExportAgrees importContext callerModule := by
  intro hagrees
  have hchecked : EffectKind.ioFs ∈ inferredRow (importContext.effectCallEdges callerModule)
      (visibleSeeds importContext callerModule) (none, "load") := by
    decide +kernel
  have hfacts : collectEffectSummaryFacts importContext callerModule = [] := by decide +kernel
  obtain ⟨fact, hfact, -⟩ := hagrees (none, "load") ⟨.ioFs, hchecked⟩
  rw [hfacts] at hfact
  exact absurd hfact List.not_mem_nil

end TypePython.Effects
