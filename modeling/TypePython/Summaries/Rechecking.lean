import TypePython.Incremental.AffectedModules
import TypePython.Summaries.Equality

/-!
# What a recheck leaves out

Between the states of two runs the planner picks the modules to check again. A module it does not
pick has the sources it had, and so have the public summaries of everything it reaches through
imports, in either version of the project (`unchanged_of_not_rechecked`).
-/

namespace TypePython.Summaries

open Std
open TypePython.Lib
open TypePython.Binding
open TypePython.Incremental
open Relation

/-! ## Changes between two states -/

/-- The modules that are added, removed or have another fingerprint (`snapshot_diff_modules` of
`diff`). -/
def snapshotDiffModules (previous current : IncrementalState) : ExtTreeSet String :=
  ExtTreeSet.ofList
    (((current.fingerprints.toList.filter fun (moduleKey, fingerprint) =>
        previous.fingerprints[moduleKey]? ≠ some fingerprint).map Prod.fst)
      ++ previous.fingerprints.keys.filter fun moduleKey =>
        !current.fingerprints.contains moduleKey)

theorem mem_snapshotDiffModules {previous current : IncrementalState} {moduleKey : String} :
    moduleKey ∈ snapshotDiffModules previous current
      ↔ previous.fingerprints[moduleKey]? ≠ current.fingerprints[moduleKey]? := by
  unfold snapshotDiffModules
  rw [ExtTreeSet.mem_ofList, List.contains_iff_mem]
  exact mem_changedKeys

/-! ## Imports -/

/-- A node of one module imports the other module. -/
def ImportsModule (graph : ModuleGraph) (importer imported : String) : Prop :=
  ∃ node ∈ graph.nodes, node.moduleKey = importer
    ∧ imported ∈ resolveAll (ExtTreeSet.ofList (graph.nodes.map ModuleNode.moduleKey))
      ((importTargetsOf node.declarations).map BoundImportTarget.moduleTarget)

/-- The modules one module reaches through imports. -/
def ReachesModule (graph : ModuleGraph) : String → String → Prop :=
  TransGen (ImportsModule graph)

/-- The edges of an index are those of the entries that were recorded. -/
theorem importEdge_foldl_record {entries : List (String × ModuleSet)}
    {index : ModuleDependencyIndex} {importer imported : String} :
    (entries.foldl ModuleDependencyIndex.record index).ImportEdge importer imported
      ↔ index.ImportEdge importer imported
        ∨ ∃ entry ∈ entries, entry.1 = importer ∧ imported ∈ entry.2 := by
  unfold ModuleDependencyIndex.ImportEdge
  induction entries generalizing index with
  | nil => simp
  | cons entry rest ih =>
    rw [List.foldl_cons, ih, modulesOf_reverseImports_record, List.exists_mem_cons_iff,
      ← or_assoc]
    apply or_congr_left
    by_cases himported : imported ∈ entry.2
    · rw [if_pos himported, ExtTreeSet.mem_insert, Std.compare_eq_iff_eq]
      simp only [himported, and_true]
      exact or_comm
    · simp [himported]

theorem not_importEdge_empty {moduleKeys : List String} {importer imported : String} :
    ¬(ModuleDependencyIndex.empty moduleKeys).ImportEdge importer imported := by
  unfold ModuleDependencyIndex.ImportEdge
  rw [(modulesOf_empty moduleKeys imported).2]
  exact ExtTreeSet.not_mem_empty

/-- The index of a graph has an edge for every import. -/
theorem importEdge_dependencyIndex {graph : ModuleGraph} {importer imported : String} :
    (dependencyIndex graph).ImportEdge importer imported
      ↔ ImportsModule graph importer imported := by
  unfold dependencyIndex
  dsimp only
  rw [importEdge_foldl_record]
  simp only [not_importEdge_empty, false_or, List.mem_map, exists_exists_and_eq_and]
  rfl

/-- The index of the summaries of a graph has an edge for every import, too. -/
theorem importEdge_dependencyIndexFromSummaries {graph : ModuleGraph}
    {summaries : List PublicSummary} {importer imported : String}
    (hperm : summaries.Perm (graph.nodes.map publicSummary))
    (hbound : ∀ node ∈ graph.nodes, node.IsBound) :
    (dependencyIndexFromSummaries summaries).ImportEdge importer imported
      ↔ ImportsModule graph importer imported := by
  have hkeys : ExtTreeSet.ofList (summaries.map PublicSummary.module)
      = ExtTreeSet.ofList (graph.nodes.map ModuleNode.moduleKey) := by
    apply ofList_perm
    have hmodules := hperm.map PublicSummary.module
    rw [List.map_map] at hmodules
    exact hmodules
  -- a summary resolves to the modules its node resolves to
  have htargets : ∀ node ∈ graph.nodes, ∀ moduleKeys,
      resolveAll moduleKeys (publicSummary node).targets = resolveAll moduleKeys
        ((importTargetsOf node.declarations).map BoundImportTarget.moduleTarget) := by
    intro node hnode moduleKeys
    apply resolveAll_congr
    apply mem_targets_publicSummary
    intro target htarget
    rw [importTargetsOf_eq_new (hbound node hnode) htarget]
    rfl
  unfold dependencyIndexFromSummaries
  dsimp only
  rw [importEdge_foldl_record, hkeys]
  simp only [not_importEdge_empty, false_or, List.mem_map, exists_exists_and_eq_and,
    hperm.mem_iff]
  unfold ImportsModule
  constructor
  · rintro ⟨node, hnode, hkey, himported⟩
    rw [htargets node hnode] at himported
    exact ⟨node, hnode, hkey, himported⟩
  · rintro ⟨node, hnode, hkey, himported⟩
    rw [← htargets node hnode] at himported
    exact ⟨node, hnode, hkey, himported⟩

/-- The index of the summaries a state holds. -/
def IncrementalState.dependencyIndex (state : IncrementalState) : ModuleDependencyIndex :=
  dependencyIndexFromSummaries (state.summaries.map SemanticPublicSummary.toPublicSummary)

@[simp] theorem dependencyIndex_withSourceHashes (state : IncrementalState)
    (sourceHashes : ExtTreeMap String (List HashedSource)) :
    (state.withSourceHashes sourceHashes).dependencyIndex = state.dependencyIndex := rfl

theorem toPublicSummary_semanticPublicSummary {context : SummaryContext} {node : ModuleNode} :
    (semanticPublicSummary context node).toPublicSummary = publicSummary node := by
  unfold semanticPublicSummary
  dsimp only

theorem importEdge_state {frontend : Frontend} {options : CheckerOptions}
    {stdlibSnapshot : Option String} {metadata : SnapshotMetadata} {sources : List Source}
    {importer imported : String} :
    (semanticIncrementalStateWithBindingMetadata frontend options stdlibSnapshot metadata
        sources).dependencyIndex.ImportEdge importer imported
      ↔ ImportsModule (frontend.graph sources) importer imported := by
  have hpublic : SemanticPublicSummary.toPublicSummary
      ∘ semanticPublicSummary (frontend.context options sources) = publicSummary := by
    funext node
    exact toPublicSummary_semanticPublicSummary
  have hperm : ((semanticIncrementalStateWithBindingMetadata frontend options stdlibSnapshot
      metadata sources).summaries.map SemanticPublicSummary.toPublicSummary).Perm
        ((frontend.graph sources).nodes.map publicSummary) := by
    rw [← hpublic, ← List.map_map]
    apply List.Perm.map
    unfold semanticIncrementalStateWithBindingMetadata snapshotWithSummaries
    dsimp only
    generalize (frontend.graph sources).nodes.map _ = summaries
    exact perm_sortBy _ summaries
  have hbound : ∀ node ∈ (frontend.graph sources).nodes, node.IsBound :=
    isBound_build (sources.map frontend.bind)
  have hindex := @importEdge_dependencyIndexFromSummaries _ _ importer imported hperm hbound
  exact hindex

/-! ## The plan -/

/-- The modules to check again between two states, the second of a graph. -/
def rechecked (previous current : IncrementalState) (graph : ModuleGraph) : ModuleSet :=
  planAffectedModules (some previous.dependencyIndex) (Incremental.dependencyIndex graph)
    (sourceChangeModules previous current) (snapshotDiffModules previous current)

/-- A module that is not checked again has the sources it had, and everything it reaches in
either version has the summary it had. -/
theorem unchanged_of_not_rechecked {previous current : IncrementalState}
    {previousGraph graph : ModuleGraph} {moduleKey : String}
    (hprevious : ∀ importer imported, ImportsModule previousGraph importer imported →
      previous.dependencyIndex.ImportEdge importer imported)
    (h : moduleKey ∉ rechecked previous current graph) :
    previous.sourceHashes[moduleKey]? = current.sourceHashes[moduleKey]?
      ∧ ∀ reached, ReachesModule previousGraph moduleKey reached
          ∨ ReachesModule graph moduleKey reached →
        previous.fingerprints[reached]? = current.fingerprints[reached]? := by
  rw [rechecked, mem_planAffectedModules, mem_sourceChangeModules] at h
  simp only [not_or, not_not, not_exists, not_and] at h
  rcases h with ⟨hsource, -, hreaches⟩
  refine ⟨hsource, ?_⟩
  intro reached hreached
  by_contra hchanged
  apply hreaches reached (mem_snapshotDiffModules.2 hchanged)
  -- a path through either version is a path of the planner
  rcases hreached with hpath | hpath
  · apply TransGen.mono (fun importer imported hedge => ?_) moduleKey reached hpath
    exact .inr ⟨_, rfl, hprevious importer imported hedge⟩
  · apply TransGen.mono (fun importer imported hedge => ?_) moduleKey reached hpath
    exact .inl (importEdge_dependencyIndex.2 hedge)

theorem mem_importsByModule_foldl_record {entries : List (String × ModuleSet)}
    {index : ModuleDependencyIndex} {moduleKey : String} :
    moduleKey ∈ (entries.foldl ModuleDependencyIndex.record index).importsByModule
      ↔ moduleKey ∈ entries.map Prod.fst ∨ moduleKey ∈ index.importsByModule := by
  induction entries generalizing index with
  | nil => simp
  | cons entry rest ih =>
    rw [List.foldl_cons, ih, ModuleDependencyIndex.record, ExtTreeMap.mem_insert,
      Std.compare_eq_iff_eq, List.map_cons, List.mem_cons]
    grind

theorem mem_importsByModule_dependencyIndex {graph : ModuleGraph} {moduleKey : String} :
    moduleKey ∈ (dependencyIndex graph).importsByModule
      ↔ moduleKey ∈ graph.nodes.map ModuleNode.moduleKey := by
  unfold dependencyIndex
  dsimp only
  rw [mem_importsByModule_foldl_record, List.map_map, ModuleDependencyIndex.empty,
    ExtTreeMap.mem_iff_isSome_getElem?, getElem?_foldl_insert_empty]
  by_cases h : moduleKey ∈ graph.nodes.map ModuleNode.moduleKey
  · exact iff_of_true (.inl h) h
  · rw [if_neg h, ExtTreeMap.getElem?_empty]
    exact ⟨fun hmem => hmem.resolve_right (by simp), fun hmem => absurd hmem h⟩

end TypePython.Summaries
