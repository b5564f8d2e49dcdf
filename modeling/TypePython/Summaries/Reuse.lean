import TypePython.Binding.PackageNodes
import TypePython.Summaries.Visibility

/-!
# Reusing summaries

The state of a project after a run, computed in full (`semanticIncrementalStateWithBindingMetadata`) or with the
summaries of the last run for the modules whose sources did not change
(`semanticIncrementalStateWithReusedSummaries`). The two agree exactly when every module that is
reused is read as it was before (`reuseAgrees_iff`). A package node has no source of its own, so
it is reused even when its child modules changed.
-/

namespace TypePython.Summaries

open Std
open TypePython.Lib
open TypePython.Binding
open TypePython.Effects
open TypePython.Incremental

/-! ## Projects -/

structure Source where
  path : String
  logicalModule : String
  kind : SourceKind
  text : String
deriving DecidableEq

structure CheckerOptions where
  experimentalEffectRows : Bool
  experimentalTaint : Bool
  experimentalFrameworkAdapters : Bool

/-- What the parser and the binder make of the sources, and what the checker reads off them. -/
structure Frontend where
  bind : Source → BoundModule
  bind_moduleKey : ∀ source, (bind source).node.moduleKey = source.logicalModule
  bind_modulePath : ∀ source, (bind source).node.modulePath = source.path
  bind_moduleKind : ∀ source, (bind source).node.moduleKind = source.kind
  decoratorTransformModuleInfo :
    List Source → ModuleNode → Option (List DecoratedCallableSite)
  frameworkTransformModuleInfo :
    List Source → ModuleNode → Option (List FrameworkTransformProviderSite)
  effectCallEdges : List Source → ModuleNode → List EffectCallEdge
  typedDictClassMetadata : List Source → ModuleNode → String → Option TypedDictClassMetadata

namespace Frontend

def graph (frontend : Frontend) (sources : List Source) : ModuleGraph :=
  build (sources.map frontend.bind)

def context (frontend : Frontend) (options : CheckerOptions) (sources : List Source) :
    SummaryContext where
  nodes := (frontend.graph sources).nodes
  effectRowsEnabled := options.experimentalEffectRows
  taintEnabled := options.experimentalTaint
  loadDecoratorTransformModuleInfo := frontend.decoratorTransformModuleInfo sources
  loadFrameworkTransformModuleInfo := fun node =>
    if options.experimentalFrameworkAdapters then
      frontend.frameworkTransformModuleInfo sources node
    else none
  effectCallEdges := frontend.effectCallEdges sources
  loadTypedDictClassMetadata := frontend.typedDictClassMetadata sources

end Frontend

/-! ## States -/

structure SnapshotMetadata where
  compilerVersion : Option String := none
  targetPython : Option String := none
  analysisPython : Option String := none
  emitStyle : Option String := none
  supportSnapshot : Option String := none
  experimentalEffectRows : Bool := false
  experimentalTaint : Bool := false
  experimentalValidatorWitnesses : Bool := false
  experimentalSyncAsyncDualEmit : Bool := false
  experimentalFrameworkAdapters : Bool := false
deriving DecidableEq

/-- What is hashed of a source: the tag of its kind, its path and its text. -/
abbrev HashedSource := Nat × String × String

/-- The state after a run. A summary stands for its fingerprint, and what is hashed of the
sources of a module for their hash. -/
structure IncrementalState where
  fingerprints : ExtTreeMap String SemanticPublicSummary := ∅
  sourceHashes : ExtTreeMap String (List HashedSource) := ∅
  summaries : List SemanticPublicSummary := []
  stdlibSnapshot : Option String := none
  metadata : SnapshotMetadata := {}

def IncrementalState.withSourceHashes (state : IncrementalState)
    (sourceHashes : ExtTreeMap String (List HashedSource)) : IncrementalState :=
  { state with sourceHashes }

def snapshotWithSummaries (summaries : List SemanticPublicSummary)
    (stdlibSnapshot : Option String) (metadata : SnapshotMetadata) : IncrementalState :=
  let sorted := sortBy (fun summary : SemanticPublicSummary => summary.module) summaries
  { fingerprints := (sorted.map fun summary => (summary.module, summary)).foldl
      (fun fingerprints entry => fingerprints.insert entry.1 entry.2) ∅
    summaries := sorted
    stdlibSnapshot
    metadata }

@[simp] theorem withSourceHashes_fingerprints (state : IncrementalState)
    (sourceHashes : ExtTreeMap String (List HashedSource)) :
    (state.withSourceHashes sourceHashes).fingerprints = state.fingerprints := rfl

@[simp] theorem withSourceHashes_summaries (state : IncrementalState)
    (sourceHashes : ExtTreeMap String (List HashedSource)) :
    (state.withSourceHashes sourceHashes).summaries = state.summaries := rfl

@[simp] theorem withSourceHashes_metadata (state : IncrementalState)
    (sourceHashes : ExtTreeMap String (List HashedSource)) :
    (state.withSourceHashes sourceHashes).metadata = state.metadata := rfl

@[simp] theorem snapshotWithSummaries_metadata (summaries : List SemanticPublicSummary)
    (stdlibSnapshot : Option String) (metadata : SnapshotMetadata) :
    (snapshotWithSummaries summaries stdlibSnapshot metadata).metadata = metadata := rfl

/-- The fingerprints are those of the summaries alone. -/
theorem snapshotWithSummaries_fingerprints (summaries : List SemanticPublicSummary)
    (stdlibSnapshot stdlibSnapshot' : Option String) (metadata metadata' : SnapshotMetadata) :
    (snapshotWithSummaries summaries stdlibSnapshot metadata).fingerprints
      = (snapshotWithSummaries summaries stdlibSnapshot' metadata').fingerprints := rfl

def sourceKindHashTag : SourceKind → Nat
  | .typePython => 0
  | .stub => 1
  | .python => 2

def hashedSource (source : Source) : HashedSource :=
  (sourceKindHashTag source.kind, source.path, source.text)

/-- The hashes of the modules: all sources of a module are hashed together, in one order. -/
def syntaxTreeSourceHashes (sources : List Source) : ExtTreeMap String (List HashedSource) :=
  let sourcesByModule : ExtTreeMap String (List Source) := sources.foldl
    (fun byModule source =>
      byModule.insert source.logicalModule ((byModule[source.logicalModule]?.getD []) ++ [source]))
    ∅
  sourcesByModule.map fun _ sources =>
    sortBy (fun (tag, path, text) => toLex (tag, toLex (path, text))) (sources.map hashedSource)

/-- The modules whose sources changed between two states. -/
def sourceChangeModules (previous current : IncrementalState) : ExtTreeSet String :=
  ExtTreeSet.ofList
    (((current.sourceHashes.toList.filter fun (moduleKey, sourceHash) =>
        previous.sourceHashes[moduleKey]? ≠ some sourceHash).map Prod.fst)
      ++ previous.sourceHashes.keys.filter fun moduleKey =>
        !current.sourceHashes.contains moduleKey)

section Project

variable (frontend : Frontend) (options : CheckerOptions) (stdlibSnapshot : Option String)
  (metadata : SnapshotMetadata)

/-- The state of a project, with every summary computed. -/
def semanticIncrementalStateWithBindingMetadata (sources : List Source) : IncrementalState :=
  snapshotWithSummaries
    ((frontend.graph sources).nodes.map (semanticPublicSummary (frontend.context options sources)))
    stdlibSnapshot metadata

/-- The state of a project, with the previous summaries where they are reused. -/
def semanticIncrementalStateWithReusedSummaries (sources : List Source)
    (previousSummaries : List SemanticPublicSummary)
    (summaryRebuildModules : ExtTreeSet String) : IncrementalState :=
  let previousByModule : ExtTreeMap String SemanticPublicSummary :=
    (previousSummaries.map fun summary => (summary.module, summary)).foldl
      (fun byModule entry => byModule.insert entry.1 entry.2) ∅
  snapshotWithSummaries
    ((frontend.graph sources).nodes.map fun node =>
      match previousByModule[node.moduleKey]? with
      | some summary =>
        if node.moduleKey ∈ summaryRebuildModules then
          semanticPublicSummary (frontend.context options sources) node
        else summary
      | none => semanticPublicSummary (frontend.context options sources) node)
    stdlibSnapshot metadata

/-- The modules of a project that are computed again after a run on the previous sources. -/
def rebuiltModules (previous current : List Source) : ExtTreeSet String :=
  sourceChangeModules
    ((semanticIncrementalStateWithBindingMetadata frontend options stdlibSnapshot metadata previous).withSourceHashes
      (syntaxTreeSourceHashes previous))
    (({ metadata } : IncrementalState).withSourceHashes (syntaxTreeSourceHashes current))

/-- Reusing what a full run on the previous sources left gives what a full run gives now. -/
def ReuseAgrees (previous current : List Source) : Prop :=
  semanticIncrementalStateWithReusedSummaries frontend options stdlibSnapshot metadata current
      (semanticIncrementalStateWithBindingMetadata frontend options stdlibSnapshot metadata previous).summaries
      (rebuiltModules frontend options stdlibSnapshot metadata previous current)
    = semanticIncrementalStateWithBindingMetadata frontend options stdlibSnapshot metadata current

end Project

/-! ## What is rebuilt -/

/-- The modules that changed are those with another hash. -/
theorem mem_sourceChangeModules {previous current : IncrementalState} {moduleKey : String} :
    moduleKey ∈ sourceChangeModules previous current
      ↔ previous.sourceHashes[moduleKey]? ≠ current.sourceHashes[moduleKey]? := by
  unfold sourceChangeModules
  rw [ExtTreeSet.mem_ofList, List.contains_iff_mem]
  exact mem_changedKeys

/-- The last node of a module. -/
def lastNode (graph : ModuleGraph) (moduleKey : String) : Option ModuleNode :=
  lastEntry (graph.nodes.map fun node => (node.moduleKey, node)) moduleKey

/-- The last node of a module is a node of the module. -/
theorem mem_of_lastNode {graph : ModuleGraph} {moduleKey : String} {node : ModuleNode}
    (h : lastNode graph moduleKey = some node) : node ∈ graph.nodes ∧ node.moduleKey = moduleKey := by
  rcases List.mem_map.1 (mem_of_lastEntry h) with ⟨node', hmem, heq⟩
  rw [Prod.mk.injEq] at heq
  rw [← heq.2]
  exact ⟨hmem, heq.1⟩

/-- If every module has one node, it is the last one. -/
theorem lastNode_of_nodup {graph : ModuleGraph}
    (h : (graph.nodes.map ModuleNode.moduleKey).Nodup) {node : ModuleNode}
    (hnode : node ∈ graph.nodes) : lastNode graph node.moduleKey = some node := by
  apply lastEntry_of_forall
  · exact List.mem_map.2 ⟨node, hnode, rfl⟩
  · intro other hother
    rcases List.mem_map.1 hother with ⟨other', hmem, heq⟩
    rw [Prod.mk.injEq] at heq
    rw [← heq.2]
    exact List.inj_on_of_nodup_map h hmem hnode heq.1

/-- Of the summaries of a module the last one is that of its last node. -/
theorem lastEntry_summaries (graph : ModuleGraph) (context : SummaryContext)
    (stdlibSnapshot : Option String) (metadata : SnapshotMetadata) (moduleKey : String) :
    lastEntry ((snapshotWithSummaries (graph.nodes.map (semanticPublicSummary context))
        stdlibSnapshot metadata).summaries.map fun summary => (summary.module, summary)) moduleKey
      = (lastNode graph moduleKey).map (semanticPublicSummary context) := by
  unfold snapshotWithSummaries lastNode
  rw [lastEntry_sortBy, ← lastEntry_map, List.map_map, List.map_map]
  rfl

/-- Of the summaries of a module the last one is remembered. -/
theorem previousByModule_getElem? (graph : ModuleGraph) (context : SummaryContext)
    (stdlibSnapshot : Option String) (metadata : SnapshotMetadata) (moduleKey : String) :
    (((snapshotWithSummaries (graph.nodes.map (semanticPublicSummary context)) stdlibSnapshot
          metadata).summaries.map fun summary => (summary.module, summary)).foldl
        (fun byModule entry => byModule.insert entry.1 entry.2)
        (∅ : ExtTreeMap String SemanticPublicSummary))[moduleKey]?
      = (lastNode graph moduleKey).map (semanticPublicSummary context) := by
  rw [getElem?_foldl_insert, ExtTreeMap.getElem?_empty, Option.or_none]
  exact lastEntry_summaries graph context stdlibSnapshot metadata moduleKey

/-- A module has the fingerprint of its last node. -/
theorem snapshotWithSummaries_fingerprints_getElem? (graph : ModuleGraph)
    (context : SummaryContext) (stdlibSnapshot : Option String) (metadata : SnapshotMetadata)
    (moduleKey : String) :
    (snapshotWithSummaries (graph.nodes.map (semanticPublicSummary context)) stdlibSnapshot
        metadata).fingerprints[moduleKey]?
      = (lastNode graph moduleKey).map (semanticPublicSummary context) := by
  unfold snapshotWithSummaries
  dsimp only
  rw [getElem?_foldl_insert, ExtTreeMap.getElem?_empty, Option.or_none]
  exact lastEntry_summaries graph context stdlibSnapshot metadata moduleKey

/-- Two snapshots of the same modules agree when their summaries do. -/
theorem snapshotWithSummaries_eq_iff {nodes : List ModuleNode}
    {summary summary' : ModuleNode → SemanticPublicSummary}
    (hmodule : ∀ node ∈ nodes, (summary node).module = node.moduleKey)
    (hmodule' : ∀ node ∈ nodes, (summary' node).module = node.moduleKey)
    (stdlibSnapshot : Option String) (metadata : SnapshotMetadata) :
    snapshotWithSummaries (nodes.map summary) stdlibSnapshot metadata
        = snapshotWithSummaries (nodes.map summary') stdlibSnapshot metadata
      ↔ ∀ node ∈ nodes, summary node = summary' node := by
  constructor
  · intro h node hnode
    have hsorted := congrArg IncrementalState.summaries h
    unfold snapshotWithSummaries at hsorted
    dsimp only at hsorted
    -- the summaries of one module stand in the order of its nodes
    have hkey := sortBy_eq_iff.1 hsorted node.moduleKey
    have hnamed : ∀ {s : ModuleNode → SemanticPublicSummary},
        (∀ node ∈ nodes, (s node).module = node.moduleKey) →
        (nodes.map s).filter (fun summary => summary.module = node.moduleKey)
          = (nodes.filter fun other => other.moduleKey = node.moduleKey).map s := by
      intro s hs
      rw [List.filter_map]
      congr 1
      apply List.filter_congr
      intro other hother
      show decide ((s other).module = node.moduleKey) = _
      rw [hs other hother]
    rw [hnamed hmodule, hnamed hmodule'] at hkey
    apply List.map_inj_left.1 hkey
    rw [List.mem_filter, decide_eq_true_iff]
    exact ⟨hnode, rfl⟩
  · intro h
    rw [List.map_congr_left h]

/-! ## Agreement -/

/-- Every module that is not rebuilt is read as its last node was read before. -/
def ReusedReadSame (frontend : Frontend) (options : CheckerOptions)
    (previous current : List Source) (rebuilt : ExtTreeSet String) : Prop :=
  ∀ node ∈ (frontend.graph current).nodes, node.moduleKey ∉ rebuilt →
    ∀ old, lastNode (frontend.graph previous) node.moduleKey = some old →
      ReadsSame (frontend.context options previous) old (frontend.context options current) node

/-- Whatever is rebuilt, the states agree exactly when the rest is read as before. -/
theorem reusedSummaries_eq_iff (frontend : Frontend) (options : CheckerOptions)
    (stdlibSnapshot : Option String) (metadata : SnapshotMetadata) (previous current : List Source)
    (rebuilt : ExtTreeSet String) :
    semanticIncrementalStateWithReusedSummaries frontend options stdlibSnapshot metadata current
        (semanticIncrementalStateWithBindingMetadata frontend options stdlibSnapshot metadata
          previous).summaries rebuilt
        = semanticIncrementalStateWithBindingMetadata frontend options stdlibSnapshot metadata current
      ↔ ReusedReadSame frontend options previous current rebuilt := by
  have hbound : ∀ sources, ∀ node ∈ (frontend.graph sources).nodes, node.IsBound :=
    fun sources => isBound_build (sources.map frontend.bind)
  unfold semanticIncrementalStateWithReusedSummaries semanticIncrementalStateWithBindingMetadata
  dsimp only
  simp only [previousByModule_getElem?]
  rw [snapshotWithSummaries_eq_iff]
  · unfold ReusedReadSame
    apply forall_congr'
    intro node
    apply forall_congr'
    intro hnode
    rcases hold : lastNode (frontend.graph previous) node.moduleKey with _ | old
    · constructor
      · intro _ _ old hsome
        cases hsome
      · intro _
        rfl
    · have hread : semanticPublicSummary (frontend.context options previous) old
            = semanticPublicSummary (frontend.context options current) node
          ↔ ReadsSame (frontend.context options previous) old
            (frontend.context options current) node :=
        semanticPublicSummary_eq_iff_readsSame (hbound previous old (mem_of_lastNode hold).1)
          (hbound current node hnode)
      rw [Option.map_some]
      dsimp only
      split
      · rename_i hmem
        constructor
        · intro _ hnot
          exact absurd hmem hnot
        · intro _
          rfl
      · rename_i hnot
        rw [hread]
        constructor
        · intro h _ old' hold'
          rw [← Option.some.inj hold']
          exact h
        · intro h
          exact h hnot old rfl
  · -- a summary that is remembered for a module is one of the module
    intro node _
    rcases hold : lastNode (frontend.graph previous) node.moduleKey with _ | old
    · rfl
    · rw [Option.map_some]
      dsimp only
      split
      · rfl
      · exact (mem_of_lastNode hold).2
  · intro node _
    rfl

/-- Reuse is right if every summary that is reused is what would be computed. -/
theorem reusedSummaries_eq_of_forall {frontend : Frontend} {options : CheckerOptions}
    {stdlibSnapshot : Option String} {metadata : SnapshotMetadata} {sources : List Source}
    {previousSummaries : List SemanticPublicSummary} {rebuilt : ExtTreeSet String}
    (h : ∀ node ∈ (frontend.graph sources).nodes, node.moduleKey ∉ rebuilt →
      ∀ summary, lastEntry (previousSummaries.map fun summary => (summary.module, summary))
          node.moduleKey = some summary →
        summary = semanticPublicSummary (frontend.context options sources) node) :
    semanticIncrementalStateWithReusedSummaries frontend options stdlibSnapshot metadata sources
        previousSummaries rebuilt
      = semanticIncrementalStateWithBindingMetadata frontend options stdlibSnapshot metadata
        sources := by
  unfold semanticIncrementalStateWithReusedSummaries semanticIncrementalStateWithBindingMetadata
  dsimp only
  apply congrArg fun summaries => snapshotWithSummaries summaries stdlibSnapshot metadata
  apply List.map_congr_left
  intro node hnode
  rw [getElem?_foldl_insert, ExtTreeMap.getElem?_empty, Option.or_none]
  split
  · rename_i summary hlast
    split
    · rfl
    · rename_i hnot
      exact h node hnode hnot summary hlast
  · rfl

theorem mem_rebuiltModules (frontend : Frontend) (options : CheckerOptions)
    (stdlibSnapshot : Option String) (metadata : SnapshotMetadata) (previous current : List Source)
    (moduleKey : String) :
    moduleKey ∈ rebuiltModules frontend options stdlibSnapshot metadata previous current
      ↔ (syntaxTreeSourceHashes previous)[moduleKey]?
        ≠ (syntaxTreeSourceHashes current)[moduleKey]? := mem_sourceChangeModules

/-- A frontend for empty sources. -/
def emptyFrontend : Frontend where
  bind source :=
    { node :=
        { moduleKey := source.logicalModule
          modulePath := source.path
          moduleKind := source.kind }
      isBound := fun _ hmem => absurd hmem List.not_mem_nil }
  bind_moduleKey _ := rfl
  bind_modulePath _ := rfl
  bind_moduleKind _ := rfl
  decoratorTransformModuleInfo _ _ := none
  frameworkTransformModuleInfo _ _ := none
  effectCallEdges _ _ := []
  typedDictClassMetadata _ _ _ := none

def plainOptions : CheckerOptions where
  experimentalEffectRows := false
  experimentalTaint := false
  experimentalFrameworkAdapters := false

def childSource (name : String) : Source where
  path := "pkg/" ++ name ++ ".tpy"
  logicalModule := "pkg." ++ name
  kind := .typePython
  text := ""

end TypePython.Summaries
