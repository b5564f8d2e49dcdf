import TypePython.Pipeline.Run

/-!
# The diagnostics of a module

Each phase reports on the modules one by one: `checkOf`, `loweringOf` and `reportedSurface` are
what it has to say of a module of the project. A run puts together what it kept of the cache and
what the phases say of the modules it looks at again (`entriesOf_runPhases`).
-/

namespace TypePython.Pipeline

open Std
open TypePython.Lib
open TypePython.Binding
open TypePython.Incremental
open TypePython.Summaries

/-- The last source of a module. -/
def lastSource (sources : List Source) (moduleKey : String) : Option Source :=
  lastEntry (sources.map fun tree => (tree.logicalModule, tree)) moduleKey

variable {moduleKey : String} {sources : List Source}

theorem mem_of_lastSource {tree : Source} (h : lastSource sources moduleKey = some tree) :
    tree ∈ sources ∧ tree.logicalModule = moduleKey := by
  rcases List.mem_map.1 (mem_of_lastEntry h) with ⟨tree', hmem, heq⟩
  rw [Prod.mk.injEq] at heq
  rw [← heq.2]
  exact ⟨hmem, heq.1⟩

/-- Only the sources of a module matter to its last one. -/
theorem lastSource_congr {sources' : List Source}
    (h : (sources.filter fun tree => tree.logicalModule = moduleKey)
      = sources'.filter fun tree => tree.logicalModule = moduleKey) :
    lastSource sources moduleKey = lastSource sources' moduleKey := by
  apply lastEntry_congr
  rw [List.filter_map, List.filter_map]
  exact congrArg (List.map _) h

theorem exists_lastSource (h : moduleKey ∈ sources.map Source.logicalModule) :
    ∃ tree, lastSource sources moduleKey = some tree := by
  rcases List.mem_map.1 h with ⟨tree, htree, hkey⟩
  apply exists_lastEntry
  exact List.mem_map.2 ⟨tree, htree, by rw [hkey]⟩

theorem exists_lastNode {graph : ModuleGraph} : (∃ node, lastNode graph moduleKey = some node)
      ↔ moduleKey ∈ graph.nodes.map ModuleNode.moduleKey := by
  constructor
  · rintro ⟨node, hlast⟩
    rcases mem_of_lastNode hlast with ⟨hnode, hkey⟩
    exact List.mem_map.2 ⟨node, hnode, hkey⟩
  · intro h
    rcases List.mem_map.1 h with ⟨node, hnode, hkey⟩
    apply exists_lastEntry
    exact List.mem_map.2 ⟨node, hnode, by rw [hkey]⟩

variable {files : CacheFiles}

section Phases

variable (compiler : Compiler) (project : Project)

/-- What the checker says of the last node of a module. -/
def moduleCheck (options : CheckerOptions) (parseOptions : ParseOptions) (sources : List Source)
    (moduleKey : String) : List Diagnostic :=
  match lastNode ((compiler.frontend parseOptions).graph sources) moduleKey with
  | some node => compiler.nodeDiagnostics options parseOptions sources node
  | none => []

/-- What checking reports of a module, less what its last source ignores. -/
def checkOf (moduleKey : String) : List Diagnostic :=
  match lastSource project.sources moduleKey with
  | some tree => applyTypeIgnoresForModule compiler tree (moduleCheck compiler
      project.config.checkerOptions project.config.parseOptions project.allSyntaxTrees moduleKey)
  | none => []

/-- What lowering reports of a module. -/
def loweringOf (moduleKey : String) : List Diagnostic :=
  match lastSource project.sources moduleKey with
  | some tree => (lowerWithOptions compiler project tree).diagnostics
  | none => []

/-- What the public surfaces of the sources of a module lack. -/
def surfaceOf (moduleKey : String) : List Diagnostic :=
  (project.sources.filter fun tree => tree.logicalModule = moduleKey).flatMap
    (publicSurfaceCompletenessDiagnostics compiler project project.sources)

/-- Lowering the sources that pass a test finds an error. -/
def loweringFails (lowers : String → Bool) : Bool :=
  hasErrors ((project.sources.filter fun tree => lowers tree.logicalModule).flatMap fun tree =>
    (lowerWithOptions compiler project tree).diagnostics)

/-- The surfaces are looked at when the whole project is lowered. -/
def reportedSurface (moduleKey : String) : List Diagnostic :=
  if loweringFails compiler project fun _ => true then []
  else surfaceOf compiler project moduleKey

/-- What a run with an empty cache directory reports of a module. -/
def moduleDiagnosticsOf (moduleKey : String) : List Diagnostic :=
  checkOf compiler project moduleKey ++ loweringOf compiler project moduleKey
    ++ reportedSurface compiler project moduleKey

/-! ## Keys -/

theorem mem_currentProjectModuleKeys :
    moduleKey ∈ currentProjectModuleKeys project ↔ project.HasModule moduleKey := by
  unfold currentProjectModuleKeys
  rw [ExtTreeSet.mem_ofList, List.contains_iff_mem]
  rfl

theorem mem_currentModuleKeys : moduleKey ∈ currentModuleKeys compiler project
      ↔ ∃ node, lastNode (graphOf compiler project) moduleKey = some node := by
  rw [exists_lastNode, currentModuleKeys, ExtTreeSet.mem_ofList, List.contains_iff_mem]

/-- Every module of the project is a module of the graph. -/
theorem mem_currentModuleKeys_of_hasModule (h : project.HasModule moduleKey) :
    moduleKey ∈ currentModuleKeys compiler project := by
  rw [mem_currentModuleKeys, exists_lastNode]
  apply mem_keys_build
  rw [List.map_map]
  have hkeys : (fun bound : BoundModule => bound.node.moduleKey)
      ∘ (frontendOf compiler project).bind = Source.logicalModule := by
    funext source
    exact (frontendOf compiler project).bind_moduleKey source
  rw [hkeys]
  exact project.mem_modules_allSyntaxTrees h

/-- The diagnostics of the last run are used if they are of the snapshot and have the options of
this run. -/
theorem reusableAnalysisCache_eq_some {incremental : IncrementalState} {cache : AnalysisCache} :
    reusableAnalysisCache project files incremental = some cache
      ↔ files.snapshot = some cache.incremental ∧ files.analysisCache = some cache
        ∧ cache.metadata = analysisCacheMetadata project.config incremental.metadata := by
  unfold reusableAnalysisCache
  rcases files.snapshot with _ | previous
  · simp
  · rcases files.analysisCache with _ | cached
    · simp
    · dsimp only
      constructor
      · intro h
        split at h
        · rename_i hkey
          rw [← Option.some.inj h]
          exact ⟨congrArg some hkey.1.symm, rfl, hkey.2⟩
        · cases h
      · rintro ⟨hsnapshot, hcached, hmetadata⟩
        rw [Option.some.inj hcached, if_pos ⟨(Option.some.inj hsnapshot).symm, hmetadata⟩]

theorem currentProjectSyntaxByModule_getElem? (moduleKey : String) :
    (currentProjectSyntaxByModule project)[moduleKey]? = lastSource project.sources moduleKey := by
  unfold currentProjectSyntaxByModule lastSource
  rw [getElem?_foldl_insert, ExtTreeMap.getElem?_empty, Option.or_none]

theorem checkModules_getElem? (moduleKeys : ModuleSet) (moduleKey : String) :
    (checkModules compiler project moduleKeys)[moduleKey]?
      = if moduleKey ∈ moduleKeys then
          (lastNode (graphOf compiler project) moduleKey).map
            (compiler.nodeDiagnostics project.config.checkerOptions project.config.parseOptions
              project.allSyntaxTrees)
        else none := by
  unfold checkModules
  rw [getElem?_foldl_insert, ExtTreeMap.getElem?_empty, Option.or_none,
    lastEntry_map_filter ModuleNode.moduleKey _ (fun moduleKey => moduleKeys.contains moduleKey)]
  simp only [ExtTreeSet.contains_iff_mem]
  apply if_congr Iff.rfl _ rfl
  unfold lastNode
  rw [← lastEntry_map, List.map_map]
  rfl

/-! ## Checking -/

theorem recheckedModules_subset {analyzed : AnalyzedPipelineState}
    (h : moduleKey ∈ recheckedModules compiler project files analyzed) :
    moduleKey ∈ currentModuleKeys compiler project := by
  unfold recheckedModules at h
  split at h
  · rw [mem_filter_keys, ExtTreeSet.contains_iff_mem] at h
    exact h.2
  · exact h

/-- What is known of a module after checking: what the checker says if it was asked, and else
what the cache has. -/
theorem entriesOf_checkedDiagnostics (files : CacheFiles) (analyzed : AnalyzedPipelineState)
    (moduleKey : String) :
    entriesOf (checkedDiagnostics compiler project files analyzed) moduleKey
      = if project.HasModule moduleKey then
          if moduleKey ∈ recheckedModules compiler project files analyzed then
            checkOf compiler project moduleKey
          else entriesOf (((reusableAnalysisCache project files analyzed.incremental).map
            AnalysisCache.moduleDiagnostics).getD ∅) moduleKey
        else [] := by
  unfold checkedDiagnostics
  dsimp only
  rw [entriesOf, getElem?_foldl_insert, lastEntry_filterMap_toList _ fun moduleKey diagnostics =>
    (currentProjectSyntaxByModule project)[moduleKey]?.map fun tree =>
      applyTypeIgnoresForModule compiler tree diagnostics]
  rw [checkModules_getElem?, currentProjectSyntaxByModule_getElem?]
  by_cases hmodule : project.HasModule moduleKey
  · rw [if_pos hmodule]
    rcases exists_lastSource hmodule with ⟨tree, htree⟩
    split
    · rename_i hmem
      rcases (mem_currentModuleKeys compiler project).1 (recheckedModules_subset compiler project
        hmem) with ⟨node, hnode⟩
      have hcheck : checkOf compiler project moduleKey
          = applyTypeIgnoresForModule compiler tree (compiler.nodeDiagnostics
            project.config.checkerOptions project.config.parseOptions project.allSyntaxTrees
              node) := by
        unfold checkOf moduleCheck
        rw [htree]
        dsimp only
        rw [show (compiler.frontend project.config.parseOptions).graph project.allSyntaxTrees
          = graphOf compiler project from rfl, hnode]
      rw [hnode, htree, hcheck]
      rfl
    · rw [Option.bind_none, Option.none_or, ← entriesOf, entriesOf_filter]
      rw [if_pos]
      rw [ExtTreeSet.contains_iff_mem]
      exact (mem_currentProjectModuleKeys project).2 hmodule
  · rw [if_neg hmodule]
    have hnone : lastSource project.sources moduleKey = none := by
      apply lastEntry_eq_none
      intro tree htree
      rcases List.mem_map.1 htree with ⟨tree', hmem, heq⟩
      rw [Prod.mk.injEq] at heq
      exact hmodule (List.mem_map.2 ⟨tree', hmem, heq.1⟩)
    rw [hnone]
    have hbind : ∀ found : Option (List Diagnostic), (found.bind fun diagnostics =>
        (none : Option Source).map fun tree =>
          applyTypeIgnoresForModule compiler tree diagnostics) = none := by
      intro found
      rcases found with _ | diagnostics <;> rfl
    rw [hbind, Option.none_or, ← entriesOf, entriesOf_filter, if_neg]
    rw [ExtTreeSet.contains_iff_mem, mem_currentProjectModuleKeys]
    exact hmodule

/-! ## Lowering -/

/-- A file is the last source of one module at most. -/
theorem moduleByPath_getElem? {tree : Source} (htree : tree ∈ project.sources) :
    (((currentProjectSyntaxByModule project).toList.map fun (moduleKey, tree) =>
        (tree.path, moduleKey)).foldl (fun byPath entry => byPath.insert entry.1 entry.2)
        (∅ : ExtTreeMap String String))[tree.path]? = some moduleKey
      ↔ lastSource project.sources moduleKey = some tree := by
  have hentry : ∀ moduleKey, (tree.path, moduleKey) ∈
      ((currentProjectSyntaxByModule project).toList.map fun (moduleKey, tree) =>
        (tree.path, moduleKey))
      ↔ lastSource project.sources moduleKey = some tree := by
    intro moduleKey
    rw [← currentProjectSyntaxByModule_getElem?, ← ExtTreeMap.mem_toList_iff_getElem?_eq_some]
    constructor
    · intro h
      rcases List.mem_map.1 h with ⟨⟨moduleKey', tree'⟩, hmem, heq⟩
      rw [Prod.mk.injEq] at heq
      have hlast := hmem
      rw [ExtTreeMap.mem_toList_iff_getElem?_eq_some,
        currentProjectSyntaxByModule_getElem?] at hlast
      have hsame : tree' = tree := List.inj_on_of_nodup_map project.paths_nodup
        (mem_of_lastSource hlast).1 htree heq.1
      rw [← hsame, ← heq.2]
      exact hmem
    · intro h
      exact List.mem_map.2 ⟨(moduleKey, tree), h, rfl⟩
  rw [getElem?_foldl_insert, ExtTreeMap.getElem?_empty, Option.or_none]
  constructor
  · intro h
    exact (hentry moduleKey).1 (mem_of_lastEntry h)
  · intro h
    apply lastEntry_of_forall ((hentry moduleKey).2 h)
    intro moduleKey' h'
    rw [← (mem_of_lastSource ((hentry moduleKey').1 h')).2, (mem_of_lastSource h).2]

/-- The results of lowering that are of a module. -/
theorem mem_loweringEntries {lowers : String → Bool} {diagnostics : List Diagnostic} :
    (moduleKey, diagnostics) ∈ (loweringResults compiler project lowers).filterMap (fun result =>
          (((currentProjectSyntaxByModule project).toList.map fun (moduleKey, tree) =>
            (tree.path, moduleKey)).foldl (fun byPath entry => byPath.insert entry.1 entry.2)
              (∅ : ExtTreeMap String String))[result.sourcePath]?.map fun moduleKey =>
                (moduleKey, result.diagnostics))
      ↔ lowers moduleKey ∧ ∃ tree, lastSource project.sources moduleKey = some tree
          ∧ (lowerWithOptions compiler project tree).diagnostics = diagnostics := by
  unfold loweringResults
  simp only [List.filterMap_map, List.mem_filterMap, Function.comp_apply, Option.map_eq_some_iff,
    Prod.mk.injEq]
  constructor
  · rintro ⟨tree, htree, moduleKey', hfound, rfl, hdiagnostics⟩
    rw [loweredSyntaxTrees, List.mem_filter] at htree
    have hlast := (moduleByPath_getElem? project htree.1).1 hfound
    rw [(mem_of_lastSource hlast).2] at htree
    exact ⟨htree.2, tree, hlast, hdiagnostics⟩
  · rintro ⟨hlowers, tree, hlast, hdiagnostics⟩
    rcases mem_of_lastSource hlast with ⟨hmem, hkey⟩
    refine ⟨tree, ?_, moduleKey, (moduleByPath_getElem? project hmem).2 hlast, rfl, hdiagnostics⟩
    rw [loweredSyntaxTrees, List.mem_filter, hkey]
    exact ⟨hmem, hlowers⟩

/-- Lowering reports on the modules that are lowered. -/
theorem entriesOf_loweringDiagnosticsByModule (lowers : String → Bool) (moduleKey : String) :
    entriesOf (loweringDiagnosticsByModule project (loweringResults compiler project lowers))
        moduleKey
      = if lowers moduleKey then loweringOf compiler project moduleKey else [] := by
  unfold loweringDiagnosticsByModule
  dsimp only
  rw [entriesOf, getElem?_foldl_insert, ExtTreeMap.getElem?_empty, Option.or_none]
  rcases hlast : lastSource project.sources moduleKey with _ | tree
  · rw [lastEntry_eq_none]
    · unfold loweringOf
      rw [hlast]
      split <;> rfl
    · intro diagnostics hentry
      rcases (mem_loweringEntries compiler project).1 hentry with ⟨-, tree, htree, -⟩
      rw [hlast] at htree
      cases htree
  · have hlowering : loweringOf compiler project moduleKey
        = (lowerWithOptions compiler project tree).diagnostics := by
      unfold loweringOf
      rw [hlast]
    by_cases hlowers : lowers moduleKey
    · rw [if_pos hlowers, hlowering, lastEntry_of_forall ((mem_loweringEntries compiler project).2
        ⟨hlowers, tree, hlast, rfl⟩)]
      · rfl
      · intro diagnostics hentry
        rcases (mem_loweringEntries compiler project).1 hentry with ⟨-, tree', htree', heq⟩
        rw [hlast] at htree'
        rw [← heq, ← Option.some.inj htree']
    · rw [if_neg hlowers, lastEntry_eq_none]
      · rfl
      · intro diagnostics hentry
        exact hlowers ((mem_loweringEntries compiler project).1 hentry).1

/-! ## Public surfaces -/

/-- The sources that are lowered with a source are those of its module. -/
theorem publicSurfaceCompletenessDiagnostics_loweredSyntaxTrees {lowers : String → Bool} {tree : Source}
    (h : lowers tree.logicalModule) :
    publicSurfaceCompletenessDiagnostics compiler project (loweredSyntaxTrees project lowers) tree
      = publicSurfaceCompletenessDiagnostics compiler project project.sources tree := by
  unfold publicSurfaceCompletenessDiagnostics loweredSyntaxTrees
  rw [List.filter_filter]
  have hsame : (project.sources.filter fun other =>
        decide (other.logicalModule = tree.logicalModule) && lowers other.logicalModule)
      = project.sources.filter fun other => other.logicalModule = tree.logicalModule := by
    apply List.filter_congr
    intro other _
    by_cases hkey : other.logicalModule = tree.logicalModule
    · simp [hkey, h]
    · simp [hkey]
  rw [hsame]

/-- The surfaces of the modules that are lowered are reported once. -/
theorem flatten_surfaceEntries (lowers : String → Bool) (moduleKey : String) :
    ((((loweredSyntaxTrees project lowers).map fun tree => (tree.logicalModule,
        publicSurfaceCompletenessDiagnostics compiler project (loweredSyntaxTrees project lowers)
          tree)).filter fun entry => entry.1 = moduleKey).map Prod.snd).flatten
      = if lowers moduleKey then surfaceOf compiler project moduleKey else [] := by
  rw [List.filter_map, List.map_map, ← List.flatMap_def]
  have hfilter : (loweredSyntaxTrees project lowers).filter ((fun entry : String × List Diagnostic =>
        decide (entry.1 = moduleKey)) ∘ fun tree => (tree.logicalModule,
          publicSurfaceCompletenessDiagnostics compiler project (loweredSyntaxTrees project lowers) tree))
      = if lowers moduleKey then
          project.sources.filter fun tree => tree.logicalModule = moduleKey
        else [] := by
    rw [loweredSyntaxTrees, List.filter_filter]
    split
    · rename_i hlowers
      apply List.filter_congr
      intro tree _
      by_cases hkey : tree.logicalModule = moduleKey
      · simp [hkey, hlowers]
      · simp [hkey]
    · rename_i hlowers
      rw [List.filter_eq_nil_iff]
      intro tree _
      by_cases hkey : tree.logicalModule = moduleKey
      · simp [hkey, hlowers]
      · simp [hkey]
  rw [hfilter]
  split
  · rename_i hlowers
    unfold surfaceOf
    apply List.flatMap_congr
    intro tree htree
    rw [List.mem_filter, decide_eq_true_iff] at htree
    apply publicSurfaceCompletenessDiagnostics_loweredSyntaxTrees
    rw [htree.2]
    exact hlowers
  · rfl

/-! ## The run -/

/-- What lowering some modules reports of a module. -/
theorem entriesOf_runLowering (analyzed : AnalyzedPipelineState) (lowers : String → Bool)
    (moduleDiagnostics : ModuleDiagnostics) (moduleKey : String) :
    entriesOf (runLowering compiler project analyzed lowers moduleDiagnostics).moduleDiagnostics
        moduleKey
      = entriesOf moduleDiagnostics moduleKey
        ++ if lowers moduleKey then
            loweringOf compiler project moduleKey
              ++ if loweringFails compiler project lowers then []
                else surfaceOf compiler project moduleKey
          else [] := by
  have hfails : hasErrors ((loweringResults compiler project lowers).flatMap
        LoweringResult.diagnostics)
      = loweringFails compiler project lowers := by
    unfold loweringResults loweringFails
    rw [List.flatMap_map]
    rfl
  have hlowered : entriesOf (addLoweringDiagnostics compiler project lowers moduleDiagnostics)
        moduleKey
      = entriesOf moduleDiagnostics moduleKey
        ++ if lowers moduleKey then loweringOf compiler project moduleKey else [] := by
    unfold addLoweringDiagnostics
    rw [entriesOf_foldl_extendEntry_toList, entriesOf_loweringDiagnosticsByModule]
  have hsurfaced : ∀ moduleDiagnostics, entriesOf (addSurfaceDiagnostics compiler project lowers
        moduleDiagnostics) moduleKey
      = entriesOf moduleDiagnostics moduleKey
        ++ if lowers moduleKey then surfaceOf compiler project moduleKey else [] := by
    intro moduleDiagnostics
    unfold addSurfaceDiagnostics
    rw [entriesOf_foldl_extendEntry, flatten_surfaceEntries]
  unfold runLowering
  dsimp only
  rw [hfails]
  split
  · rw [blockedPipelineSnapshotWithIncremental_moduleDiagnostics, hlowered]
    split
    · rw [List.append_nil]
    · rfl
  · rw [reusableCachedPipelineSnapshot_moduleDiagnostics, hsurfaced, hlowered]
    split
    · rw [List.append_assoc]
    · rw [List.append_nil, List.append_nil]

theorem runPhases_incremental (files : CacheFiles) (outputsVerified : Bool) :
    (runPhases compiler project files outputsVerified).incremental
      = incrementalStateOf compiler project files.snapshot := by
  unfold runPhases runLowering
  dsimp only
  split
  · rfl
  · split <;> rfl

/-- What a run reports of a module: what is known after checking, and what lowering adds. -/
theorem entriesOf_runPhases {analyzed : AnalyzedPipelineState}
    (hanalyzed : analyzePipelineState compiler project files.snapshot = analyzed)
    (outputsVerified : Bool) (moduleKey : String) :
    entriesOf (runPhases compiler project files outputsVerified).moduleDiagnostics moduleKey
      = entriesOf (checkedDiagnostics compiler project files analyzed) moduleKey
        ++ if returnsEarly compiler project files analyzed outputsVerified then []
          else if lowersModule compiler project files analyzed outputsVerified moduleKey then
            loweringOf compiler project moduleKey
              ++ if loweringFails compiler project
                    (lowersModule compiler project files analyzed outputsVerified) then []
                else surfaceOf compiler project moduleKey
          else [] := by
  unfold runPhases
  dsimp only
  rw [hanalyzed]
  by_cases hearly : returnsEarly compiler project files analyzed outputsVerified
  · rw [if_pos hearly, if_pos hearly, List.append_nil,
      reusableCachedPipelineSnapshot_moduleDiagnostics]
  · rw [if_neg hearly, if_neg hearly]
    exact entriesOf_runLowering compiler project _ _ _ moduleKey

end Phases

end TypePython.Pipeline
