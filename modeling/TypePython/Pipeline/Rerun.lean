import TypePython.Pipeline.Step

/-!
# A project that is checked twice

Without a build in between the second check of an unchanged project finds the state of the first,
so it checks nothing again. But it lowers every module again, and what lowering and the surfaces
report comes on top of what the cache has of them (`second_check_reports_again`).
-/

namespace TypePython.Pipeline

open Std
open TypePython.Lib
open TypePython.Binding
open TypePython.Incremental
open TypePython.Summaries

variable {moduleKey : String} {project : Project}

section Rerun

variable {compiler : Compiler} {event : Event}

theorem fullState_fingerprints_getElem? (compiler : Compiler) (project : Project) (moduleKey : String) :
    (fullState compiler project).fingerprints[moduleKey]?
      = (lastNode (graphOf compiler project) moduleKey).map (semanticPublicSummary
        ((frontendOf compiler project).context project.config.checkerOptions.toCheckerOptions
          project.allSyntaxTrees)) := by
  unfold fullState semanticIncrementalStateWithBindingMetadata
  rw [withSourceHashes_fingerprints]
  exact snapshotWithSummaries_fingerprints_getElem? _ _ _ _ moduleKey

/-- A project with a module has a fingerprint. -/
theorem fullState_fingerprints_isEmpty (hmodule : project.HasModule moduleKey) :
    (fullState compiler project).fingerprints.isEmpty = false := by
  rcases (mem_currentModuleKeys compiler project).1 (mem_currentModuleKeys_of_hasModule compiler
    project hmodule) with ⟨node, hnode⟩
  have hfound := fullState_fingerprints_getElem? compiler project moduleKey
  rw [hnode] at hfound
  rw [ExtTreeMap.isEmpty_eq_false_iff]
  apply ExtTreeMap.ne_empty_of_mem
  rw [ExtTreeMap.mem_iff_isSome_getElem?, hfound]
  rfl

/-- The summaries of a state are those of its nodes, if every module has one node. -/
theorem summaries_of_nodup
    (hkeys : ((graphOf compiler project).nodes.map ModuleNode.moduleKey).Nodup)
    {node : ModuleNode} (hnode : node ∈ (graphOf compiler project).nodes)
    {summary : SemanticPublicSummary}
    (hsummary : lastEntry ((fullState compiler project).summaries.map fun summary =>
      (summary.module, summary)) node.moduleKey = some summary) :
    summary = semanticPublicSummary ((frontendOf compiler project).context
      project.config.checkerOptions.toCheckerOptions project.allSyntaxTrees) node := by
  unfold fullState semanticIncrementalStateWithBindingMetadata at hsummary
  rw [withSourceHashes_summaries] at hsummary
  have hlast := lastEntry_summaries (graphOf compiler project) ((frontendOf compiler
    project).context project.config.checkerOptions.toCheckerOptions project.allSyntaxTrees)
    (stdlibSnapshotOf compiler project) (snapshotMetadataOf compiler project) node.moduleKey
  rw [lastNode_of_nodup hkeys hnode] at hlast
  exact Option.some.inj (hsummary.symm.trans hlast)

/-- What the first check of a project leaves. -/
def checkedFiles (compiler : Compiler) (event : Event) : CacheFiles where
  snapshot := some (fullState compiler event.project)
  analysisCache := some
    { incremental := fullState compiler event.project
      metadata := analysisCacheMetadata event.project.config
        (snapshotMetadataOf compiler event.project)
      moduleDiagnostics := (event.run compiler {}).moduleDiagnostics }
  buildManifest := none

theorem next_empty (hreaches : ReachesPhases compiler event) (hbuild : event.buildRoot = none)
    (hmodule : event.project.HasModule moduleKey) :
    event.next compiler {} = checkedFiles compiler event := by
  have hincremental : (event.run compiler {}).incremental = fullState compiler event.project := by
    rw [run_of_reachesPhases hreaches, runPhases_incremental]
    rfl
  unfold Event.next
  dsimp only
  rw [hbuild]
  unfold persistPipelineAnalysisState checkedFiles
  rw [hincremental, fullState_fingerprints_isEmpty hmodule, fullState_metadata]
  rfl

/-- The second check finds the state of the first. -/
theorem analyze_checkedFiles
    (hkeys : ((graphOf compiler event.project).nodes.map ModuleNode.moduleKey).Nodup) :
    analyzePipelineState compiler event.project (checkedFiles compiler event).snapshot
      = changesSince compiler event.project (some (fullState compiler event.project))
          (fullState compiler event.project) := by
  have hsame : incrementalStateOf compiler event.project (some (fullState compiler event.project))
      = fullState compiler event.project := by
    unfold incrementalStateOf
    dsimp only
    split
    · rw [reusedSummaries_eq_of_forall]
      · rfl
      · intro node hnode _ summary hsummary
        exact summaries_of_nodup hkeys hnode hsummary
    · rfl
  unfold analyzePipelineState checkedFiles
  rw [hsame]

/-- It has the options of the first, too. -/
theorem reusableAnalysisCache_checkedFiles :
    reusableAnalysisCache event.project (checkedFiles compiler event)
        (fullState compiler event.project)
      = (checkedFiles compiler event).analysisCache := by
  unfold checkedFiles
  rw [reusableAnalysisCache_eq_some]
  exact ⟨rfl, rfl, by rw [fullState_metadata]⟩

/-- So it checks nothing again. -/
theorem not_mem_recheckedModules_checkedFiles :
    moduleKey ∉ recheckedModules compiler event.project (checkedFiles compiler event)
      (changesSince compiler event.project (some (fullState compiler event.project))
        (fullState compiler event.project)) := by
  unfold recheckedModules
  rw [show (changesSince compiler event.project (some (fullState compiler event.project))
    (fullState compiler event.project)).incremental = fullState compiler event.project from rfl,
    reusableAnalysisCache_checkedFiles, if_pos (by rfl), mem_filter_keys]
  rintro ⟨hplanned, -⟩
  -- nothing changed between a state and itself
  have hchange : ∀ changed, changed ∉ snapshotDiffModules (fullState compiler event.project)
      (fullState compiler event.project) := by
    intro changed hmem
    exact mem_snapshotDiffModules.1 hmem rfl
  rcases mem_planAffectedModules.1 hplanned with hdirect | ⟨hsummary, -⟩ | ⟨changed, hsummary, -⟩
  · exact mem_sourceChangeModules.1 hdirect rfl
  · exact hchange _ hsummary
  · exact hchange changed hsummary

/-- Without a build the second check lowers every module of the project. -/
theorem lowersModule_checkedFiles {analyzed : AnalyzedPipelineState} {outputsVerified : Bool}
    (hmodule : event.project.HasModule moduleKey) :
    lowersModule compiler event.project (checkedFiles compiler event) analyzed outputsVerified
      moduleKey := by
  unfold lowersModule modulesToLower
  rw [ExtTreeSet.contains_iff_mem, ExtTreeSet.mem_union_iff]
  right
  exact (mem_currentProjectModuleKeys event.project).2 hmodule

theorem loweringFails_congr {lowers lowers' : String → Bool}
    (h : ∀ tree ∈ project.sources, lowers tree.logicalModule = lowers' tree.logicalModule) :
    loweringFails compiler project lowers = loweringFails compiler project lowers' := by
  unfold loweringFails
  rw [List.filter_congr h]

/-- The second check of an unchanged project that was not built reports lowering and the public
surfaces again. -/
theorem second_check_reports_again (hlocal : compiler.ChecksLocally)
    (hreaches : ReachesPhases compiler event)
    (hkeys : ((graphOf compiler event.project).nodes.map ModuleNode.moduleKey).Nodup)
    (hmodule : event.project.HasModule moduleKey) :
    (entriesOf (event.run compiler (checkedFiles compiler event)).moduleDiagnostics moduleKey).Perm
      (moduleDiagnosticsOf compiler event.project moduleKey
        ++ (loweringOf compiler event.project moduleKey
          ++ reportedSurface compiler event.project moduleKey)) := by
  have hinv : CacheInvariant compiler {} := by
    intro cache hcache
    cases hcache
  have hempty : Transparent.Condition compiler {} event := condition_empty
  have hfirst := runPhases_perm hlocal hinv hempty moduleKey
  have hlowers : lowersModule compiler event.project (checkedFiles compiler event)
      (changesSince compiler event.project (some (fullState compiler event.project))
        (fullState compiler event.project)) event.outputsVerified moduleKey :=
    lowersModule_checkedFiles hmodule
  have hfails : loweringFails compiler event.project (lowersModule compiler event.project
        (checkedFiles compiler event) (changesSince compiler event.project
          (some (fullState compiler event.project)) (fullState compiler event.project))
            event.outputsVerified)
      = loweringFails compiler event.project fun _ => true := by
    apply loweringFails_congr
    intro tree htree
    exact lowersModule_checkedFiles (List.mem_map.2 ⟨tree, htree, rfl⟩)
  have hearly : ¬returnsEarly compiler event.project (checkedFiles compiler event)
      (changesSince compiler event.project (some (fullState compiler event.project))
        (fullState compiler event.project)) event.outputsVerified := Bool.false_ne_true
  have hcached : (((reusableAnalysisCache event.project (checkedFiles compiler event)
      (changesSince compiler event.project (some (fullState compiler event.project))
        (fullState compiler event.project)).incremental).map AnalysisCache.moduleDiagnostics).getD ∅)
      = (event.run compiler {}).moduleDiagnostics := by
    rw [show (changesSince compiler event.project (some (fullState compiler event.project))
      (fullState compiler event.project)).incremental = fullState compiler event.project from rfl,
      reusableAnalysisCache_checkedFiles]
    rfl
  rw [run_of_reachesPhases hreaches, entriesOf_runPhases compiler event.project
    (analyze_checkedFiles hkeys), entriesOf_checkedDiagnostics, if_pos hmodule,
    if_neg not_mem_recheckedModules_checkedFiles, if_neg hearly, if_pos hlowers, hfails, hcached,
    run_of_reachesPhases hreaches]
  exact hfirst.append_right _

/-- The second check of an unchanged project meets the condition if lowering and the surfaces have
nothing to report. -/
theorem condition_checkedFiles
    (hkeys : ((graphOf compiler event.project).nodes.map ModuleNode.moduleKey).Nodup)
    (hlowering : ∀ moduleKey, loweringOf compiler event.project moduleKey = [])
    (hsurface : ∀ moduleKey, surfaceOf compiler event.project moduleKey = []) :
    Transparent.Condition compiler
      { files := checkedFiles compiler event, analyzed := some event.project } event := by
  have hreported : ∀ moduleKey, reportedSurface compiler event.project moduleKey = [] := by
    intro moduleKey
    unfold reportedSurface
    rw [hsurface]
    split <;> rfl
  have hprevious : ∀ {previous moduleKey}, Keeps compiler
      { files := checkedFiles compiler event, analyzed := some event.project } event previous
        moduleKey → previous = event.project := by
    intro previous moduleKey h
    exact (Option.some.inj h.1).symm
  refine ⟨?_, ?_, ?_, ?_, ?_, ?_, ?_⟩
  · intro previous hsnapshot _ node hnode _ summary hsummary
    rw [← Option.some.inj hsnapshot] at hsummary
    exact summaries_of_nodup hkeys hnode hsummary
  · intro previous moduleKey h
    rw [hprevious h]
    exact ⟨rfl, rfl⟩
  · intro previous moduleKey h
    rw [hprevious h]
    exact ⟨rfl, rfl⟩
  · intro previous moduleKey h _
    rw [hprevious h]
  · intro previous moduleKey h _ _
    rw [hprevious h]
    exact ⟨hlowering moduleKey, hreported moduleKey⟩
  · intro _ moduleKey _ _
    exact ⟨hlowering moduleKey, hreported moduleKey⟩
  · intro _ _
    exact .inr fun moduleKey _ => hsurface moduleKey

/-- The first check leaves its files, and is the one whose diagnostics they have. -/
theorem system_next_empty (hreaches : ReachesPhases compiler event)
    (hbuild : event.buildRoot = none) (hmodule : event.project.HasModule moduleKey) :
    System.next compiler {} event
      = { files := checkedFiles compiler event, analyzed := some event.project } := by
  have hincremental : (event.run compiler {}).incremental = fullState compiler event.project := by
    rw [run_of_reachesPhases hreaches, runPhases_incremental]
    rfl
  unfold System.next
  dsimp only
  rw [hincremental, fullState_fingerprints_isEmpty hmodule, next_empty hreaches hbuild hmodule]
  rfl

end Rerun

end TypePython.Pipeline
