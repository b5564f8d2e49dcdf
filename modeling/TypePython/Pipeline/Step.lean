import TypePython.Pipeline.Condition

/-!
# One run

A run that meets the condition agrees with the empty cache, and it leaves a cache that is right
(`step_agrees`). A run with an empty cache directory meets the condition.
-/

namespace TypePython.Pipeline

open Std
open TypePython.Lib
open TypePython.Binding
open TypePython.Incremental
open TypePython.Summaries

section Step

variable {compiler : Compiler} {s : System} {event : Event}

/-- A module of the project is checked again, or its cached diagnostics are kept. -/
theorem exists_keeps (hinv : CacheInvariant compiler s) {moduleKey : String}
    (hmodule : event.project.HasModule moduleKey)
    (hnot : moduleKey ∉ recheckedModules compiler event.project s.files
      (fullAnalysis compiler s event)) :
    ∃ previous, Keeps compiler s event previous moduleKey := by
  rcases hreusable : reusableAnalysisCache event.project s.files
    (fullAnalysis compiler s event).incremental with _ | cache
  · exfalso
    apply hnot
    unfold recheckedModules
    rw [hreusable, if_neg (by decide)]
    exact mem_currentModuleKeys_of_hasModule compiler event.project hmodule
  · rcases (reusableAnalysisCache_eq_some event.project).1 hreusable with ⟨-, hcache, -⟩
    rcases hinv cache hcache with ⟨previous, hanalyzed, -⟩
    exact ⟨previous, hanalyzed, hmodule, hnot⟩

/-- A module of the project that is checked again is lowered again. -/
theorem lowers_of_rechecked {moduleKey : String} (hmodule : event.project.HasModule moduleKey)
    (hmem : moduleKey ∈ recheckedModules compiler event.project s.files
      (fullAnalysis compiler s event)) :
    Lowers compiler s event moduleKey := by
  unfold Lowers lowersModule modulesToLower
  rw [ExtTreeSet.contains_iff_mem, ExtTreeSet.mem_union_iff, mem_filter_keys,
    ExtTreeSet.contains_iff_mem, mem_currentProjectModuleKeys]
  exact .inl ⟨hmem, hmodule⟩

/-- An error that lowering some modules finds is one that lowering the project finds. -/
theorem loweringFails_all {project : Project} {lowers : String → Bool}
    (h : loweringFails compiler project lowers) :
    loweringFails compiler project fun _ => true := by
  unfold loweringFails hasErrors at h ⊢
  rw [List.any_eq_true] at h ⊢
  rcases h with ⟨diagnostic, hdiagnostic, herror⟩
  rcases List.mem_flatMap.1 hdiagnostic with ⟨tree, htree, hmem⟩
  refine ⟨diagnostic, List.mem_flatMap.2 ⟨tree, ?_, hmem⟩, herror⟩
  exact List.mem_filter.2 ⟨(List.mem_filter.1 htree).1, rfl⟩

/-- The surface of a module that is lowered is reported as it is when the project is lowered. -/
theorem surface_of_lowers (hcondition : Transparent.Condition compiler s event)
    (hreuses : ¬ReusesOutputs compiler s event) {moduleKey : String}
    (hlowers : Lowers compiler s event moduleKey) :
    (if loweringFails compiler event.project (Lowers compiler s event) then []
      else surfaceOf compiler event.project moduleKey)
      = reportedSurface compiler event.project moduleKey := by
  unfold reportedSurface
  by_cases hfails : loweringFails compiler event.project (Lowers compiler s event)
  · rw [if_pos hfails, if_pos (loweringFails_all hfails)]
  · rw [if_neg hfails]
    split
    · rename_i hall
      rcases hcondition.blocked hreuses hall with hlowered | hcomplete
      · exact absurd hlowered hfails
      · exact hcomplete moduleKey hlowers
    · rfl

/-- Under the condition a run reports of the modules of the project what it has to. -/
theorem runPhases_perm_of_hasModule (hlocal : compiler.ChecksLocally) (hinv : CacheInvariant compiler s)
    (hcondition : Transparent.Condition compiler s event) {moduleKey : String}
    (hmodule : event.project.HasModule moduleKey) :
    (entriesOf (runPhases compiler event.project s.files event.outputsVerified).moduleDiagnostics
        moduleKey).Perm
      (moduleDiagnosticsOf compiler event.project moduleKey) := by
  rw [entriesOf_runPhases compiler event.project
      (analyzePipelineState_eq_fullAnalysis hcondition),
    entriesOf_checkedDiagnostics, if_pos hmodule]
  change (_ ++ (if ReusesOutputs compiler s event then [] else
    if Lowers compiler s event moduleKey then loweringOf compiler event.project moduleKey
      ++ (if loweringFails compiler event.project (Lowers compiler s event) then []
        else surfaceOf compiler event.project moduleKey)
    else [])).Perm _
  unfold moduleDiagnosticsOf
  by_cases hmem : moduleKey ∈ recheckedModules compiler event.project s.files
    (fullAnalysis compiler s event)
  · rw [if_pos hmem]
    by_cases hreuses : ReusesOutputs compiler s event
    · -- nothing is lowered, so there must be nothing more to report
      rcases hcondition.complete hreuses moduleKey hmodule hmem with ⟨hlowering, hsurface⟩
      rw [if_pos hreuses, hlowering, hsurface, List.append_nil, List.append_nil]
    · have hlowers := lowers_of_rechecked hmodule hmem
      rw [if_neg hreuses, if_pos hlowers, surface_of_lowers hcondition hreuses hlowers,
        List.append_assoc]
  · rw [if_neg hmem]
    rcases exists_keeps hinv hmodule hmem with ⟨previous, hkeeps⟩
    have hcached := hkeeps.cached hlocal hinv hcondition
    by_cases hagain : ¬ReusesOutputs compiler s event ∧ Lowers compiler s event moduleKey
    · -- what is reported again was not reported before
      rcases hagain with ⟨hreuses, hlowers⟩
      rcases hcondition.once previous moduleKey hkeeps hreuses hlowers with ⟨hlowering, hsurface⟩
      rw [hlowering, hsurface, List.append_nil] at hcached
      rw [if_neg hreuses, if_pos hlowers, surface_of_lowers hcondition hreuses hlowers, hlowering,
        List.nil_append]
      exact hcached.append_right _
    · have hnone : (if ReusesOutputs compiler s event then [] else
          if Lowers compiler s event moduleKey then loweringOf compiler event.project moduleKey
            ++ (if loweringFails compiler event.project (Lowers compiler s event) then []
              else surfaceOf compiler event.project moduleKey)
          else []) = [] := by
        split
        · rfl
        · rename_i hreuses
          rw [if_neg fun hlowers => hagain ⟨hreuses, hlowers⟩]
      have hkept : ReusesOutputs compiler s event ∨ ¬Lowers compiler s event moduleKey := by
        by_contra hnot
        rw [not_or, not_not] at hnot
        exact hagain hnot
      rw [hnone, List.append_nil]
      exact hcached.trans ((hcondition.surfaces previous moduleKey hkeeps hkept).append_left _)

/-- The phases report nothing of other modules. -/
theorem phases_of_not_hasModule {project : Project} {moduleKey : String}
    (hmodule : ¬project.HasModule moduleKey) :
    checkOf compiler project moduleKey = [] ∧ loweringOf compiler project moduleKey = []
      ∧ surfaceOf compiler project moduleKey = [] := by
  have hnone : (project.sources.filter fun tree => tree.logicalModule = moduleKey) = [] := by
    rw [List.filter_eq_nil_iff]
    intro tree htree hkey
    exact hmodule (List.mem_map.2 ⟨tree, htree, of_decide_eq_true hkey⟩)
  have hlast : lastSource project.sources moduleKey = lastSource [] moduleKey :=
    lastSource_congr hnone
  unfold checkOf loweringOf surfaceOf
  rw [hlast, hnone]
  exact ⟨rfl, rfl, rfl⟩

/-- Under the condition a run reports what it has to. -/
theorem runPhases_perm (hlocal : compiler.ChecksLocally) (hinv : CacheInvariant compiler s)
    (hcondition : Transparent.Condition compiler s event) (moduleKey : String) :
    (entriesOf (runPhases compiler event.project s.files event.outputsVerified).moduleDiagnostics
        moduleKey).Perm
      (moduleDiagnosticsOf compiler event.project moduleKey) := by
  by_cases hmodule : event.project.HasModule moduleKey
  · exact runPhases_perm_of_hasModule hlocal hinv hcondition hmodule
  · rcases phases_of_not_hasModule hmodule with ⟨hcheck, hlowering, hsurface⟩
    rw [entriesOf_runPhases compiler event.project rfl, entriesOf_checkedDiagnostics,
      if_neg hmodule]
    unfold moduleDiagnosticsOf reportedSurface
    rw [hcheck, hlowering, hsurface]
    simp

/-- A run with an empty cache directory meets the condition. -/
theorem condition_empty : Transparent.Condition compiler {} event := by
  have hkeeps : ∀ previous moduleKey, ¬Keeps compiler {} event previous moduleKey := by
    intro previous moduleKey h
    cases h.1
  refine ⟨?_, ?_, ?_, ?_, ?_, ?_, ?_⟩
  · intro previous hsnapshot
    cases hsnapshot
  · intro previous moduleKey h
    exact absurd h (hkeeps previous moduleKey)
  · intro previous moduleKey h
    exact absurd h (hkeeps previous moduleKey)
  · intro previous moduleKey h
    exact absurd h (hkeeps previous moduleKey)
  · intro previous moduleKey h
    exact absurd h (hkeeps previous moduleKey)
  · intro hreuses
    cases hreuses
  · intro _ hfails
    left
    -- every module of the project is lowered
    have hlowers : ∀ tree ∈ event.project.sources,
        Lowers compiler {} event tree.logicalModule = true := by
      intro tree htree
      unfold Lowers lowersModule modulesToLower
      rw [ExtTreeSet.contains_iff_mem, ExtTreeSet.mem_union_iff]
      right
      exact (mem_currentProjectModuleKeys event.project).2 (List.mem_map.2 ⟨tree, htree, rfl⟩)
    unfold loweringFails at hfails ⊢
    rw [List.filter_eq_self.2 hlowers]
    rw [List.filter_eq_self.2 fun _ _ => rfl] at hfails
    exact hfails

/-- The cached diagnostics after a run are those it reports, unless it has no modules. -/
theorem next_analysisCache {files : CacheFiles} :
    (event.next compiler files).analysisCache
      = if (event.run compiler files).incremental.fingerprints.isEmpty then files.analysisCache
        else some
          { incremental := (event.run compiler files).incremental
            metadata := analysisCacheMetadata event.project.config
              (event.run compiler files).incremental.metadata
            moduleDiagnostics := (event.run compiler files).moduleDiagnostics } := by
  have hpersisted : (event.next compiler files).analysisCache
      = (persistPipelineAnalysisState event.project (event.run compiler files)
          files).analysisCache := by
    unfold Event.next
    dsimp only
    split
    · split <;> rfl
    · rfl
  rw [hpersisted]
  unfold persistPipelineAnalysisState
  split <;> rfl

/-- A run that is blocked before the phases has nothing to do with the cache. -/
theorem run_of_not_reachesPhases (h : ¬ReachesPhases compiler event) (files : CacheFiles) :
    (event.run compiler files).moduleDiagnostics = ∅
      ∧ (event.run compiler files).incremental.fingerprints.isEmpty := by
  unfold Event.run runPipeline
  split
  · exact ⟨rfl, rfl⟩
  · rename_i hdiscovery
    split
    · exact ⟨rfl, rfl⟩
    · rename_i hparse
      rw [Bool.not_eq_true] at hdiscovery hparse
      exact absurd ⟨hdiscovery, hparse⟩ h

theorem run_of_reachesPhases (h : ReachesPhases compiler event) (files : CacheFiles) :
    event.run compiler files = runPhases compiler event.project files event.outputsVerified := by
  unfold Event.run runPipeline
  rw [h.1, h.2]
  rfl

/-- One run: it agrees with the empty cache, and it leaves a cache that is right. -/
theorem step_agrees (hlocal : compiler.ChecksLocally) (hinv : CacheInvariant compiler s)
    (h : MeetsCondition compiler s event) :
    AgreesWithEmptyCache compiler s event ∧ CacheInvariant compiler (s.next compiler event) := by
  by_cases hreaches : ReachesPhases compiler event
  · have hcondition := h hreaches
    have hrun := run_of_reachesPhases hreaches s.files
    have hperm := runPhases_perm hlocal hinv hcondition
    constructor
    · intro moduleKey
      have hempty : CacheInvariant compiler {} := by
        intro cache hcache
        cases hcache
      rw [hrun, run_of_reachesPhases hreaches {}]
      exact (hperm moduleKey).trans
        (runPhases_perm hlocal hempty condition_empty moduleKey).symm
    · intro cache hcache
      unfold System.next at hcache ⊢
      dsimp only at hcache ⊢
      rw [next_analysisCache] at hcache
      split
      · rename_i hfingerprints
        rw [if_pos hfingerprints] at hcache
        exact hinv cache hcache
      · rename_i hfingerprints
        rw [if_neg hfingerprints, Option.some.injEq] at hcache
        have hincremental : (event.run compiler s.files).incremental
            = fullState compiler event.project := by
          rw [hrun, runPhases_incremental, incrementalStateOf_eq_fullState hcondition]
        refine ⟨event.project, rfl, ?_, ?_, ?_⟩
        · rw [← hcache]
          exact hincremental
        · rw [← hcache]
          dsimp only
          rw [hincremental, fullState_metadata]
        · intro moduleKey
          rw [← hcache, hrun]
          exact hperm moduleKey
  · constructor
    · intro moduleKey
      rw [(run_of_not_reachesPhases hreaches s.files).1,
        (run_of_not_reachesPhases hreaches {}).1]
    · have hfingerprints := (run_of_not_reachesPhases hreaches s.files).2
      intro cache hcache
      unfold System.next at hcache ⊢
      dsimp only at hcache ⊢
      rw [next_analysisCache, if_pos hfingerprints] at hcache
      rw [if_pos hfingerprints]
      exact hinv cache hcache

end Step

end TypePython.Pipeline
