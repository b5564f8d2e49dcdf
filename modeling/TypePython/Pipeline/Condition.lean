import TypePython.Lib.Runs
import TypePython.Pipeline.Diagnostics

/-!
# What the cache has to be right about

`Transparent.Condition` is what a run has to find in the cache directory for its diagnostics to be
those of a run with an empty one: what it keeps is still true, and what it looks at again it
reports once and in full. What it keeps of a module is then what the phases say of it
(`Keeps.cached`).
-/

namespace TypePython.Pipeline

open Std
open TypePython.Lib
open TypePython.Binding
open TypePython.Incremental
open TypePython.Summaries

/-- The checker says the same of a module whenever the module has the same sources and everything
it reaches through imports has the same public summary. -/
def Compiler.ChecksLocally (compiler : Compiler) : Prop :=
  ∀ (options : CheckerOptions) (parseOptions : ParseOptions) (sources sources' : List Source)
    (moduleKey : String),
    (sources.filter fun tree => tree.logicalModule = moduleKey)
        = (sources'.filter fun tree => tree.logicalModule = moduleKey) →
    (∀ reached, ReachesModule ((compiler.frontend parseOptions).graph sources) moduleKey reached
        ∨ ReachesModule ((compiler.frontend parseOptions).graph sources') moduleKey reached →
      (semanticIncrementalStateWithBindingMetadata (compiler.frontend parseOptions)
          options.toCheckerOptions none {} sources).fingerprints[reached]?
        = (semanticIncrementalStateWithBindingMetadata (compiler.frontend parseOptions)
          options.toCheckerOptions none {} sources').fingerprints[reached]?) →
    moduleCheck compiler options parseOptions sources moduleKey
      = moduleCheck compiler options parseOptions sources' moduleKey

/-- The cache directory between two runs, and the project whose diagnostics it has. -/
structure System where
  files : CacheFiles := {}
  analyzed : Option Project := none

def System.next (compiler : Compiler) (s : System) (event : Event) : System where
  files := event.next compiler s.files
  analyzed :=
    if (event.run compiler s.files).incremental.fingerprints.isEmpty then s.analyzed
    else some event.project

section Condition

variable (compiler : Compiler) (s : System) (event : Event)

/-- The state of the project, read without the snapshot, and what changed since. -/
def fullAnalysis : AnalyzedPipelineState :=
  changesSince compiler event.project s.files.snapshot (fullState compiler event.project)

/-- The cached diagnostics of a module of the project are kept. -/
def Keeps (previous : Project) (moduleKey : String) : Prop :=
  s.analyzed = some previous ∧ event.project.HasModule moduleKey
    ∧ moduleKey ∉ recheckedModules compiler event.project s.files (fullAnalysis compiler s event)

/-- The outputs of the last build are good. -/
def ReusesOutputs : Prop :=
  returnsEarly compiler event.project s.files (fullAnalysis compiler s event)
    event.outputsVerified

instance : Decidable (ReusesOutputs compiler s event) := inferInstanceAs (Decidable (_ = true))

/-- A module is lowered, unless the outputs are reused. -/
def Lowers (moduleKey : String) : Bool :=
  lowersModule compiler event.project s.files (fullAnalysis compiler s event)
    event.outputsVerified moduleKey

/-- What a run has to find for its diagnostics to be those of a run with an empty cache. -/
structure Transparent.Condition : Prop where
  /-- A module that is hashed as in the snapshot has the summary that the snapshot has. -/
  summaries : ∀ previous, s.files.snapshot = some previous →
    ReusesSummaries compiler event.project previous →
    ∀ node ∈ (graphOf compiler event.project).nodes,
      previous.sourceHashes[node.moduleKey]?
          = (syntaxTreeSourceHashes event.project.allSyntaxTrees)[node.moduleKey]? →
      ∀ summary, lastEntry (previous.summaries.map fun summary => (summary.module, summary))
          node.moduleKey = some summary →
        summary = semanticPublicSummary ((frontendOf compiler event.project).context
          event.project.config.checkerOptions.toCheckerOptions event.project.allSyntaxTrees) node
  /-- Diagnostics are kept under the options that are not part of their key. -/
  options : ∀ previous moduleKey, Keeps compiler s event previous moduleKey →
    previous.config.conditionalReturns = event.project.config.conditionalReturns
      ∧ previous.config.shapeTransforms = event.project.config.shapeTransforms
  /-- Diagnostics are kept for the sources they were of, in the project and where it is checked. -/
  sources : ∀ previous moduleKey, Keeps compiler s event previous moduleKey →
    (previous.sources.filter fun tree => tree.logicalModule = moduleKey)
        = (event.project.sources.filter fun tree => tree.logicalModule = moduleKey)
      ∧ (previous.allSyntaxTrees.filter fun tree => tree.logicalModule = moduleKey)
        = event.project.allSyntaxTrees.filter fun tree => tree.logicalModule = moduleKey
  /-- A module that is neither checked nor lowered again has the surface it had. -/
  surfaces : ∀ previous moduleKey, Keeps compiler s event previous moduleKey →
    ReusesOutputs compiler s event ∨ ¬Lowers compiler s event moduleKey →
    (reportedSurface compiler previous moduleKey).Perm
      (reportedSurface compiler event.project moduleKey)
  /-- A module that is lowered again, but not checked, has nothing to report a second time. -/
  once : ∀ previous moduleKey, Keeps compiler s event previous moduleKey →
    ¬ReusesOutputs compiler s event → Lowers compiler s event moduleKey →
    loweringOf compiler event.project moduleKey = []
      ∧ reportedSurface compiler previous moduleKey = []
  /-- When the outputs are reused, a module that is checked again has nothing more to report. -/
  complete : ReusesOutputs compiler s event → ∀ moduleKey, event.project.HasModule moduleKey →
    moduleKey ∈ recheckedModules compiler event.project s.files (fullAnalysis compiler s event) →
    loweringOf compiler event.project moduleKey = []
      ∧ reportedSurface compiler event.project moduleKey = []
  /-- If lowering the project finds an error, then so does lowering the modules that are lowered,
  or their surfaces are complete. -/
  blocked : ¬ReusesOutputs compiler s event →
    loweringFails compiler event.project (fun _ => true) →
    loweringFails compiler event.project (Lowers compiler s event)
      ∨ ∀ moduleKey, Lowers compiler s event moduleKey →
          surfaceOf compiler event.project moduleKey = []

/-- The project is found and parsed without errors, so its modules are looked at. -/
def ReachesPhases : Prop :=
  hasErrors event.project.discoveryDiagnostics = false
    ∧ hasErrors (collectParseDiagnostics compiler event.project) = false

/-- A run that looks at the modules meets the condition. -/
def MeetsCondition : Prop :=
  ReachesPhases compiler event → Transparent.Condition compiler s event

/-- The run reports of every module what a run with an empty cache directory reports. -/
def AgreesWithEmptyCache : Prop :=
  ∀ moduleKey, (entriesOf (event.run compiler s.files).moduleDiagnostics moduleKey).Perm
    (entriesOf (event.run compiler {}).moduleDiagnostics moduleKey)

end Condition

/-! ## The state of the project -/

section State

variable {compiler : Compiler} {s : System} {event : Event}

/-- The reused summaries are the ones the project has. -/
theorem incrementalStateOf_eq_fullState (h : Transparent.Condition compiler s event) :
    incrementalStateOf compiler event.project s.files.snapshot
      = fullState compiler event.project := by
  rcases hsnapshot : s.files.snapshot with _ | previous
  · rfl
  · unfold incrementalStateOf
    dsimp only
    split
    · rename_i hreuses
      rw [reusedSummaries_eq_of_forall]
      · rfl
      · intro node hnode hsame
        rw [mem_sourceChangeModules, not_not] at hsame
        exact h.summaries previous hsnapshot hreuses node hnode hsame
    · rfl

theorem analyzePipelineState_eq_fullAnalysis (h : Transparent.Condition compiler s event) :
    analyzePipelineState compiler event.project s.files.snapshot
      = fullAnalysis compiler s event := by
  unfold analyzePipelineState fullAnalysis
  rw [incrementalStateOf_eq_fullState h]

end State

/-! ## What is kept -/

section Kept

variable {compiler : Compiler}

/-- The cached diagnostics are those of the project they are of. -/
def CacheInvariant (compiler : Compiler) (s : System) : Prop :=
  ∀ cache, s.files.analysisCache = some cache → ∃ previous, s.analyzed = some previous
    ∧ cache.incremental = fullState compiler previous
    ∧ cache.metadata
      = analysisCacheMetadata previous.config (snapshotMetadataOf compiler previous)
    ∧ ∀ moduleKey, (entriesOf cache.moduleDiagnostics moduleKey).Perm
        (moduleDiagnosticsOf compiler previous moduleKey)

/-- The key of the cached diagnostics has all options of the checker. -/
theorem checkerOptions_eq_of_metadata {config config' : Config}
    {snapshot snapshot' : SnapshotMetadata}
    (h : analysisCacheMetadata config snapshot = analysisCacheMetadata config' snapshot') :
    config.checkerOptions = config'.checkerOptions := by
  simp only [analysisCacheMetadata, AnalysisCacheMetadata.mk.injEq] at h
  rcases h with ⟨-, hoverrides, hsealed, hdeprecated, hstrict, hnulls, hdynamic, hunsafe, himports,
    -, heffects, htaint, hwitnesses, hdual, hadapters⟩
  have hdeprecated' := DiagnosticLevel.debug_injective hdeprecated
  have himports' := ImportFallback.debug_injective himports
  simp only [Config.checkerOptions, *]

/-- With the options that are not part of the key, the sources are parsed the same way. -/
theorem parseOptions_eq_of_metadata {project project' : Project}
    (hsnapshot : snapshotMetadataOf compiler project = snapshotMetadataOf compiler project')
    (hreturns : project.config.conditionalReturns = project'.config.conditionalReturns) :
    project.config.parseOptions = project'.config.parseOptions := by
  simp only [snapshotMetadataOf, SnapshotMetadata.mk.injEq, Option.some.injEq] at hsnapshot
  simp only [Config.parseOptions, hreturns, hsnapshot]

/-- And lowered the same way. -/
theorem loweringOptions_eq_of_metadata {project project' : Project}
    (hsnapshot : snapshotMetadataOf compiler project = snapshotMetadataOf compiler project')
    (hshapes : project.config.shapeTransforms = project'.config.shapeTransforms) :
    project.config.loweringOptions = project'.config.loweringOptions := by
  simp only [snapshotMetadataOf, SnapshotMetadata.mk.injEq, Option.some.injEq] at hsnapshot
  rcases hsnapshot with ⟨-, htarget, -, hstyle, -, -, -, -, hdual, -⟩
  have hdual' : project.config.acceptsFeature experimentalSyncAsyncDualEmit
      = project'.config.acceptsFeature experimentalSyncAsyncDualEmit := hdual
  simp only [Config.loweringOptions, htarget, hstyle, hshapes, hdual']

theorem fullState_metadata (project : Project) :
    (fullState compiler project).metadata = snapshotMetadataOf compiler project := by
  unfold fullState semanticIncrementalStateWithBindingMetadata
  rw [withSourceHashes_metadata, snapshotWithSummaries_metadata]

/-- The fingerprints of a state are those of its summaries. -/
theorem fullState_fingerprints (project : Project) :
    (fullState compiler project).fingerprints
      = (semanticIncrementalStateWithBindingMetadata
          (compiler.frontend project.config.parseOptions)
          project.config.checkerOptions.toCheckerOptions none {}
          project.allSyntaxTrees).fingerprints := by
  unfold fullState semanticIncrementalStateWithBindingMetadata
  rw [withSourceHashes_fingerprints]
  exact snapshotWithSummaries_fingerprints _ _ _ _ _

theorem importEdge_fullState {project : Project} {importer imported : String} :
    (fullState compiler project).dependencyIndex.ImportEdge importer imported
      ↔ ImportsModule (graphOf compiler project) importer imported := by
  unfold fullState graphOf
  rw [dependencyIndex_withSourceHashes]
  exact importEdge_state

/-- The diagnostics of a module are kept only if the run has the diagnostics of a run with the
same options, and the planner does not pick the module. -/
theorem Keeps.reusable {s : System} {event : Event} {previous : Project} {moduleKey : String}
    (h : Keeps compiler s event previous moduleKey) :
    ∃ cache, reusableAnalysisCache event.project s.files (fullState compiler event.project)
          = some cache
      ∧ moduleKey ∉ rechecked cache.incremental (fullState compiler event.project)
          (graphOf compiler event.project) := by
  rcases h with ⟨-, hmodule, hnot⟩
  have hcurrent := mem_currentModuleKeys_of_hasModule compiler event.project hmodule
  unfold recheckedModules at hnot
  rcases hreusable : reusableAnalysisCache event.project s.files
    (fullAnalysis compiler s event).incremental with _ | cache
  · rw [hreusable, if_neg (by decide)] at hnot
    exact absurd hcurrent hnot
  · refine ⟨cache, hreusable, ?_⟩
    intro hplanned
    have hsnapshot := ((reusableAnalysisCache_eq_some event.project).1 hreusable).1
    rw [hreusable, if_pos (by rfl), mem_filter_keys, ExtTreeSet.contains_iff_mem] at hnot
    apply hnot
    refine ⟨?_, hcurrent⟩
    unfold fullAnalysis changesSince
    rw [hsnapshot]
    exact hplanned

/-- What is kept of a module is what checking and lowering it report now, and the surface that
was reported. -/
theorem Keeps.cached {s : System} {event : Event} {previous : Project} {moduleKey : String}
    (hlocal : compiler.ChecksLocally) (hinv : CacheInvariant compiler s)
    (hcondition : Transparent.Condition compiler s event)
    (h : Keeps compiler s event previous moduleKey) :
    (entriesOf (((reusableAnalysisCache event.project s.files
        (fullState compiler event.project)).map AnalysisCache.moduleDiagnostics).getD ∅)
          moduleKey).Perm
      (checkOf compiler event.project moduleKey ++ loweringOf compiler event.project moduleKey
        ++ reportedSurface compiler previous moduleKey) := by
  rcases h.reusable with ⟨cache, hreusable, hnot⟩
  rcases (reusableAnalysisCache_eq_some event.project).1 hreusable with ⟨-, hcache, hkey⟩
  rcases hinv cache hcache with ⟨previous', hanalyzed, hincremental, hmetadata, hperm⟩
  rw [h.1, Option.some.injEq] at hanalyzed
  subst hanalyzed
  rw [hmetadata, fullState_metadata] at hkey
  -- the options agree: those of the key, and those that are not part of it
  have hsnapshot : snapshotMetadataOf compiler previous
      = snapshotMetadataOf compiler event.project :=
    congrArg AnalysisCacheMetadata.snapshot hkey
  have hchecker := checkerOptions_eq_of_metadata hkey
  rcases hcondition.options previous moduleKey h with ⟨hreturns, hshapes⟩
  have hparse := parseOptions_eq_of_metadata hsnapshot hreturns
  have hlower := loweringOptions_eq_of_metadata hsnapshot hshapes
  rcases hcondition.sources previous moduleKey h with ⟨hsources, htrees⟩
  have hlast := lastSource_congr hsources
  have hlowering : loweringOf compiler previous moduleKey
      = loweringOf compiler event.project moduleKey := by
    unfold loweringOf lowerWithOptions
    rw [hlast, hlower, hparse]
  have hcheck : checkOf compiler previous moduleKey
      = checkOf compiler event.project moduleKey := by
    unfold checkOf
    rw [hlast, hchecker, hparse, hlocal _ _ previous.allSyntaxTrees event.project.allSyntaxTrees
      moduleKey htrees]
    -- the planner leaves the module out, so what it reaches is as it was
    intro reached hreached
    rw [hincremental] at hnot
    have hreached' : ReachesModule (graphOf compiler previous) moduleKey reached
        ∨ ReachesModule (graphOf compiler event.project) moduleKey reached := by
      unfold graphOf frontendOf
      rw [hparse]
      exact hreached
    have hsame := (unchanged_of_not_rechecked (fun _ _ => importEdge_fullState.2) hnot).2 reached
      hreached'
    rw [fullState_fingerprints, fullState_fingerprints, hchecker, hparse] at hsame
    exact hsame
  rw [hreusable, ← hcheck, ← hlowering]
  exact hperm moduleKey

end Kept

end TypePython.Pipeline
