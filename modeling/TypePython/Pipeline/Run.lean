import TypePython.Lib.ListTable
import TypePython.Pipeline.Project

/-!
# A run of the pipeline

`runPipeline` checks, lowers and plans a project. It reads three files of the cache directory
(`CacheFiles`), each with a key of its own: the snapshot of the last run, whose summaries are
reused; the diagnostics of the last run, which are kept for the modules that are not checked
again; and the manifest of the last build, which tells whether its outputs are still good.
-/

namespace TypePython.Pipeline

open Std
open TypePython.Lib
open TypePython.Binding
open TypePython.Incremental
open TypePython.Summaries

abbrev ModuleDiagnostics := ExtTreeMap String (List Diagnostic)

/-! ## The cache directory -/

/-- The options that the cached diagnostics are keyed by. -/
structure AnalysisCacheMetadata where
  snapshot : SnapshotMetadata
  requireExplicitOverrides : Bool
  enableSealedExhaustiveness : Bool
  reportDeprecated : String
  strict : Bool
  strictNulls : Bool
  noImplicitDynamic : Bool
  warnUnsafe : Bool
  imports : String
  requireKnownPublicTypes : Bool
  experimentalEffectRows : Bool
  experimentalTaint : Bool
  experimentalValidatorWitnesses : Bool
  experimentalSyncAsyncDualEmit : Bool
  experimentalFrameworkAdapters : Bool
deriving DecidableEq

structure AnalysisCache where
  incremental : IncrementalState
  metadata : AnalysisCacheMetadata
  moduleDiagnostics : ModuleDiagnostics

structure OutputAffectingConfigFingerprint where
  targetPython : String
  emitStyle : String
  emitPyi : Bool
  writePyTyped : Bool
  emitPyc : Bool
  runtimeValidators : Bool
  experimentalShapeTransforms : Bool
  experimentalSyncAsyncDualEmit : Bool
  experimentalFrameworkAdapters : Bool
deriving DecidableEq

structure MaterializedBuildManifest where
  outRoot : String
  incremental : IncrementalState
  emitPlan : List CachedEmitArtifact
  outputConfig : OutputAffectingConfigFingerprint

/-- `snapshot.json`, `analysis-cache.json` and `build-manifest.json`. -/
structure CacheFiles where
  snapshot : Option IncrementalState := none
  analysisCache : Option AnalysisCache := none
  buildManifest : Option MaterializedBuildManifest := none

def analysisCacheMetadata (config : Config) (snapshot : SnapshotMetadata) :
    AnalysisCacheMetadata where
  snapshot
  requireExplicitOverrides := config.requireExplicitOverrides
  enableSealedExhaustiveness := config.enableSealedExhaustiveness
  reportDeprecated := config.reportDeprecated.debug
  strict := config.strict
  strictNulls := config.strictNulls
  noImplicitDynamic := config.noImplicitDynamic
  warnUnsafe := config.warnUnsafe
  imports := config.imports.debug
  requireKnownPublicTypes := config.requireKnownPublicTypes
  experimentalEffectRows := config.acceptsFeature experimentalEffectRows
  experimentalTaint := config.acceptsFeature experimentalTaint
  experimentalValidatorWitnesses := config.acceptsFeature experimentalValidatorWitnesses
  experimentalSyncAsyncDualEmit := config.acceptsFeature experimentalSyncAsyncDualEmit
  experimentalFrameworkAdapters := config.acceptsFeature experimentalFrameworkAdapters

def outputAffectingConfigFingerprint (config : Config) : OutputAffectingConfigFingerprint where
  targetPython := config.targetPython
  emitStyle := config.emitStyle
  emitPyi := config.emitPyi
  writePyTyped := config.writePyTyped
  emitPyc := config.emitPyc
  runtimeValidators := config.runtimeValidators
  experimentalShapeTransforms := config.shapeTransforms
  experimentalSyncAsyncDualEmit := config.acceptsFeature experimentalSyncAsyncDualEmit
  experimentalFrameworkAdapters := config.acceptsFeature experimentalFrameworkAdapters

/-- The manifest, if it is about the output directory of the project. -/
def loadPreviousMaterializedBuildManifest (project : Project) (files : CacheFiles) :
    Option MaterializedBuildManifest :=
  files.buildManifest.filter fun manifest => project.outRoot = some manifest.outRoot

section Run

variable (compiler : Compiler) (project : Project)

/-! ## The state of a project -/

def frontendOf : Frontend := compiler.frontend project.config.parseOptions

def graphOf : ModuleGraph := (frontendOf compiler project).graph project.allSyntaxTrees

def stdlibSnapshotOf : Option String :=
  some (compiler.bundledStdlibSnapshotIdentity project.config.analysisPython)

def snapshotMetadataOf : SnapshotMetadata where
  compilerVersion := some compiler.version
  targetPython := some project.config.targetPython
  analysisPython := some project.config.analysisPython
  emitStyle := some project.config.emitStyle
  supportSnapshot := project.supportSnapshot
  experimentalEffectRows := project.config.checkerOptions.experimentalEffectRows
  experimentalTaint := project.config.checkerOptions.experimentalTaint
  experimentalValidatorWitnesses := project.config.checkerOptions.experimentalValidatorWitnesses
  experimentalSyncAsyncDualEmit := project.config.checkerOptions.experimentalSyncAsyncDualEmit
  experimentalFrameworkAdapters := project.config.checkerOptions.experimentalFrameworkAdapters

/-- The snapshot is of a run with this standard library and these options, so its summaries are
reused. -/
def ReusesSummaries (previous : IncrementalState) : Prop :=
  previous.stdlibSnapshot = stdlibSnapshotOf compiler project
    ∧ previous.metadata = snapshotMetadataOf compiler project

instance (previous : IncrementalState) : Decidable (ReusesSummaries compiler project previous) :=
  inferInstanceAs (Decidable (_ ∧ _))

/-- The state of a project, computed without a snapshot. -/
def fullState : IncrementalState :=
  (semanticIncrementalStateWithBindingMetadata (frontendOf compiler project)
    project.config.checkerOptions.toCheckerOptions (stdlibSnapshotOf compiler project)
    (snapshotMetadataOf compiler project) project.allSyntaxTrees).withSourceHashes
      (syntaxTreeSourceHashes project.allSyntaxTrees)

/-- The state of a project, with the summaries of the snapshot where they are reused. -/
def incrementalStateOf (previous : Option IncrementalState) : IncrementalState :=
  match previous with
  | some previous =>
    if ReusesSummaries compiler project previous then
      let currentSources :=
        ({ metadata := snapshotMetadataOf compiler project } : IncrementalState).withSourceHashes
          (syntaxTreeSourceHashes project.allSyntaxTrees)
      (semanticIncrementalStateWithReusedSummaries (frontendOf compiler project)
        project.config.checkerOptions.toCheckerOptions (stdlibSnapshotOf compiler project)
        (snapshotMetadataOf compiler project) project.allSyntaxTrees previous.summaries
        (sourceChangeModules previous currentSources)).withSourceHashes
          (syntaxTreeSourceHashes project.allSyntaxTrees)
    else fullState compiler project
  | none => fullState compiler project

structure AnalyzedPipelineState where
  incremental : IncrementalState
  directChanges : ModuleSet
  summaryChangedModules : ModuleSet
  emitPlan : List CachedEmitArtifact

def preLoweringEmitPlan : List CachedEmitArtifact :=
  compiler.planEmitsForSources project.config
    (project.sources.map fun tree => { sourcePath := tree.path, sourceKind := tree.kind })

/-- What changed between the snapshot and a state. -/
def changesSince (previous : Option IncrementalState) (incremental : IncrementalState) :
    AnalyzedPipelineState where
  incremental
  directChanges :=
    match previous with
    | some previous => sourceChangeModules previous incremental
    | none => ExtTreeSet.ofList (project.sources.map Source.logicalModule)
  summaryChangedModules :=
    match previous with
    | some previous => snapshotDiffModules previous incremental
    | none => ExtTreeSet.ofList incremental.fingerprints.keys
  emitPlan := preLoweringEmitPlan compiler project

def analyzePipelineState (previous : Option IncrementalState) : AnalyzedPipelineState :=
  changesSince compiler project previous (incrementalStateOf compiler project previous)

/-! ## Checking -/

def currentModuleKeys : ModuleSet :=
  ExtTreeSet.ofList ((graphOf compiler project).nodes.map ModuleNode.moduleKey)

def currentProjectModuleKeys : ModuleSet :=
  ExtTreeSet.ofList (project.sources.map Source.logicalModule)

/-- Of the sources of a module the last one. -/
def currentProjectSyntaxByModule : ExtTreeMap String Source :=
  (project.sources.map fun tree => (tree.logicalModule, tree)).foldl
    (fun byModule entry => byModule.insert entry.1 entry.2) ∅

/-- The diagnostics of the last run, if it had the options of this one. -/
def reusableAnalysisCache (files : CacheFiles) (incremental : IncrementalState) :
    Option AnalysisCache :=
  match files.snapshot, files.analysisCache with
  | some previous, some cache =>
    if cache.incremental = previous
        ∧ cache.metadata = analysisCacheMetadata project.config incremental.metadata then
      some cache
    else none
  | _, _ => none

def recheckedModules (files : CacheFiles) (analyzed : AnalyzedPipelineState) : ModuleSet :=
  if (reusableAnalysisCache project files analyzed.incremental).isSome then
    (planAffectedModules (files.snapshot.map IncrementalState.dependencyIndex)
      (dependencyIndex (graphOf compiler project)) analyzed.directChanges
      analyzed.summaryChangedModules).filter fun moduleKey =>
        (currentModuleKeys compiler project).contains moduleKey
  else currentModuleKeys compiler project

def checkModules (moduleKeys : ModuleSet) : ModuleDiagnostics :=
  (((graphOf compiler project).nodes.filter fun node =>
      moduleKeys.contains node.moduleKey).map fun node =>
        (node.moduleKey, compiler.nodeDiagnostics project.config.checkerOptions
          project.config.parseOptions project.allSyntaxTrees node)).foldl
    (fun byModule entry => byModule.insert entry.1 entry.2) ∅

def applyTypeIgnoreDirectives (syntaxTrees : List Source) (diagnostics : List Diagnostic) :
    List Diagnostic :=
  let directivesByPath : ExtTreeMap String (List TypeIgnoreDirective) :=
    (syntaxTrees.map fun tree => (tree.path, compiler.typeIgnoreDirectives tree)).foldl
      (fun byPath entry => byPath.insert entry.1 entry.2) ∅
  diagnostics.filter fun diagnostic =>
    match diagnostic.span with
    | none => true
    | some span =>
      match directivesByPath[span.path]? with
      | none => true
      | some directives => !directives.any fun directive =>
        directive.covers span diagnostic.code

def applyTypeIgnoresForModule (tree : Source) (diagnostics : List Diagnostic) : List Diagnostic :=
  applyTypeIgnoreDirectives compiler [tree] diagnostics

/-- The diagnostics after checking: those of the last run for the modules that are still there,
and new ones for the modules that are checked again. -/
def checkedDiagnostics (files : CacheFiles) (analyzed : AnalyzedPipelineState) :
    ModuleDiagnostics :=
  let cached := (((reusableAnalysisCache project files analyzed.incremental).map
    AnalysisCache.moduleDiagnostics).getD ∅).filter fun moduleKey _ =>
      (currentProjectModuleKeys project).contains moduleKey
  ((checkModules compiler project (recheckedModules compiler project files analyzed)).toList.filterMap
      fun (moduleKey, diagnostics) =>
        ((currentProjectSyntaxByModule project)[moduleKey]?.map fun tree =>
          applyTypeIgnoresForModule compiler tree diagnostics).map fun kept => (moduleKey, kept)).foldl
    (fun byModule entry => byModule.insert entry.1 entry.2) cached

/-! ## Lowering -/

/-- The manifest is of a build of this state with this plan and these options. -/
def manifestMatches (manifest : MaterializedBuildManifest) (incremental : IncrementalState) :
    Bool :=
  manifest.incremental = incremental
    && manifest.emitPlan = preLoweringEmitPlan compiler project
    && manifest.outputConfig = outputAffectingConfigFingerprint project.config

/-- Nothing is lowered if the outputs of the last build are still good. -/
def canReuseCachedPipelineOutputs (incremental : IncrementalState)
    (previousManifest : Option MaterializedBuildManifest) (outputsVerified : Bool) : Bool :=
  previousManifest.any fun manifest =>
    manifestMatches compiler project manifest incremental && outputsVerified

def modulesRequiringMaterialization (incremental : IncrementalState)
    (previousManifest : Option MaterializedBuildManifest) (outputsVerified : Bool) : ModuleSet :=
  match previousManifest with
  | some manifest =>
    if manifestMatches compiler project manifest incremental && !outputsVerified then
      currentProjectModuleKeys project
    else if manifestMatches compiler project manifest incremental then ∅
    else if manifest.incremental.metadata ≠ incremental.metadata
        ∨ manifest.emitPlan ≠ preLoweringEmitPlan compiler project
        ∨ manifest.outputConfig ≠ outputAffectingConfigFingerprint project.config then
      currentProjectModuleKeys project
    else
      (rechecked manifest.incremental incremental (graphOf compiler project)).filter
        fun moduleKey => (currentProjectModuleKeys project).contains moduleKey
  | none => currentProjectModuleKeys project

def modulesToLower (files : CacheFiles) (analyzed : AnalyzedPipelineState)
    (outputsVerified : Bool) : ModuleSet :=
  ((recheckedModules compiler project files analyzed).filter fun moduleKey =>
      (currentProjectModuleKeys project).contains moduleKey)
    ∪ modulesRequiringMaterialization compiler project analyzed.incremental
      (loadPreviousMaterializedBuildManifest project files) outputsVerified

structure LoweringResult where
  sourcePath : String
  diagnostics : List Diagnostic

def lowerWithOptions (tree : Source) : LoweringResult where
  sourcePath := tree.path
  diagnostics := compiler.lowerDiagnostics project.config.loweringOptions
    project.config.parseOptions tree

/-- The results of the last source of each module. The others are of no module. -/
def loweringDiagnosticsByModule (results : List LoweringResult) : ModuleDiagnostics :=
  let moduleByPath : ExtTreeMap String String :=
    ((currentProjectSyntaxByModule project).toList.map fun (moduleKey, tree) =>
      (tree.path, moduleKey)).foldl (fun byPath entry => byPath.insert entry.1 entry.2) ∅
  (results.filterMap fun result =>
      moduleByPath[result.sourcePath]?.map fun moduleKey => (moduleKey, result.diagnostics)).foldl
    (fun byModule entry => byModule.insert entry.1 entry.2) ∅

def publicSurfaceCompletenessDiagnostics (lowered : List Source) (tree : Source) :
    List Diagnostic :=
  if project.config.requireKnownPublicTypes then
    compiler.surfaceDiagnostics project.config.checkerOptions project.config.loweringOptions
      project.config.parseOptions project.allSyntaxTrees
      (lowered.filter fun other => other.logicalModule = tree.logicalModule) tree
  else []

/-! ## The run -/

structure PipelineSnapshot where
  incremental : IncrementalState
  moduleDiagnostics : ModuleDiagnostics
  emitPlan : List CachedEmitArtifact
  emitBlockedByPipeline : Bool
  diagnostics : List Diagnostic

def diagnosticsReportFromModules (moduleDiagnostics : ModuleDiagnostics) : List Diagnostic :=
  (moduleDiagnostics.toList.map Prod.snd).flatten

def blockedPipelineSnapshot (diagnostics : List Diagnostic) : PipelineSnapshot where
  incremental := {}
  moduleDiagnostics := ∅
  emitPlan := []
  emitBlockedByPipeline := true
  diagnostics

def blockedPipelineSnapshotWithIncremental (analyzed : AnalyzedPipelineState)
    (moduleDiagnostics : ModuleDiagnostics) : PipelineSnapshot where
  incremental := analyzed.incremental
  moduleDiagnostics
  emitPlan := []
  emitBlockedByPipeline := true
  diagnostics := diagnosticsReportFromModules moduleDiagnostics

/-- The run ends with its plan, after lowering or without. -/
def reusableCachedPipelineSnapshot (analyzed : AnalyzedPipelineState)
    (moduleDiagnostics : ModuleDiagnostics) : PipelineSnapshot where
  incremental := analyzed.incremental
  moduleDiagnostics
  emitPlan := analyzed.emitPlan
  emitBlockedByPipeline := false
  diagnostics := diagnosticsReportFromModules moduleDiagnostics

@[simp] theorem blockedPipelineSnapshotWithIncremental_moduleDiagnostics
    (analyzed : AnalyzedPipelineState) (moduleDiagnostics : ModuleDiagnostics) :
    (blockedPipelineSnapshotWithIncremental analyzed moduleDiagnostics).moduleDiagnostics
      = moduleDiagnostics := rfl

@[simp] theorem reusableCachedPipelineSnapshot_moduleDiagnostics
    (analyzed : AnalyzedPipelineState) (moduleDiagnostics : ModuleDiagnostics) :
    (reusableCachedPipelineSnapshot analyzed moduleDiagnostics).moduleDiagnostics
      = moduleDiagnostics := rfl

def collectParseDiagnostics : List Diagnostic :=
  applyTypeIgnoreDirectives compiler project.sources
    (project.allSyntaxTrees.flatMap (compiler.parseDiagnostics project.config.parseOptions))

/-- The sources of the project whose modules pass a test. -/
def loweredSyntaxTrees (lowers : String → Bool) : List Source :=
  project.sources.filter fun tree => lowers tree.logicalModule

def loweringResults (lowers : String → Bool) : List LoweringResult :=
  (loweredSyntaxTrees project lowers).map (lowerWithOptions compiler project)

/-- What lowering some modules adds. -/
def addLoweringDiagnostics (lowers : String → Bool) (moduleDiagnostics : ModuleDiagnostics) :
    ModuleDiagnostics :=
  (loweringDiagnosticsByModule project (loweringResults compiler project lowers)).toList.foldl
    (fun byModule entry => extendEntry byModule entry.1 entry.2) moduleDiagnostics

/-- What the surfaces of some modules add. -/
def addSurfaceDiagnostics (lowers : String → Bool) (moduleDiagnostics : ModuleDiagnostics) :
    ModuleDiagnostics :=
  ((loweredSyntaxTrees project lowers).map fun tree => (tree.logicalModule,
      publicSurfaceCompletenessDiagnostics compiler project (loweredSyntaxTrees project lowers)
        tree)).foldl
    (fun byModule entry => extendEntry byModule entry.1 entry.2) moduleDiagnostics

/-- The run from lowering on. -/
def runLowering (analyzed : AnalyzedPipelineState) (lowers : String → Bool)
    (moduleDiagnostics : ModuleDiagnostics) : PipelineSnapshot :=
  let lowered := addLoweringDiagnostics compiler project lowers moduleDiagnostics
  if hasErrors ((loweringResults compiler project lowers).flatMap LoweringResult.diagnostics) then
    blockedPipelineSnapshotWithIncremental analyzed lowered
  else
    reusableCachedPipelineSnapshot analyzed (addSurfaceDiagnostics compiler project lowers lowered)

/-- Whether the run returns before it lowers. -/
def returnsEarly (files : CacheFiles) (analyzed : AnalyzedPipelineState) (outputsVerified : Bool) :
    Bool :=
  files.snapshot.isSome && canReuseCachedPipelineOutputs compiler project analyzed.incremental
    (loadPreviousMaterializedBuildManifest project files) outputsVerified

def lowersModule (files : CacheFiles) (analyzed : AnalyzedPipelineState) (outputsVerified : Bool)
    (moduleKey : String) : Bool :=
  (modulesToLower compiler project files analyzed outputsVerified).contains moduleKey

/-- The run on a project that is found and parsed without errors. -/
def runPhases (files : CacheFiles) (outputsVerified : Bool) : PipelineSnapshot :=
  let analyzed := analyzePipelineState compiler project files.snapshot
  let checked := checkedDiagnostics compiler project files analyzed
  if returnsEarly compiler project files analyzed outputsVerified then
    reusableCachedPipelineSnapshot analyzed checked
  else
    runLowering compiler project analyzed
      (lowersModule compiler project files analyzed outputsVerified) checked

def runPipeline (files : CacheFiles) (outputsVerified : Bool) : PipelineSnapshot :=
  if hasErrors project.discoveryDiagnostics then
    blockedPipelineSnapshot project.discoveryDiagnostics
  else if hasErrors (collectParseDiagnostics compiler project) then
    blockedPipelineSnapshot (collectParseDiagnostics compiler project)
  else runPhases compiler project files outputsVerified

/-! ## What a run leaves -/

def shouldEmitBuildOutputs (snapshot : PipelineSnapshot) : Bool :=
  !snapshot.emitBlockedByPipeline
    && (!hasErrors snapshot.diagnostics || !project.config.noEmitOnError)

def persistPipelineAnalysisState (snapshot : PipelineSnapshot) (files : CacheFiles) : CacheFiles :=
  if snapshot.incremental.fingerprints.isEmpty then files
  else
    { files with
      snapshot := some snapshot.incremental
      analysisCache := some
        { incremental := snapshot.incremental
          metadata := analysisCacheMetadata project.config snapshot.incremental.metadata
          moduleDiagnostics := snapshot.moduleDiagnostics } }

/-- The outputs are written under a directory. -/
def materializeBuildOutputs (outRoot : String) (snapshot : PipelineSnapshot) (files : CacheFiles) :
    CacheFiles :=
  { files with
    snapshot := some snapshot.incremental
    buildManifest := some
      { outRoot
        incremental := snapshot.incremental
        emitPlan := snapshot.emitPlan
        outputConfig := outputAffectingConfigFingerprint project.config } }

end Run

/-- A run on a project. It finds the planned outputs in place or not, and it may write new ones. -/
structure Event where
  project : Project
  outputsVerified : Bool
  /-- Where the outputs are written, if the command writes them. -/
  buildRoot : Option String

def Event.run (compiler : Compiler) (event : Event) (files : CacheFiles) : PipelineSnapshot :=
  runPipeline compiler event.project files event.outputsVerified

/-- The cache directory after the run. -/
def Event.next (compiler : Compiler) (event : Event) (files : CacheFiles) : CacheFiles :=
  let snapshot := event.run compiler files
  let persisted := persistPipelineAnalysisState event.project snapshot files
  match event.buildRoot with
  | some outRoot =>
    if shouldEmitBuildOutputs event.project snapshot then
      materializeBuildOutputs event.project outRoot snapshot persisted
    else persisted
  | none => persisted

end TypePython.Pipeline
