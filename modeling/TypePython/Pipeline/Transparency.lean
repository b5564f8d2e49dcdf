import TypePython.Pipeline.Rerun

/-!
# The cache is transparent

A run reports what a run with an empty cache directory reports, as long as every run meets
`Transparent.Condition`. A project with an incomplete public surface that is checked twice and
never built breaks it: the surface is reported again by each run.
-/

namespace TypePython.Pipeline

open Std
open TypePython.Lib
open TypePython.Binding
open TypePython.Incremental
open TypePython.Summaries

/-! ## A project with an incomplete surface -/

def leakText : String := "def leak(value: dynamic) -> int:\n    return 0\n"

def leakSource : Source where
  path := "src/app/__init__.tpy"
  logicalModule := "app"
  kind := .typePython
  text := leakText

def leakDiagnostic : Diagnostic where
  code := "TPY4015"
  severity := .error
  message := "module \x60src/app/__init__.tpy\x60 exports incomplete type surface for \x60leak\x60"

/-- The declarations of the source, and none for any other. -/
def leakDeclarations (source : Source) : List Declaration :=
  if source.text = leakText then [preludeFunction "leak" [preludeParam "value" "dynamic"] "int"]
  else []

def leakFrontend : Frontend where
  bind source :=
    { node :=
        { moduleKey := source.logicalModule
          modulePath := source.path
          moduleKind := source.kind
          declarations := leakDeclarations source }
      isBound := by
        intro declaration hdeclaration
        unfold leakDeclarations at hdeclaration
        split at hdeclaration
        · rw [List.mem_singleton.1 hdeclaration]
          exact isBound_preludeFunction _ _ _
        · exact absurd hdeclaration List.not_mem_nil }
  bind_moduleKey _ := rfl
  bind_modulePath _ := rfl
  bind_moduleKind _ := rfl
  decoratorTransformModuleInfo _ _ := none
  frameworkTransformModuleInfo _ _ := none
  effectCallEdges _ _ := []
  typedDictClassMetadata _ _ _ := none

/-- The phases on the source: its surface is not complete, and nothing else is wrong. -/
def leakCompiler : Compiler where
  version := "1.0.0-rc.1"
  bundledStdlibSnapshotIdentity _ := "fnv1a64:0000000000000000"
  frontend _ := leakFrontend
  parseDiagnostics _ _ := []
  typeIgnoreDirectives _ := []
  nodeDiagnostics _ _ _ _ := []
  lowerDiagnostics _ _ _ := []
  surfaceDiagnostics _ _ _ _ _ tree := if tree.text = leakText then [leakDiagnostic] else []
  planEmitsForSources _ sources := sources.map fun source =>
    { sourcePath := source.sourcePath
      runtimePath := some "app/__init__.py"
      stubPath := some "app/__init__.pyi" }

/-- The default configuration, with complete surfaces required or not. -/
def leakConfig (requireKnownPublicTypes : Bool) : Config where
  targetPython := "3.10"
  analysisPython := "3.10"
  emitStyle := "compat"
  emitPyi := true
  writePyTyped := true
  emitPyc := false
  runtimeValidators := false
  noEmitOnError := true
  requireExplicitOverrides := false
  enableSealedExhaustiveness := true
  reportDeprecated := .warning
  strict := true
  strictNulls := true
  noImplicitDynamic := true
  warnUnsafe := true
  imports := .unknown
  requireKnownPublicTypes
  conditionalReturns := false
  inferPassthrough := false
  shapeTransforms := false
  acceptedFeatures := []

def leakProject (requireKnownPublicTypes : Bool) : Project where
  config := leakConfig requireKnownPublicTypes
  discoveryDiagnostics := []
  sources := [leakSource]
  paths_nodup := List.nodup_singleton _
  shadowStubSyntax := []
  checkingSupport := []
  supportSnapshot := none
  outRoot := none

/-- The project is checked, and nothing is built. -/
def leakCheck (requireKnownPublicTypes : Bool) : Event where
  project := leakProject requireKnownPublicTypes
  outputsVerified := false
  buildRoot := none

theorem leakCompiler_checksLocally : leakCompiler.ChecksLocally := by
  have hnothing : ∀ options parseOptions sources moduleKey,
      moduleCheck leakCompiler options parseOptions sources moduleKey = [] := by
    intro options parseOptions sources moduleKey
    unfold moduleCheck
    split <;> rfl
  intro options parseOptions sources sources' moduleKey _ _
  rw [hnothing, hnothing]

section Leak

variable (requireKnownPublicTypes : Bool)

theorem leakCheck_reachesPhases : ReachesPhases leakCompiler (leakCheck requireKnownPublicTypes) :=
  ⟨rfl, rfl⟩

theorem leakCheck_hasModule : (leakCheck requireKnownPublicTypes).project.HasModule "app" :=
  List.mem_singleton_self _

theorem leakCheck_keys :
    ((graphOf leakCompiler (leakCheck requireKnownPublicTypes).project).nodes.map
      ModuleNode.moduleKey).Nodup := by
  cases requireKnownPublicTypes <;> decide +kernel

theorem leakCheck_lowering (moduleKey : String) :
    loweringOf leakCompiler (leakCheck requireKnownPublicTypes).project moduleKey = [] := by
  unfold loweringOf
  split <;> rfl

end Leak

/-- In every sequence of runs that all meet the condition, the cache is transparent: each run
reports of every module what a run with an empty cache directory reports. -/
theorem pipeline_transparent (compiler : Compiler) (hlocal : compiler.ChecksLocally)
    (events : List Event)
    (h : EveryStep (System.next compiler) (MeetsCondition compiler) {} events) :
    EveryStep (System.next compiler) (AgreesWithEmptyCache compiler) {} events := by
  have hempty : CacheInvariant compiler {} := by
    intro cache hcache
    cases hcache
  exact EveryStep.of_invariant (fun s event hinv hcondition =>
    step_agrees hlocal hinv hcondition) hempty h

theorem leakCheckedTwice_transparent :
    EveryStep (System.next leakCompiler) (AgreesWithEmptyCache leakCompiler) {}
      [leakCheck false, leakCheck false] := by
  apply pipeline_transparent leakCompiler leakCompiler_checksLocally
  refine ⟨fun _ => condition_empty, fun _ => ?_, trivial⟩
  rw [system_next_empty (leakCheck_reachesPhases false) rfl (leakCheck_hasModule false)]
  apply condition_checkedFiles (leakCheck_keys false) (leakCheck_lowering false)
  intro moduleKey
  unfold surfaceOf
  rw [List.flatMap_eq_nil_iff]
  intro tree _
  rfl

/-- The second check reports the incomplete surface twice. -/
theorem leakCheckedTwice_not_transparent :
    leakCompiler.ChecksLocally
      ∧ ¬EveryStep (System.next leakCompiler) (AgreesWithEmptyCache leakCompiler) {}
          [leakCheck true, leakCheck true] := by
  refine ⟨leakCompiler_checksLocally, ?_⟩
  rintro ⟨-, hsecond, -⟩
  have hreaches := leakCheck_reachesPhases true
  have hmodule := leakCheck_hasModule true
  have hinv : CacheInvariant leakCompiler {} := by
    intro cache hcache
    cases hcache
  have hempty : Transparent.Condition leakCompiler {} (leakCheck true) := condition_empty
  have hfirst := runPhases_perm leakCompiler_checksLocally hinv hempty "app"
  have hagain := second_check_reports_again leakCompiler_checksLocally hreaches
    (leakCheck_keys true) hmodule
  have hsame := hsecond "app"
  rw [system_next_empty hreaches rfl hmodule, run_of_reachesPhases hreaches {}] at hsame
  have hlength := (hagain.symm.trans (hsame.trans hfirst)).length_eq
  have hsurface : reportedSurface leakCompiler (leakCheck true).project "app"
      = [leakDiagnostic] := by decide +kernel
  rw [List.length_append, List.length_append, hsurface, List.length_singleton] at hlength
  omega

end TypePython.Pipeline
