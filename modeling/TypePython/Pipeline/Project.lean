import TypePython.Summaries.Rechecking

/-!
# Projects and their options

What a run of the compiler is given: the configuration, the sources of the project and of what
it imports, and the files it left in the cache directory. The parser, the checker, the lowering
and the emitter are parameters (`Compiler`).
-/

namespace TypePython.Pipeline

open Std
open TypePython.Binding
open TypePython.Summaries

/-! ## Diagnostics -/

inductive Severity where
  | error
  | warning
  | note
deriving DecidableEq

structure Span where
  path : String
  line : Nat
  column : Nat
  endLine : Nat
  endColumn : Nat
deriving DecidableEq

structure Diagnostic where
  code : String
  severity : Severity
  message : String
  notes : List String := []
  span : Option Span := none
deriving DecidableEq

def hasErrors (diagnostics : List Diagnostic) : Bool :=
  diagnostics.any (·.severity = .error)

/-- A `type: ignore` comment, for all codes or for some. -/
structure TypeIgnoreDirective where
  line : Nat
  codes : Option (List String)

def TypeIgnoreDirective.covers (directive : TypeIgnoreDirective) (span : Span) (code : String) :
    Bool :=
  directive.line = span.line
    && match directive.codes with
      | none => true
      | some codes => code ∈ codes

/-! ## Configuration -/

inductive DiagnosticLevel where
  | ignore
  | warning
  | error

inductive ImportFallback where
  | unknown
  | dynamic

def DiagnosticLevel.debug : DiagnosticLevel → String
  | .ignore => "Ignore"
  | .warning => "Warning"
  | .error => "Error"

def ImportFallback.debug : ImportFallback → String
  | .unknown => "Unknown"
  | .dynamic => "Dynamic"

theorem DiagnosticLevel.debug_injective : Function.Injective DiagnosticLevel.debug := by
  intro level level' h
  cases level <;> cases level' <;> simp_all [debug]

theorem ImportFallback.debug_injective : Function.Injective ImportFallback.debug := by
  intro fallback fallback' h
  cases fallback <;> cases fallback' <;> simp_all [debug]

structure Config where
  targetPython : String
  analysisPython : String
  emitStyle : String
  emitPyi : Bool
  writePyTyped : Bool
  emitPyc : Bool
  runtimeValidators : Bool
  noEmitOnError : Bool
  requireExplicitOverrides : Bool
  enableSealedExhaustiveness : Bool
  reportDeprecated : DiagnosticLevel
  strict : Bool
  strictNulls : Bool
  noImplicitDynamic : Bool
  warnUnsafe : Bool
  imports : ImportFallback
  requireKnownPublicTypes : Bool
  conditionalReturns : Bool
  inferPassthrough : Bool
  shapeTransforms : Bool
  acceptedFeatures : List String

def experimentalEffectRows : String := "effect_rows"
def experimentalTaint : String := "taint"
def experimentalValidatorWitnesses : String := "validator_witnesses"
def experimentalSyncAsyncDualEmit : String := "sync_async_dual_emit"
def experimentalFrameworkAdapters : String := "framework_adapters"

structure CheckerOptions extends Summaries.CheckerOptions where
  requireExplicitOverrides : Bool
  enableSealedExhaustiveness : Bool
  reportDeprecated : DiagnosticLevel
  strict : Bool
  strictNulls : Bool
  noImplicitDynamic : Bool
  warnUnsafe : Bool
  importFallback : ImportFallback
  experimentalValidatorWitnesses : Bool
  experimentalSyncAsyncDualEmit : Bool

/-- The options of the parser. Sources of the project are parsed for the target Python, and what
they import for the Python of the analysis. -/
structure ParseOptions where
  enableConditionalReturns : Bool
  targetPython : String
  analysisPython : String

structure LoweringOptions where
  targetPython : String
  emitStyle : String
  experimentalShapeTransforms : Bool
  experimentalSyncAsyncDualEmit : Bool

namespace Config

variable (config : Config)

def acceptsFeature (featureId : String) : Bool := config.acceptedFeatures.any (· == featureId)

def checkerOptions : CheckerOptions where
  experimentalEffectRows := config.acceptsFeature experimentalEffectRows
  experimentalTaint := config.acceptsFeature experimentalTaint
  experimentalFrameworkAdapters := config.acceptsFeature experimentalFrameworkAdapters
  requireExplicitOverrides := config.requireExplicitOverrides
  enableSealedExhaustiveness := config.enableSealedExhaustiveness
  reportDeprecated := config.reportDeprecated
  strict := config.strict
  strictNulls := config.strictNulls
  noImplicitDynamic := config.noImplicitDynamic
  warnUnsafe := config.warnUnsafe
  importFallback := config.imports
  experimentalValidatorWitnesses := config.acceptsFeature experimentalValidatorWitnesses
  experimentalSyncAsyncDualEmit := config.acceptsFeature experimentalSyncAsyncDualEmit

def parseOptions : ParseOptions where
  enableConditionalReturns := config.conditionalReturns
  targetPython := config.targetPython
  analysisPython := config.analysisPython

def loweringOptions : LoweringOptions where
  targetPython := config.targetPython
  emitStyle := config.emitStyle
  experimentalShapeTransforms := config.shapeTransforms
  experimentalSyncAsyncDualEmit := config.acceptsFeature experimentalSyncAsyncDualEmit

end Config

/-! ## Sources -/

structure Project where
  config : Config
  discoveryDiagnostics : List Diagnostic
  sources : List Source
  /-- A file is visited once. -/
  paths_nodup : (sources.map Source.path).Nodup
  /-- The stubs inferred from the Python sources of the project. -/
  shadowStubSyntax : List Source
  /-- What is loaded for the imports that leave the project. -/
  checkingSupport : List Source
  /-- The identity of the support sources that do not come with the compiler, if any is loaded. -/
  supportSnapshot : Option String
  /-- The canonical output directory, if it exists. -/
  outRoot : Option String

def replaceLocalPythonSurfacesWithShadowStubs (syntaxTrees shadowStubSyntax : List Source) :
    List Source :=
  let shadowModules := shadowStubSyntax.map Source.logicalModule
  syntaxTrees.filter (fun tree => !(tree.kind = .python && tree.logicalModule ∈ shadowModules))
    ++ shadowStubSyntax

namespace Project

variable (project : Project)

/-- What is checked: the sources or their inferred stubs, and what they import. -/
def allSyntaxTrees : List Source :=
  (if project.config.inferPassthrough && !project.shadowStubSyntax.isEmpty then
      replaceLocalPythonSurfacesWithShadowStubs project.sources project.shadowStubSyntax
    else project.sources)
    ++ project.checkingSupport

/-- The project has sources of the module. -/
def HasModule (moduleKey : String) : Prop :=
  moduleKey ∈ project.sources.map Source.logicalModule

instance (moduleKey : String) : Decidable (project.HasModule moduleKey) :=
  inferInstanceAs (Decidable (_ ∈ _))

/-- Every module of the project is checked. -/
theorem mem_modules_allSyntaxTrees {moduleKey : String} (h : project.HasModule moduleKey) :
    moduleKey ∈ project.allSyntaxTrees.map Source.logicalModule := by
  rcases List.mem_map.1 h with ⟨source, hsource, hkey⟩
  unfold allSyntaxTrees
  rw [List.map_append, List.mem_append]
  left
  split
  · unfold replaceLocalPythonSurfacesWithShadowStubs
    rw [List.map_append, List.mem_append]
    by_cases hstub : moduleKey ∈ project.shadowStubSyntax.map Source.logicalModule
    · exact .inr hstub
    · left
      apply List.mem_map.2
      refine ⟨source, ?_, hkey⟩
      rw [List.mem_filter]
      rw [← hkey] at hstub
      simp [hsource, hstub]
  · exact h

end Project

/-! ## The compiler -/

structure CachedEmitArtifact where
  sourcePath : String
  runtimePath : Option String
  stubPath : Option String
deriving DecidableEq

structure PlannedModuleSource where
  sourcePath : String
  sourceKind : SourceKind

/-- The phases of the compiler that read source text. -/
structure Compiler where
  version : String
  bundledStdlibSnapshotIdentity : String → String
  frontend : ParseOptions → Frontend
  parseDiagnostics : ParseOptions → Source → List Diagnostic
  typeIgnoreDirectives : Source → List TypeIgnoreDirective
  /-- `collect_node_diagnostics`, given everything that is checked. -/
  nodeDiagnostics : CheckerOptions → ParseOptions → List Source → ModuleNode → List Diagnostic
  lowerDiagnostics : LoweringOptions → ParseOptions → Source → List Diagnostic
  /-- The incomplete entries of a source, given everything that is checked and the sources of
  its module. -/
  surfaceDiagnostics : CheckerOptions → LoweringOptions → ParseOptions → List Source →
    List Source → Source → List Diagnostic
  planEmitsForSources : Config → List PlannedModuleSource → List CachedEmitArtifact

end TypePython.Pipeline
