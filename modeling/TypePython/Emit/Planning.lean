import TypePython.Binding.Graph
import TypePython.Emit.Paths
import TypePython.Lib.SortDedup

/-!
# The output plan

Discovered sources with their logical modules, the collisions among them, and the files that
`plan_emits_for_sources` plans for them under the output root.
-/

namespace TypePython.Emit

open TypePython.Binding
open TypePython.Lib
open TypePython.Lib.Text

/-- What the plan reads of the configuration. The directories are as they are written in it. -/
structure Config where
  configDir : PathBuf
  src : List PathBuf
  rootDir : PathBuf
  outDir : PathBuf
  emitPyi : Bool

def Config.resolveRelativePath (config : Config) (path : PathBuf) : PathBuf :=
  PathBuf.join config.configDir path

/-! ## Sources -/

def sourceKindOfPath (path : PathBuf) : Option SourceKind :=
  match PathBuf.extension path with
  | some "tpy" => some .typePython
  | some "py" => some .python
  | some "pyi" => some .stub
  | _ => none

structure DiscoveredSource where
  path : PathBuf
  root : PathBuf
  kind : SourceKind
  logicalModule : String
  deriving DecidableEq

/-- Take `..` back where a name stands before it. -/
def normalizeLexicalStep (normalized : PathBuf) : Component → PathBuf
  | .rootDir => [.rootDir]
  | .curDir => normalized
  | .parentDir =>
    if (PathBuf.fileName normalized).isSome then normalized.dropLast
    else if normalized.head? = some .rootDir then normalized
    else normalized ++ [.parentDir]
  | .normal name => normalized ++ [.normal name]

def normalizeLexicalPath (path : PathBuf) : PathBuf := path.foldl normalizeLexicalStep []

def sourceRoots (config : Config) : List PathBuf :=
  config.src.map fun root => normalizeLexicalPath (config.resolveRelativePath root)

def sourceRootForPath (roots : List PathBuf) (path : PathBuf) : Option PathBuf :=
  roots.find? fun root => root.isPrefixOf path

def packageComponents (relativeParent : PathBuf) : List String := relativeParent.map Component.text

def logicalModulePath (root path : PathBuf) : Option String :=
  (PathBuf.stripPrefix? path root).bind fun relative =>
    let components := packageComponents ((PathBuf.parent relative).getD [])
    (PathBuf.fileStem path).bind fun stem =>
      if stem = "__init__" then if components = [] then none else some (join "." components)
      else some (join "." (components ++ [stem]))

/-! ## Collisions -/

structure ModuleCollision where
  logicalModule : String
  sources : List DiscoveredSource

def normalizeGlobPath (path : PathBuf) : String := join "/" (path.map Component.text)

def allowsRuntimeWithStubPair : List DiscoveredSource → Bool
  | [first, second] =>
    ((first.kind = .python && second.kind = .stub)
      || (first.kind = .stub && second.kind = .python)) && first.root = second.root
  | _ => false

/-- The collision of one module, if its sources may not stand together. -/
def moduleCollision (sources : List DiscoveredSource) (roots : List PathBuf)
    (logicalModule : String) : Option ModuleCollision :=
  let moduleSources := sources.filter fun source => source.logicalModule = logicalModule
  let distinctRoots := (moduleSources.map fun source => normalizeGlobPath source.root).dedup
  let hasMultipleRoots := 1 < distinctRoots.length
    && distinctRoots.all fun root => root ∈ roots.map normalizeGlobPath
  if moduleSources.length < 2 then none
  else if hasMultipleRoots || !allowsRuntimeWithStubPair moduleSources then
    some ⟨logicalModule, moduleSources⟩
  else none

def detectModuleCollisions (sources : List DiscoveredSource) (roots : List PathBuf) :
    List ModuleCollision :=
  (dedupBy id (sortBy id (sources.map DiscoveredSource.logicalModule))).filterMap
    (moduleCollision sources roots)

/-! ## The plan -/

structure PlannedModuleSource where
  sourcePath : PathBuf
  sourceKind : SourceKind

structure EmitArtifact where
  sourcePath : PathBuf
  runtimePath : Option PathBuf
  stubPath : Option PathBuf

inductive EmitPlanningError where
  | unsafeSourcePath (sourcePath logicalRoot : PathBuf)

def withoutCurrentDirectoryComponents (path : PathBuf) : PathBuf := path.filter (· ≠ .curDir)

def Component.isNormal : Component → Bool
  | .normal _ => true
  | _ => false

def relativeModulePath (config : Config) (sourcePath : PathBuf) :
    Except EmitPlanningError PathBuf :=
  let logicalRoot :=
    withoutCurrentDirectoryComponents (config.resolveRelativePath config.rootDir)
  let unsafePath := EmitPlanningError.unsafeSourcePath sourcePath
    (config.resolveRelativePath config.rootDir)
  match PathBuf.stripPrefix? (withoutCurrentDirectoryComponents sourcePath) logicalRoot with
  | some relative =>
    if relative ≠ [] && relative.all Component.isNormal then .ok relative else .error unsafePath
  | none =>
    match PathBuf.fileName sourcePath with
    | some name => .ok [.normal name]
    | none => .error unsafePath

/-- The artifacts so far, and where the one of a module is that has a runtime file or a stub. -/
structure EmitPlan where
  artifacts : List EmitArtifact := []
  pairedByModule : List (PathBuf × Nat) := []

def EmitPlan.push (plan : EmitPlan) (moduleKey : PathBuf) (artifact : EmitArtifact) : EmitPlan where
  artifacts := plan.artifacts ++ [artifact]
  pairedByModule := (moduleKey, plan.artifacts.length) :: plan.pairedByModule

def EmitPlan.change (plan : EmitPlan) (index : Nat) (change : EmitArtifact → EmitArtifact) :
    EmitPlan :=
  { plan with artifacts := plan.artifacts.modify index change }

/-- The plan with one more source, whose path below the output root is given. -/
def planSource (config : Config) (plan : EmitPlan) (source : PlannedModuleSource)
    (relative : PathBuf) : EmitPlan :=
  let outRoot := config.resolveRelativePath config.outDir
  let moduleKey := PathBuf.withExtension relative ""
  match source.sourceKind with
  | .typePython =>
    { plan with
      artifacts := plan.artifacts ++ [{
        sourcePath := source.sourcePath
        runtimePath := some (PathBuf.withExtension (PathBuf.join outRoot relative) "py")
        stubPath := if config.emitPyi then
            some (PathBuf.withExtension (PathBuf.join outRoot relative) "pyi")
          else none }] }
  | .python =>
    let runtimePath := PathBuf.join outRoot (PathBuf.withExtension relative "py")
    match plan.pairedByModule.lookup moduleKey with
    | some index =>
      plan.change index fun artifact =>
        { artifact with sourcePath := source.sourcePath, runtimePath := some runtimePath }
    | none =>
      plan.push moduleKey
        { sourcePath := source.sourcePath, runtimePath := some runtimePath, stubPath := none }
  | .stub =>
    let stubPath := PathBuf.join outRoot (PathBuf.withExtension relative "pyi")
    match plan.pairedByModule.lookup moduleKey with
    | some index => plan.change index fun artifact => { artifact with stubPath := some stubPath }
    | none =>
      plan.push moduleKey
        { sourcePath := source.sourcePath, runtimePath := none, stubPath := some stubPath }

def planFrom (config : Config) : EmitPlan → List PlannedModuleSource →
    Except EmitPlanningError EmitPlan
  | plan, [] => .ok plan
  | plan, source :: rest => do
    let relative ← relativeModulePath config source.sourcePath
    planFrom config (planSource config plan source relative) rest

def planEmitsForSources (config : Config) (sources : List PlannedModuleSource) :
    Except EmitPlanningError (List EmitArtifact) :=
  (planFrom config {} sources).map EmitPlan.artifacts

end TypePython.Emit
