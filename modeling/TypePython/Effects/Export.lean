import TypePython.Effects.Inference

/-!
# Exported effects

The effect facts a module exports (`collectEffectSummaryFacts`), and the summaries it is
checked with (`collectVisibleEffectSummaries`). Both infer along the calls of the module;
the checks also know what the module imports, the facts do not
(`exportAgrees_iff`).
-/

namespace TypePython.Effects

open Std
open TypePython.Lib
open TypePython.Lib.Text
open TypePython.Binding
open TypePython.Checking

attribute [local instance] lexOrd

/-! ## What is read off the source of a module -/

/-- A callable that is decorated. -/
structure DecoratedCallableSite where
  ownerTypeName : Option String
  name : String
  decorators : List String
  line : Nat
deriving DecidableEq, Repr

inductive FrameworkTransformProviderKind where
  | classDecorator
  | baseClass
  | metaclass
  | functionDecorator
deriving DecidableEq, Repr

inductive FrameworkTransformCapability where
  | fieldCollection
  | constructorGeneration
  | aliasHandling
  | requiredOptionalFields
  | readonlyFields
  | descriptorBackedAttributes
  | methodSynthesis
  | functionToObjectReplacement
  | genericPreservation
  | taintSource
  | taintSink
  | taintSanitizer
  | validatorWitness
  | effectUnsafe
  | effectIoFs
  | effectIoNet
  | effectIoProc
  | effectTime
  | effectRandom
  | effectRuntimeValidation
  | effectTaintSanitize
deriving DecidableEq, Repr

structure FrameworkTransformProviderSite where
  name : String
  providerKind : Option FrameworkTransformProviderKind
  capabilities : List FrameworkTransformCapability
deriving DecidableEq, Repr

/-- What the effect checks use of the checker context. -/
structure EffectContext where
  nodes : List ModuleNode
  effectRowsEnabled : Bool
  taintEnabled : Bool
  loadDecoratorTransformModuleInfo : ModuleNode → Option (List DecoratedCallableSite)
  loadFrameworkTransformModuleInfo : ModuleNode → Option (List FrameworkTransformProviderSite)
  effectCallEdges : ModuleNode → List EffectCallEdge

/-! ## Declared rows -/

/-- The part of a decorator that says what it declares. -/
def decoratorShortName (decorator : String) : String :=
  if occursIn "effect:".toList decorator.toList then decorator else lastSegment '.' decorator

def lifecycleEffectDecorator (short : String) : Bool :=
  short ∈ ["must_use", "must_call", "must_close", "must_dispose", "must_await", "must_consume"]

/-- The label of a decorator such as `effect:io.fs`. -/
def effectLabelFromDecorator (decorator : String) : Option String := do
  let (target, label) ← splitOnce ':' decorator.toList
  if lastSegment '.' (String.ofList target) = "effect" && !label.isEmpty then
    some (String.ofList label)
  else none

inductive TaintFactKind where
  | source
  | sink
  | sanitizer
deriving DecidableEq, Repr

structure TaintFact where
  kind : TaintFactKind
  context : Option String
deriving DecidableEq, Repr

def taintFactFromDecoratorName (decorator : String) : Option TaintFact :=
  let (target, context) :=
    match splitOnce ':' decorator.toList with
    | some (target, context) =>
      (String.ofList target, if context.isEmpty then none else some (String.ofList context))
    | none => (decorator, none)
  match lastSegment '.' target with
  | "source" => some ⟨.source, context⟩
  | "sink" => some ⟨.sink, context⟩
  | "sanitizer" | "effect_taint_sanitize" => some ⟨.sanitizer, context⟩
  | _ => none

def effectKindFromDecorator (short : String) : Option EffectKind :=
  match effectLabelFromDecorator short with
  | some label => some (effectKindFromLabel label)
  | none =>
    match taintFactFromDecoratorName short with
    | some ⟨.source, _⟩ => some (.declared "taint.source")
    | some ⟨.sink, _⟩ => some (.declared "taint.sink")
    | some ⟨.sanitizer, _⟩ => some .taintSanitize
    | none =>
      match short with
      | "effect" | "effectful" => some (.declared "declared")
      | "effect_unsafe" => some .unsafeCode
      | "effect_io_fs" => some .ioFs
      | "effect_io_net" => some .ioNet
      | "effect_io_proc" => some .ioProc
      | "effect_time" => some .time
      | "effect_random" => some .random
      | "effect_runtime_validation" => some .runtimeValidation
      | "trusted_validator" => some .runtimeValidation
      | _ => none

def frameworkCapabilityEffectKind : FrameworkTransformCapability → Option EffectKind
  | .effectUnsafe => some .unsafeCode
  | .effectIoFs => some .ioFs
  | .effectIoNet => some .ioNet
  | .effectIoProc => some .ioProc
  | .effectTime => some .time
  | .effectRandom => some .random
  | .effectRuntimeValidation | .validatorWitness => some .runtimeValidation
  | .effectTaintSanitize | .taintSanitizer => some .taintSanitize
  | .taintSource => some (.declared "taint.source")
  | .taintSink => some (.declared "taint.sink")
  | _ => none

/-- The rows that framework adapters give to the callables they decorate. -/
def adapterEffectRows (context : EffectContext) (node : ModuleNode) :
    ExtTreeMap String (EffectRow × EffectSource) :=
  (((context.loadFrameworkTransformModuleInfo node).getD []).filter
      (·.providerKind = some .functionDecorator)).foldl
    (fun rows provider =>
      let row := (provider.capabilities.filterMap frameworkCapabilityEffectKind).foldl
        (fun (row : EffectRow) effect => row.insert effect) ∅
      if row.isEmpty then rows
      else rows.insert provider.name
        (row, .decorator ("framework_transform capability on `" ++ provider.name ++ "`")))
    ∅

/-- What the decorators of a callable declare, as they are read. -/
structure DeclaredEffects where
  pure : Bool := false
  row : EffectRow := ∅
  sources : List EffectSource := []

/-- Read one decorator. -/
def readDecorator (adapterEffects : ExtTreeMap String (EffectRow × EffectSource))
    (declared : DeclaredEffects) (decorator : String) : DeclaredEffects :=
  let short := decoratorShortName decorator
  let declared :=
    if short = "effect_pure" || short = "pure" then
      { declared with pure := true, sources := declared.sources ++ [.decorator decorator] }
    else
      match effectKindFromDecorator short with
      | some effect =>
        { declared with
          row := declared.row.insert effect
          sources := declared.sources ++ [.decorator decorator] }
      | none =>
        if lifecycleEffectDecorator short then
          { declared with
            row := declared.row.insert (.declared "resource.lifecycle")
            sources := declared.sources ++ [.lifecycle decorator] }
        else declared
  match adapterEffects[short]?.or adapterEffects[decorator]? with
  | some (adapterRow, adapterSource) =>
    { declared with
      row := declared.row.extend adapterRow
      sources := declared.sources ++ [adapterSource] }
  | none => declared

def localEffectSummary (adapterEffects : ExtTreeMap String (EffectRow × EffectSource))
    (site : DecoratedCallableSite) : Option EffectSummary :=
  let declared := site.decorators.foldl (readDecorator adapterEffects) {}
  if declared.pure || !declared.row.isEmpty then
    some { callable := site.name, ownerTypeName := site.ownerTypeName, pure := declared.pure,
           row := declared.row, sources := declared.sources, line := site.line }
  else none

def collectLocalEffectSummaries (context : EffectContext) (node : ModuleNode) :
    List EffectSummary :=
  match context.loadDecoratorTransformModuleInfo node with
  | none => []
  | some callables => callables.filterMap (localEffectSummary (adapterEffectRows context node))

/-! ## The standard library -/

def stdlibEffectSymbolsForModule (moduleName : String) : List String :=
  match moduleName with
  | "time" => ["monotonic", "perf_counter", "process_time", "sleep", "time"]
  | "random" => ["choice", "choices", "randint", "random", "randrange", "seed", "shuffle"]
  | "secrets" => ["choice", "randbelow", "token_bytes", "token_hex", "token_urlsafe"]
  | "subprocess" => ["Popen", "call", "check_call", "check_output", "run"]
  | "os" =>
    ["chdir", "getcwd", "listdir", "makedirs", "mkdir", "popen", "remove", "removedirs",
      "rename", "replace", "rmdir", "scandir", "stat", "system", "unlink"]
  | "urllib.request" => ["urlopen", "urlretrieve"]
  | _ => []

def stdlibEffectKind (moduleName symbol : String) : Option EffectKind :=
  match moduleName with
  | "time" =>
    if symbol ∈ ["monotonic", "perf_counter", "process_time", "sleep", "time"] then some .time
    else none
  | "random" =>
    if symbol ∈ ["choice", "choices", "randint", "random", "randrange", "seed", "shuffle"] then
      some .random
    else none
  | "secrets" =>
    if symbol ∈ ["choice", "randbelow", "token_bytes", "token_hex", "token_urlsafe"] then
      some .random
    else none
  | "subprocess" =>
    if symbol ∈ ["Popen", "call", "check_call", "check_output", "run"] then some .ioProc
    else none
  | "os" =>
    if symbol ∈ ["popen", "system"] then some .ioProc
    else if symbol ∈ ["chdir", "getcwd", "listdir", "makedirs", "mkdir", "remove",
        "removedirs", "rename", "replace", "rmdir", "scandir", "stat", "unlink"] then some .ioFs
    else none
  | "urllib.request" => if symbol ∈ ["urlopen", "urlretrieve"] then some .ioNet else none
  | _ => none

def stdlibSymbolEffectRow (moduleName symbol : String) : Option EffectRow :=
  (stdlibEffectKind moduleName symbol).map fun effect => (∅ : EffectRow).insert effect

def stdlibModuleEffectMethods (moduleName : String) : List (String × EffectRow) :=
  (stdlibEffectSymbolsForModule moduleName).filterMap fun symbol =>
    (stdlibSymbolEffectRow moduleName symbol).map fun row => (symbol, row)

def topLevelImports (node : ModuleNode) : List Declaration :=
  (node.declarations.filter (·.owner.isNone)).filter (·.kind = .importDecl)

/-- An imported function of the standard library, else the functions of an imported module. -/
def stdlibImportSummaries (declaration : Declaration) (target : BoundImportTarget) :
    List EffectSummary :=
  match target.symbolTarget.bind fun symbol =>
      stdlibSymbolEffectRow symbol.moduleKey symbol.symbolName with
  | some row =>
    [{ callable := declaration.name, ownerTypeName := none, pure := false, row,
       sources := [.stdlib target.rawTarget], line := 1 }]
  | none =>
    (stdlibModuleEffectMethods target.rawTarget).map fun (methodName, row) =>
      { callable := methodName, ownerTypeName := some declaration.name, pure := false, row,
        sources := [.stdlib (target.rawTarget ++ "." ++ methodName)], line := 1 }

def collectStdlibEffectSummaries (node : ModuleNode) : List EffectSummary :=
  (topLevelImports node).flatMap fun declaration =>
    match declaration.importTarget with
    | some target => stdlibImportSummaries declaration target
    | none => []

/-! ## Facts -/

structure SummaryEffectFact where
  name : String
  ownerTypeName : Option String
  pure : Bool
  effects : List String
  sources : List String
  line : Nat
deriving DecidableEq, Repr

def SummaryEffectFact.key (fact : SummaryEffectFact) : CallableKey :=
  (fact.ownerTypeName, fact.name)

def isTaintEffectLabel (label : String) : Bool := "taint.".toList.isPrefixOf label.toList

/-- Whether the checks of a label are switched on. -/
def effectLabelEnabled (context : EffectContext) (label : String) : Bool :=
  (context.effectRowsEnabled && !isTaintEffectLabel label)
    || (context.taintEnabled && isTaintEffectLabel label)

def factSource : EffectSource → String
  | .decorator name => name
  | .lifecycle name => name
  | .unsafeBlock => "unsafe:"
  | .inferred name => "inferred:" ++ name
  | .stdlib name => "stdlib:" ++ name

def effectFact (context : EffectContext) (summary : EffectSummary) : SummaryEffectFact where
  name := summary.callable
  ownerTypeName := summary.ownerTypeName
  pure := summary.pure
  effects := summary.row.labels.filter (effectLabelEnabled context)
  sources := summary.sources.map factSource
  line := summary.line

/-- By owner, name and line. -/
def effectFactLE (left right : SummaryEffectFact) : Bool :=
  (compare (left.ownerTypeName, left.name, left.line)
    (right.ownerTypeName, right.name, right.line)).isLE

/-- The summaries the exported rows are inferred from. -/
def exportSeeds (context : EffectContext) (node : ModuleNode) : List EffectSummary :=
  collectLocalEffectSummaries context node ++ collectStdlibEffectSummaries node

def collectEffectSummaryFacts (context : EffectContext) (node : ModuleNode) :
    List SummaryEffectFact :=
  if !context.effectRowsEnabled && !context.taintEnabled then []
  else
    let summaries := collectLocalEffectSummaries context node
      ++ collectInferredEffectSummaries (context.effectCallEdges node) (exportSeeds context node)
    ((summaries.map (effectFact context)).filter fun fact =>
        (context.effectRowsEnabled && fact.pure) || !fact.effects.isEmpty).insertionSort
      fun left right => effectFactLE left right

/-! ## What a module is checked with -/

def effectSourceFromFactSource (source : String) : EffectSource :=
  match stripPrefix "inferred:".toList source.toList with
  | some name => .inferred (String.ofList name)
  | none =>
    match stripPrefix "stdlib:".toList source.toList with
    | some name => .stdlib (String.ofList name)
    | none => .decorator source

def effectSummaryFromFact (callable : String) (ownerTypeName : Option String)
    (fact : SummaryEffectFact) : EffectSummary where
  callable := callable
  ownerTypeName := ownerTypeName
  pure := fact.pure
  row := EffectRow.fromLabels fact.effects
  sources := fact.sources.map effectSourceFromFactSource
  line := fact.line

def effectSummaryFromFunctionFact (localName : String) (fact : SummaryEffectFact) :
    EffectSummary :=
  effectSummaryFromFact localName none fact

def effectSummaryFromMethodFact (localOwnerTypeName : String) (fact : SummaryEffectFact) :
    EffectSummary :=
  effectSummaryFromFact fact.name (some localOwnerTypeName) fact

/-- The facts of the provider of an imported function or class, under the local name. -/
def importedEffectSummaries (context : EffectContext) (declaration : Declaration) :
    List EffectSummary :=
  match resolveImportedSymbolSemanticTargetFromDeclaration context.nodes declaration with
  | none => []
  | some target =>
    match target.targetDeclaration with
    | none => []
    | some targetDeclaration =>
      if targetDeclaration.owner.isSome then []
      else
        let facts := collectEffectSummaryFacts context target.providerNode
        match targetDeclaration.kind with
        | .function =>
          ((facts.find? fun fact => fact.key = (none, targetDeclaration.name)).map
            (effectSummaryFromFunctionFact declaration.name)).toList
        | .classDecl =>
          (facts.filter fun fact =>
            fact.ownerTypeName = some targetDeclaration.name).map
              (effectSummaryFromMethodFact declaration.name)
        | _ => []

def collectImportedEffectSummaries (context : EffectContext) (node : ModuleNode) :
    List EffectSummary :=
  (topLevelImports node).flatMap (importedEffectSummaries context)

/-- The summaries the rows a module is checked with are inferred from. -/
def visibleSeeds (context : EffectContext) (node : ModuleNode) : List EffectSummary :=
  collectLocalEffectSummaries context node ++ collectImportedEffectSummaries context node
    ++ collectStdlibEffectSummaries node

def collectVisibleEffectSummaries (context : EffectContext) (node : ModuleNode) :
    List EffectSummary :=
  visibleSeeds context node
    ++ collectInferredEffectSummaries (context.effectCallEdges node) (visibleSeeds context node)

end TypePython.Effects
