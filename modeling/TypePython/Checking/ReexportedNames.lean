import TypePython.Binding.PackageNodes
import TypePython.Checking.ImportedSymbols

/-!
# Names imported through other modules

What an imported name leads to when the module it is imported from has imported it itself,
against the target the checker resolves. The checker looks into one module and takes what is
declared there, an import too: `resolvesThroughReexports_iff` says that it agrees with the
chain of imports for exactly the names that are not imported twice.
-/

namespace TypePython.Checking

open TypePython.Lib.Text
open TypePython.Binding

/-! ## Chains of imports -/

section

variable (nodes : List ModuleNode)

def moduleOfKey (moduleKey : String) : Option ModuleNode :=
  nodes.find? fun candidate => candidate.moduleKey = moduleKey

/-- The declaration a module binds a name by. -/
def topLevelOf (node : ModuleNode) (name : String) : Option Declaration :=
  node.declarations.find? fun target => target.owner.isNone && target.name = name

/-- What an import leads to in the end: a module of the graph, a definition, or the end of another
one that stands in its place. -/
inductive LeadsToTarget : BoundImportTarget → ImportedSymbolSemanticTarget → Prop where
  | wholeModule {target : BoundImportTarget} {providerNode : ModuleNode}
      (hmodule : moduleOfKey nodes target.moduleTarget = some providerNode) :
      LeadsToTarget target ⟨providerNode, none⟩
  | definition {target : BoundImportTarget} {symbol : BoundImportSymbolTarget}
      {providerNode : ModuleNode} {declaration : Declaration}
      (hsymbol : target.symbolTarget = some symbol)
      (hprovider : moduleOfKey nodes symbol.moduleKey = some providerNode)
      (hdeclaration : topLevelOf providerNode symbol.symbolName = some declaration)
      (hdefinition : declaration.kind ≠ .importDecl) :
      LeadsToTarget target ⟨providerNode, some declaration⟩
  | reexport {target next : BoundImportTarget} {symbol : BoundImportSymbolTarget}
      {providerNode : ModuleNode} {declaration : Declaration}
      {found : ImportedSymbolSemanticTarget}
      (hsymbol : target.symbolTarget = some symbol)
      (hprovider : moduleOfKey nodes symbol.moduleKey = some providerNode)
      (hdeclaration : topLevelOf providerNode symbol.symbolName = some declaration)
      (hnext : declarationImportTargetRef declaration = some next)
      (hfound : LeadsToTarget next found) : LeadsToTarget target found

/-- A graph from the binder in which a submodule shares its name with no declaration of its
package but an import of the submodule. -/
structure NoSubmoduleClash : Prop where
  bound : ∀ node ∈ nodes, node.IsBound
  no_clash : ∀ node ∈ nodes, ∀ declaration ∈ node.declarations, declaration.owner = none →
    ∀ submodule ∈ nodes, submodule.moduleKey = node.moduleKey ++ "." ++ declaration.name →
      ∃ target, declarationImportTargetRef declaration = some target
        ∧ target.moduleTarget = submodule.moduleKey

/-- The declaration a module imports a local name by. -/
def importOf (node : ModuleNode) (localName : String) : Option BoundImportTarget :=
  (node.declarations.find? fun declaration =>
    declaration.kind = .importDecl && declaration.name = localName).bind declarationImportTargetRef

/-- The checker's target of a local name is the given one, and so are the function, the class
and the alias it provides. -/
def ResolvesTo (node : ModuleNode) (localName : String)
    (expected : Option ImportedSymbolSemanticTarget) : Prop :=
  let resolved := resolveImportedSymbolSemanticTarget node nodes localName
  resolved = expected
    ∧ resolved.bind ImportedSymbolSemanticTarget.functionProvider
        = expected.bind ImportedSymbolSemanticTarget.functionProvider
    ∧ resolved.bind ImportedSymbolSemanticTarget.classProvider
        = expected.bind ImportedSymbolSemanticTarget.classProvider
    ∧ resolved.bind ImportedSymbolSemanticTarget.typeAliasProvider
        = expected.bind ImportedSymbolSemanticTarget.typeAliasProvider

/-- A local name that is imported resolves to what its import leads to, and to nothing if that
is nothing. -/
def ResolvesThroughReexports (node : ModuleNode) (localName : String) : Prop :=
  ∀ target, importOf node localName = some target →
    (∀ found, LeadsToTarget nodes target found → ResolvesTo nodes node localName (some found))
    ∧ ((∀ found, ¬LeadsToTarget nodes target found) → ResolvesTo nodes node localName none)

/-- What is imported is itself an import of the module it is imported from, and no module. -/
def ImportsAnImport (target : BoundImportTarget) : Prop :=
  moduleOfKey nodes target.moduleTarget = none
    ∧ ∃ symbol providerNode declaration, target.symbolTarget = some symbol
      ∧ moduleOfKey nodes symbol.moduleKey = some providerNode
      ∧ topLevelOf providerNode symbol.symbolName = some declaration
      ∧ declaration.kind = .importDecl

end

variable {nodes : List ModuleNode} {node : ModuleNode} {localName : String}
  {target : BoundImportTarget} {found : ImportedSymbolSemanticTarget}

theorem resolvesTo_iff {expected : Option ImportedSymbolSemanticTarget} :
    ResolvesTo nodes node localName expected
      ↔ resolveImportedSymbolSemanticTarget node nodes localName = expected := by
  constructor
  · exact And.left
  · intro h
    simp only [ResolvesTo, h, and_self]

/-! ## What the checker resolves -/

variable {providerNode : ModuleNode}

theorem resolve_of_module (himport : importOf node localName = some target)
    (hmodule : moduleOfKey nodes target.moduleTarget = some providerNode) :
    resolveImportedSymbolSemanticTarget node nodes localName = some ⟨providerNode, none⟩ := by
  obtain ⟨declaration, hdeclaration, htarget⟩ := Option.bind_eq_some_iff.1 himport
  unfold moduleOfKey at hmodule
  simp [resolveImportedSymbolSemanticTarget, hdeclaration,
    resolveImportedSymbolSemanticTargetFromDeclaration, htarget, hmodule]

/-- An import of no module takes the declaration of that name in the module it names. -/
theorem resolve_eq_some_iff (himport : importOf node localName = some target)
    (hmodule : moduleOfKey nodes target.moduleTarget = none) :
    resolveImportedSymbolSemanticTarget node nodes localName = some found
      ↔ ∃ symbol declaration, target.symbolTarget = some symbol
        ∧ moduleOfKey nodes symbol.moduleKey = some found.providerNode
        ∧ topLevelOf found.providerNode symbol.symbolName = some declaration
        ∧ found.targetDeclaration = some declaration := by
  obtain ⟨declaration, hdeclaration, htarget⟩ := Option.bind_eq_some_iff.1 himport
  unfold moduleOfKey at hmodule
  simp only [resolveImportedSymbolSemanticTarget, hdeclaration, Option.bind_eq_bind,
    Option.bind_some, resolveImportedSymbolSemanticTargetFromDeclaration, htarget, hmodule,
    Option.bind_eq_some_iff, Option.pure_def, Option.some.injEq]
  constructor
  · rintro ⟨symbol, hsymbol, providerNode, hprovider, declaration, hname, rfl⟩
    exact ⟨symbol, declaration, hsymbol, hprovider, hname, rfl⟩
  · rintro ⟨symbol, declaration, hsymbol, hprovider, hname, hfound⟩
    refine ⟨symbol, hsymbol, found.providerNode, hprovider, declaration, hname, ?_⟩
    rw [← hfound]

/-! ## What the chain leads to -/

variable {declaration : Declaration}

/-- A chain ends at a module or at a definition. -/
theorem LeadsToTarget.not_import (h : LeadsToTarget nodes target found)
    (hdeclaration : found.targetDeclaration = some declaration) :
    declaration.kind ≠ .importDecl := by
  induction h with
  | wholeModule _ => exact absurd hdeclaration (by simp)
  | definition _ _ _ hdefinition => exact Option.some.inj hdeclaration ▸ hdefinition
  | reexport _ _ _ _ _ ih => exact ih hdeclaration

theorem mem_of_moduleOf {moduleKey : String} (h : moduleOfKey nodes moduleKey = some node) :
    node ∈ nodes ∧ node.moduleKey = moduleKey := by
  unfold moduleOfKey at h
  have hkey := List.find?_some h
  exact ⟨List.mem_of_find?_eq_some h, of_decide_eq_true hkey⟩

theorem mem_of_topLevelOf {name : String} (h : topLevelOf node name = some declaration) :
    declaration ∈ node.declarations ∧ declaration.owner = none ∧ declaration.name = name := by
  have hfound := List.find?_some h
  simp only [Bool.and_eq_true, Option.isNone_iff_eq_none, decide_eq_true_eq] at hfound
  exact ⟨List.mem_of_find?_eq_some h, hfound⟩

/-- The target of an import is built from its text. -/
theorem NoSubmoduleClash.target_eq (h : NoSubmoduleClash nodes) (hnode : node ∈ nodes)
    (hdeclaration : declaration ∈ node.declarations)
    (htarget : declarationImportTargetRef declaration = some target) :
    ∃ rawTarget, target = .new rawTarget := by
  have hbound := h.bound node hnode declaration hdeclaration
  unfold declarationImportTargetRef at htarget
  split at htarget
  · next hkind =>
      unfold Declaration.IsBound at hbound
      rw [hkind] at hbound
      obtain ⟨⟨rawTarget, hmetadata⟩, -⟩ := hbound
      refine ⟨rawTarget, ?_⟩
      rw [Declaration.importTarget, hmetadata] at htarget
      exact (Option.some.inj htarget).symm
  · cases htarget

variable {rawTarget : String}

/-- The text of an import is the module and the name in it. -/
theorem moduleTarget_eq {symbol : BoundImportSymbolTarget}
    (hsymbol : (BoundImportTarget.new rawTarget).symbolTarget = some symbol) :
    (BoundImportTarget.new rawTarget).moduleTarget
      = symbol.moduleKey ++ "." ++ symbol.symbolName := by
  obtain ⟨⟨moduleKey, symbolName⟩, hsplit, rfl⟩ := Option.map_eq_some_iff.1 hsymbol
  show rawTarget = _
  rw [← String.toList_inj]
  simp [rsplitOnce_eq hsplit]

/-- What a package declares under the name of a submodule is an import of it. -/
theorem NoSubmoduleClash.submodule_import (hgraph : NoSubmoduleClash nodes)
    {symbol : BoundImportSymbolTarget} {packageNode : ModuleNode}
    (hmodule : moduleOfKey nodes (BoundImportTarget.new rawTarget).moduleTarget = some providerNode)
    (hsymbol : (BoundImportTarget.new rawTarget).symbolTarget = some symbol)
    (hpackage : moduleOfKey nodes symbol.moduleKey = some packageNode)
    (hdeclaration : topLevelOf packageNode symbol.symbolName = some declaration) :
    ∃ next, declarationImportTargetRef declaration = some (.new next)
      ∧ (BoundImportTarget.new next).moduleTarget = (BoundImportTarget.new rawTarget).moduleTarget := by
  obtain ⟨hmem, hkey⟩ := mem_of_moduleOf hpackage
  obtain ⟨hdeclMem, howner, hname⟩ := mem_of_topLevelOf hdeclaration
  obtain ⟨hsubmodule, hsubmoduleKey⟩ := mem_of_moduleOf hmodule
  have hkeys : providerNode.moduleKey = packageNode.moduleKey ++ "." ++ declaration.name := by
    rw [hsubmoduleKey, hkey, hname]
    exact moduleTarget_eq hsymbol
  obtain ⟨target, htarget, htargetKey⟩ :=
    hgraph.no_clash packageNode hmem declaration hdeclMem howner providerNode hsubmodule hkeys
  obtain ⟨next, rfl⟩ := hgraph.target_eq hmem hdeclMem htarget
  exact ⟨next, htarget, htargetKey.trans hsubmoduleKey⟩

/-- An import of a module of the graph leads to that module only. -/
theorem LeadsToTarget.eq_module (hgraph : NoSubmoduleClash nodes)
    (h : LeadsToTarget nodes target found) (htarget : target = .new rawTarget)
    (hmodule : moduleOfKey nodes target.moduleTarget = some providerNode) :
    found = ⟨providerNode, none⟩ := by
  induction h generalizing rawTarget with
  | wholeModule hmodule' => rw [Option.some.inj (hmodule'.symm.trans hmodule)]
  | definition hsymbol hprovider hdeclaration hdefinition =>
    subst htarget
    obtain ⟨next, hnext, -⟩ := hgraph.submodule_import hmodule hsymbol hprovider hdeclaration
    unfold declarationImportTargetRef at hnext
    rw [if_neg hdefinition] at hnext
    cases hnext
  | reexport hsymbol hprovider hdeclaration hnext _ ih =>
    subst htarget
    obtain ⟨next, hnext', hkey⟩ := hgraph.submodule_import hmodule hsymbol hprovider hdeclaration
    obtain rfl := Option.some.inj (hnext.symm.trans hnext')
    exact ih rfl (hkey ▸ hmodule)

theorem target_of_importOf (hgraph : NoSubmoduleClash nodes) (hnode : node ∈ nodes)
    (himport : importOf node localName = some target) : ∃ rawTarget, target = .new rawTarget := by
  obtain ⟨declaration, hdeclaration, htarget⟩ := Option.bind_eq_some_iff.1 himport
  exact hgraph.target_eq hnode (List.mem_of_find?_eq_some hdeclaration) htarget

/-- A name that is imported once resolves to what its import leads to. -/
theorem resolve_of_leadsToTarget (hgraph : NoSubmoduleClash nodes) (hnode : node ∈ nodes)
    (himport : importOf node localName = some target) (honce : ¬ImportsAnImport nodes target)
    (h : LeadsToTarget nodes target found) :
    resolveImportedSymbolSemanticTarget node nodes localName = some found := by
  cases hmodule : moduleOfKey nodes target.moduleTarget with
  | some providerNode =>
    obtain ⟨rawTarget, htarget⟩ := target_of_importOf hgraph hnode himport
    rw [h.eq_module hgraph htarget hmodule]
    exact resolve_of_module himport hmodule
  | none =>
    rw [resolve_eq_some_iff himport hmodule]
    cases h with
    | wholeModule hmodule' => rw [hmodule] at hmodule'; cases hmodule'
    | definition hsymbol hprovider hdeclaration _ =>
      exact ⟨_, _, hsymbol, hprovider, hdeclaration, rfl⟩
    | @reexport _ next symbol providerNode declaration _ hsymbol hprovider hdeclaration hnext _ =>
      have hkind : declaration.kind = .importDecl := by
        unfold declarationImportTargetRef at hnext
        split at hnext
        · assumption
        · cases hnext
      exact absurd ⟨hmodule, symbol, providerNode, declaration, hsymbol, hprovider,
        hdeclaration, hkind⟩ honce

/-- A name that is imported once and leads nowhere is not resolved. -/
theorem resolve_of_not_leadsToTarget (himport : importOf node localName = some target)
    (honce : ¬ImportsAnImport nodes target) (h : ∀ found, ¬LeadsToTarget nodes target found) :
    resolveImportedSymbolSemanticTarget node nodes localName = none := by
  have hmodule : moduleOfKey nodes target.moduleTarget = none := by
    cases hmodule : moduleOfKey nodes target.moduleTarget with
    | none => rfl
    | some providerNode => exact absurd (.wholeModule hmodule) (h _)
  cases hresolve : resolveImportedSymbolSemanticTarget node nodes localName with
  | none => rfl
  | some found =>
    obtain ⟨symbol, declaration, hsymbol, hprovider, hdeclaration, -⟩ :=
      (resolve_eq_some_iff himport hmodule).1 hresolve
    by_cases hkind : declaration.kind = .importDecl
    · exact absurd ⟨hmodule, symbol, _, declaration, hsymbol, hprovider, hdeclaration, hkind⟩ honce
    · exact absurd (.definition hsymbol hprovider hdeclaration hkind) (h _)

/-- An imported name resolves through re-exports exactly if what it names in the module it is
imported from is no import: one step is followed, and no more. -/
theorem resolvesThroughReexports_iff (hgraph : NoSubmoduleClash nodes) (hnode : node ∈ nodes) :
    ResolvesThroughReexports nodes node localName
      ↔ ∀ target, importOf node localName = some target → ¬ImportsAnImport nodes target := by
  constructor
  · rintro hresolves target himport ⟨hmodule, symbol, providerNode, declaration, hsymbol,
      hprovider, hdeclaration, hkind⟩
    -- the checker stops at the import
    have hresolve : resolveImportedSymbolSemanticTarget node nodes localName
        = some ⟨providerNode, some declaration⟩ :=
      (resolve_eq_some_iff himport hmodule).2
        ⟨symbol, declaration, hsymbol, hprovider, hdeclaration, rfl⟩
    obtain ⟨hfound, hnothing⟩ := hresolves target himport
    by_cases hleads : ∃ found, LeadsToTarget nodes target found
    · obtain ⟨found, hleads⟩ := hleads
      have heq := (hfound found hleads).1
      rw [hresolve, Option.some.injEq] at heq
      exact hleads.not_import (by rw [← heq]) hkind
    · have hnone := (hnothing (not_exists.1 hleads)).1
      rw [hresolve] at hnone
      cases hnone
  · intro honce target himport
    refine ⟨fun found h => resolvesTo_iff.2 ?_, fun h => resolvesTo_iff.2 ?_⟩
    · exact resolve_of_leadsToTarget hgraph hnode himport (honce target himport) h
    · exact resolve_of_not_leadsToTarget himport (honce target himport) h

/-! ## A class imported twice -/

/-- `from rawTarget import C`, with the module and the name in one text. -/
def importOfC (rawTarget : String) : Declaration :=
  { name := "C", kind := .importDecl, metadata := .importDecl (.new rawTarget) }

def classC : Declaration :=
  { name := "C", kind := .classDecl, metadata := .classDecl [] }

/-- `defs` defines a class, `api` imports it from there, and `app` imports it from `api`. -/
def defsModule : ModuleNode where
  moduleKey := "defs"
  declarations := [classC]

def reexportingModule : ModuleNode where
  moduleKey := "api"
  declarations := [importOfC "defs.C"]

def importingModule : ModuleNode where
  moduleKey := "app"
  declarations := [importOfC "api.C"]

def reexportingModules : List ModuleNode := [defsModule, reexportingModule, importingModule]

theorem reexportingModules_noClash : NoSubmoduleClash reexportingModules where
  bound := by
    intro node hnode declaration hdeclaration
    simp only [reexportingModules, List.mem_cons, List.not_mem_nil, or_false] at hnode
    rcases hnode with rfl | rfl | rfl <;> rw [List.mem_singleton.1 hdeclaration]
    · exact ⟨⟨[], rfl⟩, rfl⟩
    · exact ⟨⟨"defs.C", rfl⟩, rfl⟩
    · exact ⟨⟨"api.C", rfl⟩, rfl⟩
  no_clash := by
    intro node hnode declaration hdeclaration _ submodule hsubmodule hkey
    -- no key of a module has a dot
    have hdot : ∀ provider ∈ reexportingModules, '.' ∉ provider.moduleKey.toList := by decide
    refine absurd ?_ (hdot submodule hsubmodule)
    rw [hkey]
    simp

/-- `api` imports the class from where it is defined. -/
theorem api_resolves : ResolvesThroughReexports reexportingModules reexportingModule "C" := by
  refine (resolvesThroughReexports_iff reexportingModules_noClash
    (by simp [reexportingModules])).2 ?_
  rintro target htarget ⟨-, symbol, providerNode, declaration, hsymbol, hprovider,
    hdeclaration, hkind⟩
  have himport : importOf reexportingModule "C" = some (.new "defs.C") := by decide
  obtain rfl := Option.some.inj (himport.symm.trans htarget)
  have hnames : (BoundImportTarget.new "defs.C").symbolTarget = some ⟨"defs", "C"⟩ := by decide
  obtain rfl := Option.some.inj (hnames.symm.trans hsymbol)
  have hdefs : moduleOfKey reexportingModules "defs" = some defsModule := rfl
  obtain rfl := Option.some.inj (hdefs.symm.trans hprovider)
  have hclass : topLevelOf defsModule "C" = some classC := rfl
  obtain rfl := Option.some.inj (hclass.symm.trans hdeclaration)
  exact absurd hkind (by decide)

/-- `app` imports it from `api`, and finds no class. -/
theorem app_not_resolves : NoSubmoduleClash reexportingModules
    ∧ ¬ResolvesThroughReexports reexportingModules importingModule "C" := by
  refine ⟨reexportingModules_noClash, fun hresolves => ?_⟩
  have himport : importOf importingModule "C" = some (.new "api.C") := by decide
  have hdefs : LeadsToTarget reexportingModules (.new "defs.C") ⟨defsModule, some classC⟩ :=
    by
    have hsymbol : (BoundImportTarget.new "defs.C").symbolTarget = some ⟨"defs", "C"⟩ := by decide
    exact .definition hsymbol rfl rfl (by decide)
  have hleads : LeadsToTarget reexportingModules (.new "api.C") ⟨defsModule, some classC⟩ :=
    by
    have hsymbol : (BoundImportTarget.new "api.C").symbolTarget = some ⟨"api", "C"⟩ := by decide
    exact .reexport hsymbol rfl rfl rfl hdefs
  have hclass := ((hresolves _ himport).1 _ hleads).2.2.1
  have hnone : (resolveImportedSymbolSemanticTarget importingModule reexportingModules "C").bind
      ImportedSymbolSemanticTarget.classProvider = none := rfl
  rw [hnone] at hclass
  cases hclass

end TypePython.Checking
