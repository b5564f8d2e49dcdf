import TypePython.Binding.Graph
import TypePython.Lib.SortDedup
import Std.Data.ExtTreeMap
import Std.Data.ExtTreeSet

/-!
# The module dependency index

Which modules each module imports, and which modules import it. The index is built from
the bound import declarations of a module graph, or rebuilt from the public summaries of a
persisted snapshot. Both functions build the same index, although the summaries sort and
deduplicate the import targets (`dependencyIndex_eq_from_snapshot`).
-/

namespace TypePython.Incremental

open Std
open TypePython.Lib
open TypePython.Lib.Text
open TypePython.Binding

/-! ## The model -/

/-- A `BTreeSet` of module keys. -/
abbrev ModuleSet := ExtTreeSet String

/-- A `BTreeMap` from module keys to sets of them. -/
abbrev ModuleMap := ExtTreeMap String ModuleSet

/-- An import target as the summary of a module holds it. -/
structure SummaryImportSymbolTarget where
  moduleKey : String
  symbolName : String
deriving DecidableEq, Repr

structure SummaryImportTarget where
  rawTarget : String
  moduleTarget : String
  symbolTarget : Option SummaryImportSymbolTarget
deriving DecidableEq, Repr

/-- The imports of a module in its public summary. -/
structure PublicSummary where
  module : String
  imports : List String
  importTargets : List SummaryImportTarget
deriving DecidableEq, Repr

structure ModuleDependencyIndex where
  importsByModule : ModuleMap
  reverseImports : ModuleMap

/-- The loop over the parents of a dotted name, the longest first. -/
def resolveParent (moduleKeys : ModuleSet) : Nat → Chars → Option String
  | 0, _ => none
  | fuel + 1, current =>
    match rsplitOnce '.' current with
    | none => none
    | some (parent, _) =>
      if String.ofList parent ∈ moduleKeys then some (String.ofList parent)
      else resolveParent moduleKeys fuel parent

/-- The module a dotted name refers to: the name itself, else its longest parent. -/
def resolveImportModuleKey (detail : String) (moduleKeys : ModuleSet) : Option String :=
  if detail ∈ moduleKeys then some detail
  else resolveParent moduleKeys (detail.toList.length + 1) detail.toList

/-- The top-level import targets of a module, in declaration order. -/
def importTargetsOf (declarations : List Declaration) : List BoundImportTarget :=
  ((declarations.filter fun declaration => declaration.owner.isNone).filter fun declaration =>
    declaration.kind = .importDecl).filterMap Declaration.importTarget

/-- The modules some import targets resolve to. -/
def resolveAll (moduleKeys : ModuleSet) (targets : List String) : ModuleSet :=
  ExtTreeSet.ofList (targets.filterMap fun target => resolveImportModuleKey target moduleKeys)

/-- The modules a map holds for a key; none when the key is missing. -/
def modulesOf (map : ModuleMap) (key : String) : ModuleSet :=
  map.getD key ∅

/-- Add `moduleKey` to the importers of `imported`. -/
def addImporter (moduleKey : String) (reverse : ModuleMap)
    (imported : String) : ModuleMap :=
  reverse.insert imported ((modulesOf reverse imported).insert moduleKey)

/-- Record the imports of one module in both maps. -/
def ModuleDependencyIndex.record (index : ModuleDependencyIndex)
    (entry : String × ModuleSet) : ModuleDependencyIndex where
  importsByModule := index.importsByModule.insert entry.1 entry.2
  reverseImports := entry.2.toList.foldl (addImporter entry.1) index.reverseImports

/-- Both maps with every module and no import. -/
def ModuleDependencyIndex.empty (moduleKeys : List String) : ModuleDependencyIndex where
  importsByModule := moduleKeys.foldl (fun map moduleKey => map.insert moduleKey ∅) ∅
  reverseImports := moduleKeys.foldl (fun map moduleKey => map.insert moduleKey ∅) ∅

/-- Build the index from the bound import declarations. -/
def dependencyIndex (graph : ModuleGraph) : ModuleDependencyIndex :=
  let moduleKeys := ExtTreeSet.ofList (graph.nodes.map ModuleNode.moduleKey)
  let entries := graph.nodes.map fun node =>
    (node.moduleKey,
      resolveAll moduleKeys ((importTargetsOf node.declarations).map BoundImportTarget.moduleTarget))
  entries.foldl ModuleDependencyIndex.record
    (.empty (graph.nodes.map ModuleNode.moduleKey))

/-- The targets of a summary: its structured import targets, else its raw imports. -/
def PublicSummary.targets (summary : PublicSummary) : List String :=
  if summary.importTargets = [] then summary.imports
  else summary.importTargets.map SummaryImportTarget.moduleTarget

/-- Rebuild the index from persisted public summaries. -/
def dependencyIndexFromSummaries (summaries : List PublicSummary) : ModuleDependencyIndex :=
  let moduleKeys := ExtTreeSet.ofList (summaries.map PublicSummary.module)
  let entries := summaries.map fun summary =>
    (summary.module, resolveAll moduleKeys summary.targets)
  entries.foldl ModuleDependencyIndex.record (.empty moduleKeys.toList)

def summaryImportTarget (target : BoundImportTarget) : SummaryImportTarget where
  rawTarget := target.rawTarget
  moduleTarget := target.moduleTarget
  symbolTarget := target.symbolTarget.map fun symbol => ⟨symbol.moduleKey, symbol.symbolName⟩

/-- The imports of a module, sorted and deduplicated by raw target. -/
def publicSummary (node : ModuleNode) : PublicSummary where
  module := node.moduleKey
  imports :=
    dedupBy id (sortBy id ((importTargetsOf node.declarations).map BoundImportTarget.rawTarget))
  importTargets :=
    dedupBy SummaryImportTarget.rawTarget
      (sortBy SummaryImportTarget.rawTarget
        ((importTargetsOf node.declarations).map summaryImportTarget))

/-- The summaries of a snapshot, sorted by module. -/
def snapshotSummaries (graph : ModuleGraph) : List PublicSummary :=
  sortBy PublicSummary.module (graph.nodes.map publicSummary)

/-! ## Recording one module -/

theorem ModuleDependencyIndex.ext_getElem? {index index' : ModuleDependencyIndex}
    (himports : ∀ key : String, index.importsByModule[key]? = index'.importsByModule[key]?)
    (hreverse : ∀ key : String, index.reverseImports[key]? = index'.reverseImports[key]?) :
    index = index' := by
  cases index
  cases index'
  rw [ModuleDependencyIndex.mk.injEq]
  constructor
  · exact ExtTreeMap.ext_getElem? himports
  · exact ExtTreeMap.ext_getElem? hreverse

theorem modulesOf_eq (map : ModuleMap) (key : String) :
    modulesOf map key = map[key]?.getD ∅ :=
  ExtTreeMap.getD_eq_getD_getElem?

theorem insert_insert_comm (modules : ModuleSet) (a b : String) :
    (modules.insert a).insert b = (modules.insert b).insert a := by
  refine ExtTreeSet.ext_mem fun key => ?_
  simp only [ExtTreeSet.mem_insert]
  tauto

theorem insert_insert_self (modules : ModuleSet) (a : String) :
    (modules.insert a).insert a = modules.insert a := by
  refine ExtTreeSet.ext_mem fun key => ?_
  simp only [ExtTreeSet.mem_insert]
  tauto

theorem getElem?_addImporter (moduleKey imported key : String)
    (reverse : ModuleMap) :
    (addImporter moduleKey reverse imported)[key]? =
      if imported = key then some ((modulesOf reverse key).insert moduleKey)
      else reverse[key]? := by
  by_cases h : imported = key
  · subst h
    simp [addImporter]
  · simp [addImporter, ExtTreeMap.getElem?_insert, h]

theorem getElem?_foldl_addImporter (moduleKey : String) (imported : List String)
    (reverse : ModuleMap) (key : String) :
    (imported.foldl (addImporter moduleKey) reverse)[key]? =
      if key ∈ imported then some ((modulesOf reverse key).insert moduleKey)
      else reverse[key]? := by
  induction imported generalizing reverse with
  | nil => simp
  | cons target rest ih =>
    rw [List.foldl_cons, ih, modulesOf_eq, getElem?_addImporter]
    by_cases htarget : target = key
    · -- the entry of `key` is extended here, and again at every later occurrence
      subst htarget
      simp [insert_insert_self]
    · have hkey : ¬ key = target := fun h => htarget h.symm
      simp [htarget, hkey, modulesOf_eq]

@[simp] theorem getElem?_importsByModule_record (index : ModuleDependencyIndex)
    (entry : String × ModuleSet) (key : String) :
    (index.record entry).importsByModule[key]? =
      if entry.1 = key then some entry.2 else index.importsByModule[key]? := by
  simp [ModuleDependencyIndex.record, ExtTreeMap.getElem?_insert]

@[simp] theorem getElem?_reverseImports_record (index : ModuleDependencyIndex)
    (entry : String × ModuleSet) (key : String) :
    (index.record entry).reverseImports[key]? =
      if key ∈ entry.2 then some ((modulesOf index.reverseImports key).insert entry.1)
      else index.reverseImports[key]? := by
  simp [ModuleDependencyIndex.record, getElem?_foldl_addImporter]

@[simp] theorem modulesOf_reverseImports_record (index : ModuleDependencyIndex)
    (entry : String × ModuleSet) (key : String) :
    modulesOf (index.record entry).reverseImports key =
      if key ∈ entry.2 then (modulesOf index.reverseImports key).insert entry.1
      else modulesOf index.reverseImports key := by
  rw [modulesOf_eq, getElem?_reverseImports_record]
  split
  · rfl
  · exact (modulesOf_eq _ _).symm

/-- Two modules can be recorded in either order. -/
theorem record_comm (index : ModuleDependencyIndex) {x y : String × ModuleSet}
    (hxy : x.1 ≠ y.1) : (index.record x).record y = (index.record y).record x := by
  refine ModuleDependencyIndex.ext_getElem? (fun key => ?_) (fun key => ?_)
  · simp only [getElem?_importsByModule_record]
    by_cases hx : x.1 = key
    · have hy : ¬ y.1 = key := fun h => hxy (hx.trans h.symm)
      simp [hx, hy]
    · simp [hx]
  · simp only [getElem?_reverseImports_record, modulesOf_reverseImports_record]
    by_cases hx : key ∈ x.2 <;> by_cases hy : key ∈ y.2 <;> simp [hx, hy, insert_insert_comm]

/-- The order in which distinct modules are recorded does not matter. -/
theorem foldl_record_perm {entries entries' : List (String × ModuleSet)}
    (hperm : entries.Perm entries') (hnodup : (entries.map Prod.fst).Nodup)
    (index : ModuleDependencyIndex) :
    entries.foldl ModuleDependencyIndex.record index
      = entries'.foldl ModuleDependencyIndex.record index := by
  induction hperm generalizing index with
  | nil => rfl
  | cons x _ ih =>
    exact ih (List.nodup_cons.1 hnodup).2 _
  | swap x y rest =>
    have hne : y.1 ≠ x.1 := by
      have hmem := (List.nodup_cons.1 hnodup).1
      intro h
      exact hmem (by simp [h])
    simp only [List.foldl_cons, record_comm index hne]
  | trans h₁ _ ih₁ ih₂ =>
    rw [ih₁ hnodup, ih₂ ((h₁.map Prod.fst).nodup_iff.1 hnodup)]

/-! ## The two maps hold the same edges -/

theorem getElem?_foldl_insert_empty (moduleKeys : List String)
    (map : ModuleMap) (key : String) :
    (moduleKeys.foldl (fun map moduleKey => map.insert moduleKey ∅) map)[key]? =
      if key ∈ moduleKeys then some ∅ else map[key]? := by
  induction moduleKeys generalizing map with
  | nil => simp
  | cons moduleKey rest ih =>
    rw [List.foldl_cons, ih, ExtTreeMap.getElem?_insert]
    by_cases h : moduleKey = key
    · subst h
      simp
    · have h' : ¬ key = moduleKey := fun hk => h hk.symm
      simp [h, h']

theorem modulesOf_empty (moduleKeys : List String) (key : String) :
    modulesOf (ModuleDependencyIndex.empty moduleKeys).importsByModule key = ∅
      ∧ modulesOf (ModuleDependencyIndex.empty moduleKeys).reverseImports key = ∅ := by
  simp only [modulesOf_eq, ModuleDependencyIndex.empty, getElem?_foldl_insert_empty]
  split <;> simp

/-! ## The index of a snapshot -/

/-- The import targets of every declaration are built by `BoundImportTarget.new`. -/
def TargetsBound (graph : ModuleGraph) : Prop :=
  ∀ node ∈ graph.nodes, ∀ declaration ∈ node.declarations,
    ∀ target ∈ declaration.importTarget, target = BoundImportTarget.new target.rawTarget

instance (graph : ModuleGraph) : Decidable (TargetsBound graph) :=
  inferInstanceAs (Decidable (∀ node ∈ graph.nodes, ∀ declaration ∈ node.declarations,
    ∀ target ∈ declaration.importTarget, target = BoundImportTarget.new target.rawTarget))

theorem mem_importTargetsOf {declarations : List Declaration} {target : BoundImportTarget}
    (h : target ∈ importTargetsOf declarations) :
    ∃ declaration ∈ declarations, declaration.importTarget = some target := by
  obtain ⟨declaration, hmem, htarget⟩ := List.mem_filterMap.1 h
  exact ⟨declaration, List.mem_of_mem_filter (List.mem_of_mem_filter hmem), htarget⟩

/-- Only which targets occur matters to the modules they resolve to. -/
theorem resolveAll_congr (moduleKeys : ModuleSet) {targets targets' : List String}
    (h : ∀ target, target ∈ targets ↔ target ∈ targets') :
    resolveAll moduleKeys targets = resolveAll moduleKeys targets' := by
  refine ExtTreeSet.ext_mem fun key => ?_
  simp [resolveAll, ExtTreeSet.mem_ofList, List.mem_filterMap, h]

/-- The targets of a module's summary are the module targets of its declarations. -/
theorem mem_targets_publicSummary (node : ModuleNode)
    (hbound : ∀ target ∈ importTargetsOf node.declarations, target.moduleTarget = target.rawTarget)
    (name : String) :
    name ∈ (publicSummary node).targets
      ↔ name ∈ (importTargetsOf node.declarations).map BoundImportTarget.moduleTarget := by
  by_cases hempty : importTargetsOf node.declarations = []
  · simp [PublicSummary.targets, publicSummary, hempty, sortBy, dedupBy]
  · have hsummary : (publicSummary node).importTargets ≠ [] := by
      intro h
      have hsorted := (dedupBy_eq_nil_iff _ _).1 h
      have hlength := (perm_sortBy SummaryImportTarget.rawTarget
        ((importTargetsOf node.declarations).map summaryImportTarget)).length_eq
      rw [hsorted] at hlength
      exact hempty (List.length_eq_zero_iff.1 (by simpa using hlength.symm))
    -- module target and raw target agree, and the raw targets are the keys of the list
    have hraw : ∀ target ∈ (publicSummary node).importTargets,
        target.moduleTarget = target.rawTarget := by
      intro target htarget
      have hmem := (perm_sortBy _ _).mem_iff.1 (mem_of_mem_dedupBy _ _ htarget)
      obtain ⟨bound, hboundmem, rfl⟩ := List.mem_map.1 hmem
      exact hbound bound hboundmem
    have hkeys := exists_mem_dedupBy_sortBy SummaryImportTarget.rawTarget
      ((importTargetsOf node.declarations).map summaryImportTarget) name
    rw [PublicSummary.targets, if_neg hsummary, List.mem_map, List.mem_map]
    constructor
    · rintro ⟨target, htarget, rfl⟩
      obtain ⟨a, ha, haraw⟩ := hkeys.1 ⟨target, htarget, (hraw target htarget).symm⟩
      obtain ⟨bound, hboundmem, rfl⟩ := List.mem_map.1 ha
      exact ⟨bound, hboundmem, (hbound bound hboundmem).trans haraw⟩
    · rintro ⟨bound, hboundmem, rfl⟩
      obtain ⟨target, htarget, hname⟩ := hkeys.2
        ⟨_, List.mem_map_of_mem hboundmem, (hbound bound hboundmem).symm⟩
      exact ⟨target, htarget, (hraw target htarget).trans hname⟩

theorem ofList_perm {keys keys' : List String} (h : keys.Perm keys') :
    ExtTreeSet.ofList keys = ExtTreeSet.ofList keys' := by
  refine ExtTreeSet.ext_mem fun key => ?_
  simp [ExtTreeSet.mem_ofList, h.mem_iff]

theorem empty_perm {keys keys' : List String} (h : ∀ key, key ∈ keys ↔ key ∈ keys') :
    ModuleDependencyIndex.empty keys = ModuleDependencyIndex.empty keys' := by
  refine ModuleDependencyIndex.ext_getElem? (fun key => ?_) (fun key => ?_) <;>
    simp only [ModuleDependencyIndex.empty, getElem?_foldl_insert_empty, h]

/-- The index rebuilt from the persisted snapshot is the index of the module graph. -/
theorem dependencyIndex_eq_from_snapshot (graph : ModuleGraph)
    (hkeys : (graph.nodes.map ModuleNode.moduleKey).Nodup) (hbound : TargetsBound graph) :
    dependencyIndexFromSummaries (snapshotSummaries graph) = dependencyIndex graph := by
  have hperm := perm_sortBy PublicSummary.module (graph.nodes.map publicSummary)
  have hmodules : ((snapshotSummaries graph).map PublicSummary.module).Perm
      (graph.nodes.map ModuleNode.moduleKey) := by
    simpa [snapshotSummaries, Function.comp_def, publicSummary] using
      hperm.map PublicSummary.module
  have hset := ofList_perm hmodules
  -- every summary resolves to the modules its node resolves to
  have hentry : ∀ node ∈ graph.nodes, ∀ moduleKeys,
      resolveAll moduleKeys (publicSummary node).targets = resolveAll moduleKeys
        ((importTargetsOf node.declarations).map BoundImportTarget.moduleTarget) := by
    intro node hnode moduleKeys
    refine resolveAll_congr moduleKeys (mem_targets_publicSummary node ?_)
    intro target htarget
    obtain ⟨declaration, hdecl, hsome⟩ := mem_importTargetsOf htarget
    rw [hbound node hnode declaration hdecl target hsome]
    rfl
  have hentries : ((snapshotSummaries graph).map fun summary => (summary.module,
        resolveAll (ExtTreeSet.ofList (graph.nodes.map ModuleNode.moduleKey)) summary.targets)).Perm
      (graph.nodes.map fun node => (node.moduleKey,
        resolveAll (ExtTreeSet.ofList (graph.nodes.map ModuleNode.moduleKey))
          ((importTargetsOf node.declarations).map BoundImportTarget.moduleTarget))) := by
    refine (hperm.map _).trans (List.Perm.of_eq ?_)
    rw [List.map_map]
    exact List.map_congr_left fun node hnode => by
      simp only [Function.comp_apply, hentry node hnode]
      rfl
  have hempty : ModuleDependencyIndex.empty
        (ExtTreeSet.ofList (graph.nodes.map ModuleNode.moduleKey)).toList
      = ModuleDependencyIndex.empty (graph.nodes.map ModuleNode.moduleKey) :=
    empty_perm fun key => by simp [ExtTreeSet.mem_toList, ExtTreeSet.mem_ofList]
  have hnodup : (((snapshotSummaries graph).map fun summary => (summary.module,
        resolveAll (ExtTreeSet.ofList (graph.nodes.map ModuleNode.moduleKey))
          summary.targets)).map Prod.fst).Nodup := by
    rw [List.map_map]
    exact hmodules.nodup_iff.2 hkeys
  simp only [dependencyIndexFromSummaries, dependencyIndex, hset]
  rw [hempty]
  exact foldl_record_perm hentries hnodup _

/-- A top-level `import` of the given target. -/
def importDeclaration (target : String) : Declaration where
  name := target
  kind := .importDecl
  metadata := .importDecl (.new target)

/-- A package, a module that imports it twice, and a module that closes a cycle. -/
def cyclicGraph : ModuleGraph where
  nodes := [
    { moduleKey := "pkg", declarations := [importDeclaration "pkg.b.run"] },
    { moduleKey := "pkg.b", declarations := [importDeclaration "pkg.a", importDeclaration "os"] },
    { moduleKey := "pkg.a",
      declarations := [importDeclaration "pkg.b", importDeclaration "pkg.Base",
        importDeclaration "pkg.Base"] }]

theorem cyclicGraph_index_eq_from_snapshot :
    dependencyIndexFromSummaries (snapshotSummaries cyclicGraph) = dependencyIndex cyclicGraph :=
  dependencyIndex_eq_from_snapshot cyclicGraph (by decide) (by decide)

end TypePython.Incremental
