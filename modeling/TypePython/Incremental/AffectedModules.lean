import TypePython.Incremental.DependencyIndex
import TypePython.Lib.Worklist

/-!
# Recheck planning

After an incremental update, the modules to recheck are the ones that changed directly and
everything downstream of a module whose public summary changed. The planner is the worklist
of `TypePython.Lib.Worklist` over the importers of a module in the previous and in the
current index.

* `affectedModules_exact`: the planner ends, and its result is exactly the direct changes, the
  changed summaries that still exist, and what reaches a changed summary over import edges.
-/

namespace TypePython.Incremental

open Std
open TypePython.Lib
open TypePython.Binding

/-- The importers of a module in the current index and, when there is one, in the previous. -/
def reverseImporters (previousIndex : Option ModuleDependencyIndex)
    (currentIndex : ModuleDependencyIndex) (moduleKey : String) : ModuleSet :=
  let importers := modulesOf currentIndex.reverseImports moduleKey
  match previousIndex with
  | none => importers
  | some previousIndex => importers ∪ modulesOf previousIndex.reverseImports moduleKey

/-- What the planner starts from: the direct changes and the changed summaries of modules
that still exist. -/
def initiallyAffected (currentIndex : ModuleDependencyIndex)
    (directChanges summaryChangedModules : ModuleSet) : ModuleSet :=
  summaryChangedModules.toList.foldl
    (fun affected moduleKey =>
      if moduleKey ∈ currentIndex.importsByModule then affected.insert moduleKey else affected)
    directChanges

/-- The planner; `none` when `fuel` rounds of its loop are not enough. -/
def affectedModules (fuel : Nat) (previousIndex : Option ModuleDependencyIndex)
    (currentIndex : ModuleDependencyIndex) (directChanges summaryChangedModules : ModuleSet) :
    Option ModuleSet :=
  let importers := fun moduleKey => (reverseImporters previousIndex currentIndex moduleKey).toList
  (Worklist.run importers fuel
    { queue := summaryChangedModules.toList
      visited := summaryChangedModules
      found := initiallyAffected currentIndex directChanges summaryChangedModules }).map
    Worklist.St.found

/-! ## Import edges -/

/-- `importer` imports `imported` according to one index. -/
def ModuleDependencyIndex.ImportEdge (index : ModuleDependencyIndex)
    (importer imported : String) : Prop :=
  importer ∈ modulesOf index.reverseImports imported

/-- `importer` imports `imported` in the previous or in the current index. -/
def ImportEdge (previousIndex : Option ModuleDependencyIndex)
    (currentIndex : ModuleDependencyIndex) (importer imported : String) : Prop :=
  currentIndex.ImportEdge importer imported
    ∨ ∃ previous ∈ previousIndex, previous.ImportEdge importer imported

theorem mem_reverseImporters (previousIndex : Option ModuleDependencyIndex)
    (currentIndex : ModuleDependencyIndex) (importer imported : String) :
    importer ∈ reverseImporters previousIndex currentIndex imported
      ↔ ImportEdge previousIndex currentIndex importer imported := by
  cases previousIndex with
  | none => simp [reverseImporters, ImportEdge, ModuleDependencyIndex.ImportEdge]
  | some previous =>
    simp [reverseImporters, ImportEdge, ModuleDependencyIndex.ImportEdge,
      ExtTreeSet.mem_union_iff]

theorem mem_foldl_insert_if (keep : String → Prop) [DecidablePred keep] (keys : List String)
    (modules : ModuleSet) (key : String) :
    key ∈ keys.foldl (fun modules k => if keep k then modules.insert k else modules) modules
      ↔ key ∈ modules ∨ (key ∈ keys ∧ keep key) := by
  induction keys generalizing modules with
  | nil => simp
  | cons k rest ih =>
    rw [List.foldl_cons, ih]
    by_cases hk : k = key
    · subst hk
      by_cases hkeep : keep k <;> simp [hkeep]
    · have hk' : ¬ key = k := fun h => hk h.symm
      by_cases hkeep : keep k <;> simp [hkeep, hk, hk']

theorem mem_initiallyAffected (currentIndex : ModuleDependencyIndex)
    (directChanges summaryChangedModules : ModuleSet) (moduleKey : String) :
    moduleKey ∈ initiallyAffected currentIndex directChanges summaryChangedModules
      ↔ moduleKey ∈ directChanges
        ∨ (moduleKey ∈ summaryChangedModules ∧ moduleKey ∈ currentIndex.importsByModule) := by
  rw [initiallyAffected, mem_foldl_insert_if]
  simp [ExtTreeSet.mem_toList]

/-! ## Exactness -/

/-- Every module some map mentions as an importer. -/
def mentioned (map : ModuleMap) : Finset String :=
  (map.toList.flatMap fun entry => entry.2.toList).toFinset

theorem mem_mentioned {map : ModuleMap} {importer imported : String}
    (h : importer ∈ modulesOf map imported) : importer ∈ mentioned map := by
  rw [modulesOf_eq] at h
  cases hentry : map[imported]? with
  | none => simp [hentry] at h
  | some importers =>
    have hmem : importer ∈ importers := by simpa [hentry] using h
    have hpair : (imported, importers) ∈ map.toList :=
      ExtTreeMap.mem_toList_iff_getElem?_eq_some.2 hentry
    rw [mentioned, List.mem_toFinset, List.mem_flatMap]
    exact ⟨_, hpair, by simpa [ExtTreeSet.mem_toList] using hmem⟩

/-- The modules that can ever be queued as importers. -/
def allImporters (previousIndex : Option ModuleDependencyIndex)
    (currentIndex : ModuleDependencyIndex) : Finset String :=
  mentioned currentIndex.reverseImports
    ∪ (previousIndex.map fun index => mentioned index.reverseImports).getD ∅

variable {previousIndex : Option ModuleDependencyIndex} {currentIndex : ModuleDependencyIndex}

theorem mem_allImporters {importer imported : String}
    (h : ImportEdge previousIndex currentIndex importer imported) :
    importer ∈ allImporters previousIndex currentIndex := by
  rw [allImporters, Finset.mem_union]
  rcases h with h | ⟨previous, hprevious, h⟩
  · exact .inl (mem_mentioned h)
  · right
    rw [Option.mem_def.1 hprevious]
    exact mem_mentioned h

/-- `importer` reaches `changed` through one or more import edges. -/
def Reaches (previousIndex : Option ModuleDependencyIndex) (currentIndex : ModuleDependencyIndex) :
    String → String → Prop :=
  Relation.TransGen (ImportEdge previousIndex currentIndex)

/-- More rounds than the planner can take. -/
def plannerFuel (previousIndex : Option ModuleDependencyIndex)
    (currentIndex : ModuleDependencyIndex) (summaryChangedModules : ModuleSet) : Nat :=
  summaryChangedModules.toList.length + (allImporters previousIndex currentIndex).card + 1

/-- With enough rounds the planner ends, and returns the direct changes, the changed summaries
that still exist and every module that reaches a changed summary. -/
theorem affectedModules_spec {directChanges summaryChangedModules : ModuleSet} {fuel : Nat}
    (hfuel : plannerFuel previousIndex currentIndex summaryChangedModules ≤ fuel) :
    ∃ affected, affectedModules fuel previousIndex currentIndex directChanges
        summaryChangedModules = some affected ∧
      ∀ moduleKey, moduleKey ∈ affected ↔
        moduleKey ∈ directChanges
        ∨ (moduleKey ∈ summaryChangedModules ∧ moduleKey ∈ currentIndex.importsByModule)
        ∨ ∃ changed ∈ summaryChangedModules,
            Reaches previousIndex currentIndex moduleKey changed := by
  let importers := fun moduleKey => (reverseImporters previousIndex currentIndex moduleKey).toList
  have hedge : ∀ x y, Worklist.Edge importers x y ↔ ImportEdge previousIndex currentIndex y x := by
    intro x y
    rw [← mem_reverseImporters]
    exact ExtTreeSet.mem_toList
  have hrounds := Worklist.run_spec importers summaryChangedModules
    (initiallyAffected currentIndex directChanges summaryChangedModules)
    (allImporters previousIndex currentIndex)
    (fun x y hy => mem_allImporters ((hedge x y).1 hy))
  rcases hrounds fuel hfuel with ⟨s, hrun, hfound⟩
  refine ⟨s.found, ?_, ?_⟩
  · simp only [affectedModules]
    rw [hrun]
    rfl
  · intro moduleKey
    -- the worklist follows the edges from the imported module to its importers
    have hreach : ∀ changed, Relation.TransGen (Worklist.Edge importers) changed moduleKey
        ↔ Reaches previousIndex currentIndex moduleKey changed := by
      intro changed
      rw [Reaches, ← Relation.transGen_swap]
      have hswap : Worklist.Edge importers
          = Function.swap (ImportEdge previousIndex currentIndex) := by
        funext x y
        exact propext (hedge x y)
      rw [hswap]
    rw [hfound, mem_initiallyAffected, or_assoc]
    simp only [hreach]

/-- The planner, with enough rounds. -/
def planAffectedModules (previousIndex : Option ModuleDependencyIndex)
    (currentIndex : ModuleDependencyIndex) (directChanges summaryChangedModules : ModuleSet) :
    ModuleSet :=
  (affectedModules (plannerFuel previousIndex currentIndex summaryChangedModules) previousIndex
    currentIndex directChanges summaryChangedModules).getD ∅

theorem mem_planAffectedModules {directChanges summaryChangedModules : ModuleSet}
    {moduleKey : String} :
    moduleKey ∈ planAffectedModules previousIndex currentIndex directChanges summaryChangedModules
      ↔ moduleKey ∈ directChanges
        ∨ (moduleKey ∈ summaryChangedModules ∧ moduleKey ∈ currentIndex.importsByModule)
        ∨ ∃ changed ∈ summaryChangedModules,
            Reaches previousIndex currentIndex moduleKey changed := by
  have hfuel := Nat.le_refl (plannerFuel previousIndex currentIndex summaryChangedModules)
  rcases affectedModules_spec hfuel with ⟨affected, hplan, hmem⟩
  rw [planAffectedModules, hplan, Option.getD_some]
  exact hmem moduleKey

/-- Recheck planning is exact: with enough rounds the planner ends, whatever cycles the
imports have, and it returns the direct changes, the changed summaries that still exist and
every module that reaches a changed summary. -/
theorem affectedModules_exact (previousIndex : Option ModuleDependencyIndex)
    (currentIndex : ModuleDependencyIndex) (directChanges summaryChangedModules : ModuleSet) :
    ∃ bound, ∀ fuel, bound ≤ fuel →
      ∃ affected, affectedModules fuel previousIndex currentIndex directChanges
          summaryChangedModules = some affected ∧
        ∀ moduleKey, moduleKey ∈ affected ↔
          moduleKey ∈ directChanges
          ∨ (moduleKey ∈ summaryChangedModules ∧ moduleKey ∈ currentIndex.importsByModule)
          ∨ ∃ changed ∈ summaryChangedModules,
              Reaches previousIndex currentIndex moduleKey changed := by
  refine ⟨plannerFuel previousIndex currentIndex summaryChangedModules, ?_⟩
  intro fuel hfuel
  exact affectedModules_spec hfuel

example : (affectedModules 5 none (dependencyIndex cyclicGraph) ∅
    (ExtTreeSet.ofList ["pkg.a"])).map ExtTreeSet.toList = some ["pkg", "pkg.a", "pkg.b"] := by
  decide

end TypePython.Incremental
