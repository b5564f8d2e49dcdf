import Std.Data.ExtTreeMap
import Std.Data.ExtTreeSet
import TypePython.Binding.Preludes

/-!
# Building the module graph

The graph of a project has a node for every bound module. A package imports its child modules;
a package without a source of its own gets a node made up for it. The preludes are added where
no source declares their modules.
-/

namespace TypePython.Binding

open Std
open TypePython.Lib.Text

/-! ## Packages -/

def isSyntheticModulePath (path : String) : Bool := "<".toList.isPrefixOf path.toList

/-- The packages a dotted name is in, the innermost first. -/
def parentModuleKeys : Nat → Chars → List String
  | 0, _ => []
  | fuel + 1, current =>
    match rsplitOnce '.' current with
    | none => []
    | some (parent, _) => String.ofList parent :: parentModuleKeys fuel parent

def allPackageModuleKeys (actualModuleKeys : ExtTreeSet String) : ExtTreeSet String :=
  actualModuleKeys.toList.foldl
    (fun all moduleKey =>
      (parentModuleKeys (moduleKey.toList.length + 1) moduleKey.toList).foldl
        (fun all parent => all.insert parent) all)
    actualModuleKeys

/-- The modules directly in each package. -/
def directChildModuleIndex (allModuleKeys : ExtTreeSet String) :
    ExtTreeMap String (List String) :=
  allModuleKeys.toList.foldl
    (fun index moduleKey =>
      match rsplitOnce '.' moduleKey.toList with
      | none => index
      | some (parent, _) =>
        index.insert (String.ofList parent)
          ((index[String.ofList parent]?.getD []) ++ [moduleKey]))
    ∅

def packageChildImportDeclaration (name moduleKey : String) : Declaration where
  name := name
  kind := .importDecl
  metadata := .importDecl (.new moduleKey)

/-- A child module is imported unless the package declares its name. -/
def addMissingChildModuleImports (declarations : List Declaration) (childKeys : List String) :
    List Declaration :=
  childKeys.foldl
    (fun declarations childKey =>
      let name := lastSegment '.' childKey
      if declarations.any fun declaration =>
          declaration.owner.isNone && declaration.name == name then
        declarations
      else declarations ++ [packageChildImportDeclaration name childKey])
    declarations

def namespaceModuleNode (moduleKey : String) (childKeys : List String) : ModuleNode where
  moduleKey := moduleKey
  modulePath := "<namespace-package:" ++ moduleKey ++ ">"
  moduleKind := .python
  declarations := addMissingChildModuleImports [] childKeys

/-- The positions of the nodes by their keys; the last node of a key counts. -/
def moduleIndices (nodes : List ModuleNode) : ExtTreeMap String Nat :=
  nodes.zipIdx.foldl (fun existing (node, index) => existing.insert node.moduleKey index) ∅

def ModuleNode.addChildImports (childKeys : List String) (node : ModuleNode) : ModuleNode :=
  { node with declarations := addMissingChildModuleImports node.declarations childKeys }

def injectPackageModuleNodes (nodes : List ModuleNode) : List ModuleNode :=
  let actualModuleKeys := ExtTreeSet.ofList
    ((nodes.filter fun node => !isSyntheticModulePath node.modulePath).map ModuleNode.moduleKey)
  let existing := moduleIndices nodes
  (directChildModuleIndex (allPackageModuleKeys actualModuleKeys)).toList.foldl
    (fun nodes (packageKey, childKeys) =>
      match existing[packageKey]? with
      | some index => nodes.modify index (.addChildImports childKeys)
      | none => nodes ++ [namespaceModuleNode packageKey childKeys])
    nodes

/-- Add a prelude unless a source declares its module. -/
def addPrelude (nodes : List ModuleNode) (prelude : ModuleNode) : List ModuleNode :=
  if nodes.any fun node => node.moduleKey == prelude.moduleKey then nodes else nodes ++ [prelude]

/-- The module graph of some bound modules. -/
def build (bindings : List BoundModule) : ModuleGraph where
  nodes := preludeNodes.foldl addPrelude (injectPackageModuleNodes (bindings.map BoundModule.node))

/-! ## The declarations of the graph -/

/-- Every declaration of a node is one the binder could give. -/
def ModuleNode.IsBound (node : ModuleNode) : Prop :=
  ∀ declaration ∈ node.declarations, declaration.IsBound

theorem isBound_addMissingChildModuleImports {declarations : List Declaration}
    (h : ∀ declaration ∈ declarations, declaration.IsBound) (childKeys : List String) :
    ∀ declaration ∈ addMissingChildModuleImports declarations childKeys, declaration.IsBound := by
  unfold addMissingChildModuleImports
  apply List.foldlRecOn (motive := fun declarations : List Declaration =>
    ∀ declaration ∈ declarations, declaration.IsBound)
  · exact h
  · intro declarations h childKey _
    dsimp only
    split
    · exact h
    · intro declaration hmem
      rcases List.mem_append.1 hmem with hmem | hmem
      · exact h declaration hmem
      · rw [List.mem_singleton.1 hmem]
        exact ⟨⟨childKey, rfl⟩, rfl⟩

theorem isBound_modify {nodes : List ModuleNode} (h : ∀ node ∈ nodes, node.IsBound)
    (index : Nat) (childKeys : List String) :
    ∀ node ∈ nodes.modify index (.addChildImports childKeys), node.IsBound := by
  intro node hmem
  rcases List.getElem_of_mem hmem with ⟨position, hposition, rfl⟩
  rw [List.getElem_modify]
  rw [List.length_modify] at hposition
  have hnode := h nodes[position] (List.getElem_mem hposition)
  split
  · exact isBound_addMissingChildModuleImports hnode childKeys
  · exact hnode

theorem isBound_injectPackageModuleNodes {nodes : List ModuleNode}
    (h : ∀ node ∈ nodes, node.IsBound) :
    ∀ node ∈ injectPackageModuleNodes nodes, node.IsBound := by
  unfold injectPackageModuleNodes
  apply List.foldlRecOn (motive := fun nodes : List ModuleNode => ∀ node ∈ nodes, node.IsBound)
  · exact h
  · intro nodes h package _
    dsimp only
    split
    · exact isBound_modify h _ _
    · intro node hmem
      rcases List.mem_append.1 hmem with hmem | hmem
      · exact h node hmem
      · rw [List.mem_singleton.1 hmem]
        exact isBound_addMissingChildModuleImports (fun _ hnil => absurd hnil List.not_mem_nil) _

theorem isBound_build (bindings : List BoundModule) :
    ∀ node ∈ (build bindings).nodes, node.IsBound := by
  unfold build
  apply List.foldlRecOn (motive := fun nodes : List ModuleNode => ∀ node ∈ nodes, node.IsBound)
  · apply isBound_injectPackageModuleNodes
    intro node hmem
    rcases List.mem_map.1 hmem with ⟨bound, -, rfl⟩
    exact bound.isBound
  · intro nodes h prelude hprelude
    unfold addPrelude
    split
    · exact h
    · intro node hmem
      rcases List.mem_append.1 hmem with hmem | hmem
      · exact h node hmem
      · rw [List.mem_singleton.1 hmem]
        exact isBound_preludeNodes prelude hprelude

/-! ## The modules of the graph -/

/-- A module with a node keeps one when the packages are added. -/
theorem mem_keys_injectPackageModuleNodes {nodes : List ModuleNode} {moduleKey : String}
    (h : moduleKey ∈ nodes.map ModuleNode.moduleKey) :
    moduleKey ∈ (injectPackageModuleNodes nodes).map ModuleNode.moduleKey := by
  unfold injectPackageModuleNodes
  apply List.foldlRecOn (motive := fun nodes : List ModuleNode =>
    moduleKey ∈ nodes.map ModuleNode.moduleKey)
  · exact h
  · intro nodes h package _
    dsimp only
    split
    · rename_i index _
      have hkeys : (nodes.modify index (.addChildImports package.2)).map ModuleNode.moduleKey
          = nodes.map ModuleNode.moduleKey := by
        apply List.ext_getElem
        · simp
        · intro position _ _
          simp only [List.getElem_map, List.getElem_modify]
          split <;> rfl
      rw [hkeys]
      exact h
    · rw [List.map_append]
      exact List.mem_append_left _ h

/-- Every module that is bound has a node. -/
theorem mem_keys_build {bindings : List BoundModule} {moduleKey : String}
    (h : moduleKey ∈ bindings.map fun bound => bound.node.moduleKey) :
    moduleKey ∈ (build bindings).nodes.map ModuleNode.moduleKey := by
  unfold build
  apply List.foldlRecOn (motive := fun nodes : List ModuleNode =>
    moduleKey ∈ nodes.map ModuleNode.moduleKey)
  · apply mem_keys_injectPackageModuleNodes
    rw [List.map_map]
    exact h
  · intro nodes h prelude _
    unfold addPrelude
    split
    · exact h
    · rw [List.map_append]
      exact List.mem_append_left _ h

end TypePython.Binding
