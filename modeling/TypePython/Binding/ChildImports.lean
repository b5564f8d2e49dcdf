import Mathlib.Data.List.Induction
import Mathlib.Data.List.Nodup
import TypePython.Binding.PackageNodes

/-!
# The packages of the graph

A package has one node in the graph, its own or one made up for it, and declares each of its
modules and packages at its top level: as it does itself, else by one import
(`build_packagesComplete`).
-/

namespace TypePython.Binding

open Std
open TypePython.Lib.Text

/-! ## Keys -/

/-- The package a dotted key is in, and its name there. -/
def splitModuleKey (moduleKey : String) : Option (String × String) :=
  (rsplitOnce '.' moduleKey.toList).map fun (parent, name) =>
    (String.ofList parent, String.ofList name)

variable {moduleKey name parent : String}

theorem splitModuleKey_eq (h : splitModuleKey moduleKey = some (parent, name)) :
    rsplitOnce '.' moduleKey.toList = some (parent.toList, name.toList) := by
  unfold splitModuleKey at h
  obtain ⟨⟨parentChars, nameChars⟩, hsplit, heq⟩ := Option.map_eq_some_iff.1 h
  have hparent : String.ofList parentChars = parent := congrArg Prod.fst heq
  have hname : String.ofList nameChars = name := congrArg Prod.snd heq
  rw [hsplit, ← hparent, ← hname, String.toList_ofList, String.toList_ofList]

/-- A key is known by its package and its name. -/
theorem splitModuleKey_inj {moduleKey' : String} {parts : String × String}
    (h : splitModuleKey moduleKey = some parts) (h' : splitModuleKey moduleKey' = some parts) :
    moduleKey = moduleKey' := by
  have heq := rsplitOnce_eq (splitModuleKey_eq h)
  have heq' := rsplitOnce_eq (splitModuleKey_eq h')
  exact String.toList_inj.1 (heq.trans heq'.symm)

theorem lastSegment_eq (h : splitModuleKey moduleKey = some (parent, name)) :
    lastSegment '.' moduleKey = name := by
  unfold lastSegment
  rw [splitModuleKey_eq h]
  exact String.ofList_toList

theorem mem_parentModuleKeys {fuel : Nat} (h : splitModuleKey moduleKey = some (parent, name))
    (hfuel : fuel ≠ 0) : parent ∈ parentModuleKeys fuel moduleKey.toList := by
  cases fuel with
  | zero => exact absurd rfl hfuel
  | succ fuel =>
    rw [parentModuleKeys, splitModuleKey_eq h]
    simp

/-- The packages of a package are among the packages. -/
theorem parentModuleKeys_closed (h : splitModuleKey moduleKey = some (parent, name)) :
    ∀ {fuel : Nat} {current : Chars}, current.length < fuel →
      moduleKey ∈ parentModuleKeys fuel current → parent ∈ parentModuleKeys fuel current := by
  intro fuel
  induction fuel with
  | zero =>
    intro current hlength
    omega
  | succ fuel ih =>
    intro current hlength hmem
    rw [parentModuleKeys] at hmem ⊢
    cases hsplit : rsplitOnce '.' current with
    | none => simp [hsplit] at hmem
    | some parts =>
      rw [hsplit] at hmem
      have hshorter := rsplitOnce_length hsplit
      rcases List.mem_cons.1 hmem with hfirst | hrest
      · refine List.mem_cons_of_mem _ ?_
        have hchars : parts.1 = moduleKey.toList := by
          rw [hfirst, String.toList_ofList]
        rw [hchars]
        exact mem_parentModuleKeys h (by omega)
      · exact List.mem_cons_of_mem _ (ih (by omega) hrest)

/-! ## The index of the packages -/

theorem mem_foldl_insert {keys : List String} {all : ExtTreeSet String} {key : String} :
    key ∈ keys.foldl (fun all key => all.insert key) all ↔ key ∈ all ∨ key ∈ keys := by
  induction keys generalizing all with
  | nil => simp
  | cons first rest ih =>
    rw [List.foldl_cons, ih, ExtTreeSet.mem_insert, Std.compare_eq_iff_eq, List.mem_cons]
    tauto

theorem mem_allPackageModuleKeys {actualModuleKeys : ExtTreeSet String} {key : String} :
    key ∈ allPackageModuleKeys actualModuleKeys ↔ key ∈ actualModuleKeys
      ∨ ∃ moduleKey : String, moduleKey ∈ actualModuleKeys ∧
          key ∈ parentModuleKeys (moduleKey.toList.length + 1) moduleKey.toList := by
  have hfold : ∀ (keys : List String) (all : ExtTreeSet String),
      key ∈ keys.foldl (fun all moduleKey =>
        (parentModuleKeys (moduleKey.toList.length + 1) moduleKey.toList).foldl
          (fun all parent => all.insert parent) all) all
      ↔ key ∈ all ∨ ∃ moduleKey ∈ keys,
          key ∈ parentModuleKeys (moduleKey.toList.length + 1) moduleKey.toList := by
    intro keys
    induction keys with
    | nil => simp
    | cons first rest ih =>
      intro all
      rw [List.foldl_cons, ih, mem_foldl_insert]
      simp only [List.mem_cons, exists_eq_or_imp, or_assoc]
  unfold allPackageModuleKeys
  rw [hfold]
  simp only [ExtTreeSet.mem_toList]

theorem allPackageModuleKeys_closed {actualModuleKeys : ExtTreeSet String}
    (h : splitModuleKey moduleKey = some (parent, name))
    (hmem : moduleKey ∈ allPackageModuleKeys actualModuleKeys) :
    parent ∈ allPackageModuleKeys actualModuleKeys := by
  rw [mem_allPackageModuleKeys] at hmem ⊢
  rcases hmem with hactual | ⟨actual, hactual, hparent⟩
  · exact .inr ⟨moduleKey, hactual, mem_parentModuleKeys h (Nat.succ_ne_zero _)⟩
  · exact .inr ⟨actual, hactual, parentModuleKeys_closed h (by omega) hparent⟩

/-- The keys that are directly in a package. -/
def childKeysOf (moduleKeys : List String) (package : String) : List String :=
  moduleKeys.filter fun moduleKey => (splitModuleKey moduleKey).map Prod.fst = some package

variable {package : String}

theorem mem_childKeysOf {moduleKeys : List String} : moduleKey ∈ childKeysOf moduleKeys package
      ↔ moduleKey ∈ moduleKeys ∧ ∃ name, splitModuleKey moduleKey = some (package, name) := by
  unfold childKeysOf
  rw [List.mem_filter, decide_eq_true_iff, Option.map_eq_some_iff]
  simp

/-- A package is listed with its children when it has some. -/
theorem getElem?_directChildModuleIndex (allModuleKeys : ExtTreeSet String) (package : String) :
    (directChildModuleIndex allModuleKeys)[package]?
      = if childKeysOf allModuleKeys.toList package = [] then none
        else some (childKeysOf allModuleKeys.toList package) := by
  unfold directChildModuleIndex
  induction allModuleKeys.toList using List.reverseRecOn with
  | nil => simp [childKeysOf]
  | append_singleton keys moduleKey ih =>
    rw [List.foldl_append, List.foldl_cons, List.foldl_nil]
    have happend : childKeysOf (keys ++ [moduleKey]) package
        = childKeysOf keys package ++ childKeysOf [moduleKey] package := List.filter_append ..
    rw [happend]
    cases hsplit : rsplitOnce '.' moduleKey.toList with
    | none =>
      have hnone : childKeysOf [moduleKey] package = [] := by
        simp [childKeysOf, splitModuleKey, hsplit]
      rw [hnone, List.append_nil]
      exact ih
    | some parts =>
      dsimp only
      rw [ExtTreeMap.getElem?_insert]
      by_cases hpackage : String.ofList parts.1 = package
      · have hone : childKeysOf [moduleKey] package = [moduleKey] := by
          simp [childKeysOf, splitModuleKey, hsplit, hpackage]
        rw [if_pos (Std.compare_eq_iff_eq.2 hpackage), hone, if_neg (by simp), hpackage, ih]
        split
        · rename_i hempty
          rw [hempty]
          rfl
        · rfl
      · have hnone : childKeysOf [moduleKey] package = [] := by
          simp [childKeysOf, splitModuleKey, hsplit, hpackage]
        rw [if_neg (mt Std.compare_eq_iff_eq.1 hpackage), hnone, List.append_nil]
        exact ih

theorem nodup_toList_keys (packages : ExtTreeMap String (List String)) :
    (packages.toList.map Prod.fst).Nodup := by
  rw [List.nodup_iff_pairwise_ne, List.pairwise_map]
  exact packages.distinct_keys_toList.imp fun h heq => h (Std.compare_eq_iff_eq.2 heq)

theorem nodup_toList_set (moduleKeys : ExtTreeSet String) : moduleKeys.toList.Nodup := by
  rw [List.nodup_iff_pairwise_ne]
  exact moduleKeys.distinct_toList.imp fun h heq => h (Std.compare_eq_iff_eq.2 heq)

/-! ## The nodes -/

theorem modify_append {α : Type} (f : α → α) {items : List α} {index : Nat}
    (h : index < items.length) (rest : List α) :
    (items ++ rest).modify index f = items.modify index f ++ rest := by
  induction items generalizing index with
  | nil => exact absurd h (Nat.not_lt_zero _)
  | cons item items ih =>
    cases index with
    | zero => rfl
    | succ index =>
      rw [List.cons_append, List.modify_succ_cons, List.modify_succ_cons,
        ih (Nat.lt_of_succ_lt_succ h), List.cons_append]

variable {nodes : List ModuleNode}

theorem modify_addChildImports {index : Nat} (hindex : index < nodes.length)
    (hdistinct : (nodes.map ModuleNode.moduleKey).Nodup) (childKeys : String → List String)
    (added : List String) (hnone : childKeys nodes[index].moduleKey = []) :
    (nodes.map fun node => node.addChildImports (childKeys node.moduleKey)).modify index
        (.addChildImports added)
      = nodes.map fun node => node.addChildImports
          (if node.moduleKey = nodes[index].moduleKey then added
           else childKeys node.moduleKey) := by
  apply List.ext_getElem
  · simp
  · intro position hposition hposition'
    rw [List.length_map] at hposition'
    rw [List.getElem_modify, List.getElem_map, List.getElem_map]
    by_cases hsame : index = position
    · subst hsame
      rw [if_pos rfl, if_pos rfl, hnone]
      rfl
    · rw [if_neg hsame, if_neg]
      intro hkey
      have hnode : nodes[position] = nodes[index] :=
        List.inj_on_of_nodup_map hdistinct (List.getElem_mem _) (List.getElem_mem _) hkey
      exact hsame ((List.Nodup.getElem_inj_iff (List.Nodup.of_map _ hdistinct)).1 hnode).symm

/-- The position of the node that has a key. -/
theorem getElem?_moduleIndices (hdistinct : (nodes.map ModuleNode.moduleKey).Nodup) (key : String) :
    (∃ (index : Nat) (hindex : index < nodes.length),
        (moduleIndices nodes)[key]? = some index ∧ nodes[index].moduleKey = key)
      ∨ (moduleIndices nodes)[key]? = none ∧ key ∉ nodes.map ModuleNode.moduleKey := by
  unfold moduleIndices
  induction nodes using List.reverseRecOn with
  | nil => exact .inr ⟨by simp, by simp⟩
  | append_singleton nodes node ih =>
    rw [List.map_append, List.nodup_append] at hdistinct
    rw [List.zipIdx_append, List.foldl_append]
    simp only [List.zipIdx_singleton, Nat.zero_add, List.foldl_cons, List.foldl_nil]
    rw [ExtTreeMap.getElem?_insert]
    by_cases hkey : node.moduleKey = key
    · rw [if_pos (Std.compare_eq_iff_eq.2 hkey)]
      exact .inl ⟨nodes.length, by simp, rfl, by simpa using hkey⟩
    · rw [if_neg (mt Std.compare_eq_iff_eq.1 hkey)]
      rcases ih hdistinct.1 with ⟨index, hindex, hfound, hnode⟩ | ⟨hnone, hnot⟩
      · refine .inl ⟨index, by simp; omega, hfound, ?_⟩
        rw [List.getElem_append_left hindex]
        exact hnode
      · refine .inr ⟨hnone, ?_⟩
        rw [List.map_append, List.mem_append, not_or]
        exact ⟨hnot, by simpa using Ne.symm hkey⟩

/-- The children that are listed for a package; none when it is not listed. -/
def listedChildKeys (packages : List (String × List String)) (package : String) : List String :=
  ((packages.find? fun entry => entry.1 = package).map Prod.snd).getD []

/-- The nodes with the imports of their children, and the packages that are made up. -/
def packagedNodes (nodes : List ModuleNode) (packages : List (String × List String)) :
    List ModuleNode :=
  nodes.map (fun node => node.addChildImports (listedChildKeys packages node.moduleKey))
    ++ (packages.filter fun entry => entry.1 ∉ nodes.map ModuleNode.moduleKey).map
      fun entry => namespaceModuleNode entry.1 entry.2

variable {packages : List (String × List String)}

theorem listedChildKeys_append {entry : String × List String}
    (hfresh : entry.1 ∉ packages.map Prod.fst) (package : String) :
    listedChildKeys (packages ++ [entry]) package
      = if package = entry.1 then entry.2 else listedChildKeys packages package := by
  unfold listedChildKeys
  rw [List.find?_append]
  by_cases hpackage : package = entry.1
  · have hnone : packages.find? (fun entry => decide (entry.1 = package)) = none := by
      rw [List.find?_eq_none]
      intro other hother hsame
      rw [hpackage] at hsame
      exact hfresh (of_decide_eq_true hsame ▸ List.mem_map_of_mem hother)
    rw [if_pos hpackage, hnone, hpackage]
    simp
  · have hskipped : [entry].find? (fun entry => decide (entry.1 = package)) = none := by
      simp [Ne.symm hpackage]
    rw [if_neg hpackage, hskipped, Option.or_none]

theorem listedChildKeys_of_notMem (h : package ∉ packages.map Prod.fst) :
    listedChildKeys packages package = [] := by
  unfold listedChildKeys
  have hnone : packages.find? (fun entry => decide (entry.1 = package)) = none := by
    rw [List.find?_eq_none]
    intro other hother hsame
    exact h (of_decide_eq_true hsame ▸ List.mem_map_of_mem hother)
  rw [hnone]
  rfl

/-- What the loop does with a package. -/
def addPackageNode (nodes graphNodes : List ModuleNode) (entry : String × List String) :
    List ModuleNode :=
  match (moduleIndices nodes)[entry.1]? with
  | some index => graphNodes.modify index (.addChildImports entry.2)
  | none => graphNodes ++ [namespaceModuleNode entry.1 entry.2]

theorem foldl_packagedNodes (hdistinct : (nodes.map ModuleNode.moduleKey).Nodup)
    (hpackages : (packages.map Prod.fst).Nodup) :
    packages.foldl (addPackageNode nodes) nodes = packagedNodes nodes packages := by
  induction packages using List.reverseRecOn with
  | nil =>
    have hsame : nodes.map (fun node => node.addChildImports []) = nodes := List.map_id nodes
    simp [packagedNodes, listedChildKeys, hsame]
  | append_singleton packages entry ih =>
    rw [List.map_append, List.nodup_append] at hpackages
    have hfresh : entry.1 ∉ packages.map Prod.fst := fun hmem =>
      hpackages.2.2 entry.1 hmem entry.1 (by simp) rfl
    rw [List.foldl_append, List.foldl_cons, List.foldl_nil, ih hpackages.1, addPackageNode]
    have hlisted := listedChildKeys_append hfresh
    rcases getElem?_moduleIndices hdistinct entry.1 with
      ⟨index, hindex, hfound, hkey⟩ | ⟨hnone, hnot⟩
    · have hnodup := modify_addChildImports hindex hdistinct (listedChildKeys packages) entry.2
        (by rw [hkey]; exact listedChildKeys_of_notMem hfresh)
      have hmem : entry.1 ∈ nodes.map ModuleNode.moduleKey := by
        rw [← hkey]
        exact List.mem_map_of_mem (List.getElem_mem hindex)
      rw [hfound]
      have hkept : [entry].filter (fun entry => decide (entry.1 ∉ nodes.map ModuleNode.moduleKey))
          = [] := List.filter_eq_nil_iff.2 (by simpa using hmem)
      unfold packagedNodes
      dsimp only
      rw [modify_append _ (by simpa using hindex), hnodup, List.filter_append, hkept,
        List.append_nil]
      simp only [hlisted, hkey]
    · rw [hnone]
      unfold packagedNodes
      dsimp only
      rw [List.append_assoc, List.filter_append]
      have hkept : [entry].filter (fun entry => decide (entry.1 ∉ nodes.map ModuleNode.moduleKey))
          = [entry] :=
        List.filter_eq_self.2 (by simpa using hnot)
      rw [hkept, List.map_append]
      congr 1
      apply List.map_congr_left
      intro node hnode
      rw [hlisted, if_neg]
      intro heq
      exact hnot (heq ▸ List.mem_map_of_mem hnode)

/-- The modules with a source, and the packages they are in. -/
def packageModuleKeys (nodes : List ModuleNode) : ExtTreeSet String :=
  allPackageModuleKeys (ExtTreeSet.ofList
    ((nodes.filter fun node => !isSyntheticModulePath node.modulePath).map ModuleNode.moduleKey))

theorem injectPackageModuleNodes_eq (hdistinct : (nodes.map ModuleNode.moduleKey).Nodup) :
    injectPackageModuleNodes nodes
      = packagedNodes nodes (directChildModuleIndex (packageModuleKeys nodes)).toList :=
  foldl_packagedNodes hdistinct (nodup_toList_keys _)

/-! ## Declarations -/

/-- The declarations of a name at the top level. -/
def namedAtTopLevel (declarations : List Declaration) (name : String) : List Declaration :=
  declarations.filter fun declaration => declaration.owner.isNone && declaration.name == name

/-- The declarations of a module; nothing, when there is no node for it. -/
def declarationsOf (nodes : List ModuleNode) (moduleKey : String) : List Declaration :=
  ((nodes.find? fun node => node.moduleKey = moduleKey).map ModuleNode.declarations).getD []

theorem any_eq_false_iff_namedAtTopLevel {declarations : List Declaration} :
    (declarations.any fun declaration => declaration.owner.isNone && declaration.name == name) = false
      ↔ namedAtTopLevel declarations name = [] := by
  unfold namedAtTopLevel
  rw [List.filter_eq_nil_iff, List.any_eq_false]

/-- The import of a child stands under its name only. -/
theorem namedAtTopLevel_import (name childName childKey : String) :
    namedAtTopLevel [packageChildImportDeclaration childName childKey] name
      = if childName = name then [packageChildImportDeclaration childName childKey] else [] := by
  unfold namedAtTopLevel
  by_cases h : childName = name
  · rw [if_pos h]
    simp [packageChildImportDeclaration, h]
  · rw [if_neg h]
    simp [packageChildImportDeclaration, h]

variable {childKeys : List String}

/-- A name that no child has is declared as before. -/
theorem namedAtTopLevel_addMissing_of_notMem (h : name ∉ childKeys.map (lastSegment '.'))
    (declarations : List Declaration) :
    namedAtTopLevel (addMissingChildModuleImports declarations childKeys) name
      = namedAtTopLevel declarations name := by
  induction childKeys generalizing declarations with
  | nil => rfl
  | cons childKey rest ih =>
    rw [List.map_cons, List.mem_cons, not_or] at h
    show namedAtTopLevel (addMissingChildModuleImports (if _ then _ else _) rest) name = _
    rw [ih h.2]
    split
    · rfl
    · have happend : namedAtTopLevel (declarations
            ++ [packageChildImportDeclaration (lastSegment '.' childKey) childKey]) name
          = namedAtTopLevel declarations name ++ namedAtTopLevel
            [packageChildImportDeclaration (lastSegment '.' childKey) childKey] name :=
        List.filter_append ..
      rw [happend, namedAtTopLevel_import, if_neg (Ne.symm h.1), List.append_nil]

/-- A name that a child has is declared as the package has it, else by the import of the child. -/
theorem namedAtTopLevel_addMissing {childKey : String}
    (hnames : (childKeys.map (lastSegment '.')).Nodup) (hmem : childKey ∈ childKeys)
    (declarations : List Declaration) :
    namedAtTopLevel (addMissingChildModuleImports declarations childKeys) (lastSegment '.' childKey)
      = if namedAtTopLevel declarations (lastSegment '.' childKey) = [] then
          [packageChildImportDeclaration (lastSegment '.' childKey) childKey]
        else namedAtTopLevel declarations (lastSegment '.' childKey) := by
  induction childKeys generalizing declarations with
  | nil => exact absurd hmem List.not_mem_nil
  | cons first rest ih =>
    rw [List.map_cons, List.nodup_cons] at hnames
    show namedAtTopLevel (addMissingChildModuleImports (if _ then _ else _) rest) _ = _
    rcases List.mem_cons.1 hmem with rfl | hrest
    · rw [namedAtTopLevel_addMissing_of_notMem hnames.1]
      by_cases hown : namedAtTopLevel declarations (lastSegment '.' childKey) = []
      · rw [if_neg (by rw [any_eq_false_iff_namedAtTopLevel.2 hown]; simp), if_pos hown]
        have happend : namedAtTopLevel (declarations
              ++ [packageChildImportDeclaration (lastSegment '.' childKey) childKey])
              (lastSegment '.' childKey)
            = namedAtTopLevel declarations (lastSegment '.' childKey) ++ namedAtTopLevel
              [packageChildImportDeclaration (lastSegment '.' childKey) childKey]
              (lastSegment '.' childKey) := List.filter_append ..
        rw [happend, hown, namedAtTopLevel_import, if_pos rfl, List.nil_append]
      · rw [if_pos, if_neg hown]
        exact eq_true_of_ne_false (mt any_eq_false_iff_namedAtTopLevel.1 hown)
    · have hne : lastSegment '.' first ≠ lastSegment '.' childKey := fun heq =>
        hnames.1 (heq ▸ List.mem_map_of_mem hrest)
      rw [ih hnames.2 hrest]
      split
      · rfl
      · have happend : namedAtTopLevel (declarations
              ++ [packageChildImportDeclaration (lastSegment '.' first) first])
              (lastSegment '.' childKey)
            = namedAtTopLevel declarations (lastSegment '.' childKey) ++ namedAtTopLevel
              [packageChildImportDeclaration (lastSegment '.' first) first]
              (lastSegment '.' childKey) := List.filter_append ..
        rw [happend, namedAtTopLevel_import, if_neg hne, List.append_nil]

/-! ## The graph -/

/-- The modules with a source, and the packages they are in. -/
inductive InPackageTree (bindings : List BoundModule) : String → Prop
  | real {bound : BoundModule} : bound ∈ bindings →
      isSyntheticModulePath bound.node.modulePath = false →
        InPackageTree bindings bound.node.moduleKey
  | package {moduleKey parent name : String} : InPackageTree bindings moduleKey →
      splitModuleKey moduleKey = some (parent, name) → InPackageTree bindings parent

/-- What a package declares itself under a name; nothing, when no module is bound to its key. -/
def ownDeclarations (bindings : List BoundModule) (package name : String) : List Declaration :=
  namedAtTopLevel (declarationsOf (bindings.map BoundModule.node) package) name

/-- Every key has one node, and every package declares what is directly in it, once. -/
structure PackagesComplete (bindings : List BoundModule) (graph : ModuleGraph) : Prop where
  distinct : (graph.nodes.map ModuleNode.moduleKey).Nodup
  declared : ∀ moduleKey parent name, InPackageTree bindings moduleKey →
    splitModuleKey moduleKey = some (parent, name) →
      ∃ node ∈ graph.nodes, node.moduleKey = parent ∧ namedAtTopLevel node.declarations name
        = if ownDeclarations bindings parent name = [] then
            [packageChildImportDeclaration name moduleKey]
          else ownDeclarations bindings parent name

theorem InPackageTree.mem_packageModuleKeys {bindings : List BoundModule}
    (h : InPackageTree bindings moduleKey) :
    moduleKey ∈ packageModuleKeys (bindings.map BoundModule.node) := by
  induction h with
  | @real bound hbound hreal =>
    refine mem_allPackageModuleKeys.2 (.inl ?_)
    rw [ExtTreeSet.mem_ofList, List.contains_iff_mem]
    refine List.mem_map_of_mem (List.mem_filter.2 ⟨List.mem_map_of_mem hbound, ?_⟩)
    rw [hreal]
    rfl
  | package _ hsplit ih => exact allPackageModuleKeys_closed hsplit ih

theorem packagedNodes_nodup {packages : ExtTreeMap String (List String)}
    (hdistinct : (nodes.map ModuleNode.moduleKey).Nodup) :
    ((packagedNodes nodes packages.toList).map ModuleNode.moduleKey).Nodup := by
  unfold packagedNodes
  rw [List.map_append, List.map_map, List.map_map]
  have hmade : ((packages.toList.filter fun entry =>
      entry.1 ∉ nodes.map ModuleNode.moduleKey).map Prod.fst).Nodup :=
    (nodup_toList_keys packages).sublist ((List.filter_sublist).map Prod.fst)
  refine List.Nodup.append hdistinct hmade ?_
  intro key hkey hkey'
  rcases List.mem_map.1 hkey' with ⟨entry, hentry, rfl⟩
  exact of_decide_eq_true (List.mem_filter.1 hentry).2 hkey

theorem addPrelude_nodup {prelude : ModuleNode} (h : (nodes.map ModuleNode.moduleKey).Nodup) :
    ((addPrelude nodes prelude).map ModuleNode.moduleKey).Nodup := by
  unfold addPrelude
  split
  · exact h
  · rename_i hany
    rw [List.map_append]
    refine List.Nodup.append h (List.nodup_singleton _) ?_
    intro key hkey hkey'
    rcases List.mem_map.1 hkey with ⟨node, hnode, rfl⟩
    refine hany (List.any_eq_true.2 ⟨node, hnode, ?_⟩)
    simpa using hkey'

theorem mem_addPreludes {preludes : List ModuleNode} {node : ModuleNode} (h : node ∈ nodes) :
    node ∈ preludes.foldl addPrelude nodes := by
  apply List.foldlRecOn (motive := fun nodes : List ModuleNode => node ∈ nodes)
  · exact h
  · intro nodes h prelude _
    unfold addPrelude
    split
    · exact h
    · exact List.mem_append_left _ h

/-- The node of a package. -/
theorem exists_packageNode {packages : ExtTreeMap String (List String)}
    (hlisted : packages[package]? = some childKeys) :
    ∃ node ∈ packagedNodes nodes packages.toList, node.moduleKey = package
      ∧ node.declarations
        = addMissingChildModuleImports (declarationsOf nodes package) childKeys := by
  have hentry : (package, childKeys) ∈ packages.toList :=
    ExtTreeMap.mem_toList_iff_getElem?_eq_some.2 hlisted
  unfold packagedNodes declarationsOf
  cases hfind : nodes.find? fun node => node.moduleKey = package with
  | some node =>
    have hkey : node.moduleKey = package := of_decide_eq_true (List.find?_some hfind :)
    have hchildren : listedChildKeys packages.toList node.moduleKey = childKeys := by
      unfold listedChildKeys
      cases hother : packages.toList.find? fun entry => entry.1 = node.moduleKey with
      | none =>
        rw [List.find?_eq_none] at hother
        exact absurd (decide_eq_true hkey.symm) (hother _ hentry)
      | some entry =>
        have hsame : entry.1 = node.moduleKey := of_decide_eq_true (List.find?_some hother :)
        have hfound := ExtTreeMap.mem_toList_iff_getElem?_eq_some.1
          (List.mem_of_find?_eq_some hother)
        rw [hsame, hkey, hlisted] at hfound
        exact (Option.some.inj hfound).symm
    refine ⟨_, List.mem_append_left _ (List.mem_map_of_mem (List.mem_of_find?_eq_some hfind)),
      hkey, ?_⟩
    rw [hchildren]
    rfl
  | none =>
    have hnew : package ∉ nodes.map ModuleNode.moduleKey := by
      intro hmem
      rcases List.mem_map.1 hmem with ⟨node, hnode, hkey⟩
      exact List.find?_eq_none.1 hfind node hnode (decide_eq_true hkey)
    refine ⟨namespaceModuleNode package childKeys, List.mem_append_right _ ?_, rfl, rfl⟩
    have hkept : (package, childKeys) ∈ packages.toList.filter fun entry =>
        decide (entry.1 ∉ nodes.map ModuleNode.moduleKey) :=
      List.mem_filter.2 ⟨hentry, decide_eq_true hnew⟩
    exact List.mem_map.2 ⟨_, hkept, rfl⟩

theorem nodup_childNames {moduleKeys : List String} (h : moduleKeys.Nodup) (package : String) :
    ((childKeysOf moduleKeys package).map (lastSegment '.')).Nodup := by
  refine List.Nodup.map_on ?_ (h.sublist List.filter_sublist)
  intro moduleKey hmem moduleKey' hmem' heq
  obtain ⟨-, name, hsplit⟩ := mem_childKeysOf.1 hmem
  obtain ⟨-, name', hsplit'⟩ := mem_childKeysOf.1 hmem'
  rw [lastSegment_eq hsplit, lastSegment_eq hsplit'] at heq
  rw [← heq] at hsplit'
  exact splitModuleKey_inj hsplit hsplit'

theorem build_packagesComplete (bindings : List BoundModule)
    (hdistinct : (bindings.map fun bound => bound.node.moduleKey).Nodup) :
    PackagesComplete bindings (build bindings) := by
  have hkeys : ((bindings.map BoundModule.node).map ModuleNode.moduleKey).Nodup := by
    rw [List.map_map]
    exact hdistinct
  constructor
  · unfold build
    apply List.foldlRecOn (motive := fun nodes : List ModuleNode =>
      (nodes.map ModuleNode.moduleKey).Nodup)
    · rw [injectPackageModuleNodes_eq hkeys]
      exact packagedNodes_nodup hkeys
    · intro nodes h prelude _
      exact addPrelude_nodup h
  · intro moduleKey parent name htree hsplit
    have hmem : moduleKey ∈ childKeysOf
        (packageModuleKeys (bindings.map BoundModule.node)).toList parent :=
      mem_childKeysOf.2 ⟨ExtTreeSet.mem_toList.2 htree.mem_packageModuleKeys, name, hsplit⟩
    have hlisted := getElem?_directChildModuleIndex
      (packageModuleKeys (bindings.map BoundModule.node)) parent
    rw [if_neg (List.ne_nil_of_mem hmem)] at hlisted
    obtain ⟨node, hnode, hkey, hdeclarations⟩ := exists_packageNode hlisted
    refine ⟨node, ?_, hkey, ?_⟩
    · unfold build
      rw [injectPackageModuleNodes_eq hkeys]
      exact mem_addPreludes hnode
    · have hadded := namedAtTopLevel_addMissing
        (nodup_childNames (nodup_toList_set _) parent) hmem
        (declarationsOf (bindings.map BoundModule.node) parent)
      rw [lastSegment_eq hsplit] at hadded
      rw [hdeclarations, hadded]
      rfl

/-- `app/views.tpy`, without an `app/__init__.tpy`. -/
def viewsModule : BoundModule where
  node := { moduleKey := "app.views", modulePath := "src/app/views.tpy" }
  isBound := fun _ h => absurd h List.not_mem_nil

theorem viewsModule_distinct : ([viewsModule].map fun bound => bound.node.moduleKey).Nodup :=
  List.nodup_singleton _

theorem app_imports_views : ∃ node ∈ (build [viewsModule]).nodes, node.moduleKey = "app"
    ∧ namedAtTopLevel node.declarations "views"
      = [packageChildImportDeclaration "views" "app.views"] :=
  (build_packagesComplete [viewsModule] viewsModule_distinct).declared "app.views" "app" "views"
    (.real (List.mem_singleton.2 rfl) (by decide)) (by decide)

/-- The prelude `collections.abc` is not in a package. -/
theorem collections_not_packaged : ¬ ∀ node ∈ (build [viewsModule]).nodes, ∀ parent name,
    splitModuleKey node.moduleKey = some (parent, name) →
      parent ∈ (build [viewsModule]).nodes.map ModuleNode.moduleKey := by
  have hkeys : (build [viewsModule]).nodes.map ModuleNode.moduleKey
      = ["app.views", "app", "typing", "typing_extensions", "collections.abc"] := by
    decide +kernel
  intro h
  have hprelude : "collections.abc" ∈ (build [viewsModule]).nodes.map ModuleNode.moduleKey := by
    rw [hkeys]
    decide
  rcases List.mem_map.1 hprelude with ⟨node, hnode, hkey⟩
  have hparent := h node hnode "collections" "abc" (by rw [hkey]; decide)
  rw [hkeys] at hparent
  revert hparent
  decide

end TypePython.Binding
