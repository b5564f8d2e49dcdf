import Mathlib.Data.List.Basic

/-!
# File trees

What stands at each path of a tree, and creating files and directories below a root together with
the directories on the way to them.

* `makeDirectories_spec`: what making the directories on a way does;
* `createAll_spec`: members of which none is a file above another one can all be created, in the
  order in which they come, and nothing outside the root changes.
-/

namespace TypePython.Lib

inductive NodeKind where
  | file
  | directory
deriving DecidableEq, Repr

/-- What stands at a path, which is the list of the names on the way to it. -/
abbrev FileTree (κ : Type) := List κ → Option NodeKind

/-- A file or directory to create. -/
structure TreeMember (κ : Type) where
  path : List κ
  kind : NodeKind

namespace FileTree

variable {κ : Type} [DecidableEq κ]

/-! ## Creating -/

def put (tree : FileTree κ) (path : List κ) (kind : NodeKind) : FileTree κ :=
  fun other => if other = path then some kind else tree other

/-- A directory that is there already is left as it is. -/
def makeDirectory (tree : FileTree κ) (path : List κ) : Option (FileTree κ) :=
  match tree path with
  | none => some (put tree path .directory)
  | some .directory => some tree
  | some .file => none

/-- Make the directories from a place to a path below it. -/
def makeDirectories (tree : FileTree κ) (place : List κ) : List κ → Option (FileTree κ)
  | [] => makeDirectory tree place
  | name :: rest => do
    let tree ← makeDirectory tree place
    makeDirectories tree (place ++ [name]) rest

/-- A file is created where nothing stands. -/
def createFile (tree : FileTree κ) (path : List κ) : Option (FileTree κ) :=
  match tree path with
  | none => some (put tree path .file)
  | some _ => none

def create (tree : FileTree κ) (root : List κ) (item : TreeMember κ) : Option (FileTree κ) :=
  match item.kind with
  | .directory => makeDirectories tree root item.path
  | .file => do
    let tree ← makeDirectories tree root item.path.dropLast
    createFile tree (root ++ item.path)

def createAll (tree : FileTree κ) (root : List κ) : List (TreeMember κ) → Option (FileTree κ)
  | [] => some tree
  | item :: rest => do
    let tree ← create tree root item
    createAll tree root rest

/-! ## Directories on a way -/

theorem makeDirectory_spec {tree : FileTree κ} {path : List κ} (h : tree path ≠ some .file) :
    ∃ tree', makeDirectory tree path = some tree' ∧ tree' path = some .directory
      ∧ ∀ other, other ≠ path → tree' other = tree other := by
  unfold makeDirectory
  match hpath : tree path with
  | none => exact ⟨_, rfl, if_pos rfl, fun other hother => if_neg hother⟩
  | some .directory => exact ⟨tree, rfl, hpath, fun _ _ => rfl⟩
  | some .file => exact absurd hpath h

/-- Every place on the way becomes a directory, and nothing else changes. -/
theorem makeDirectories_spec {rest : List κ} : ∀ {tree : FileTree κ} {place : List κ},
    (∀ front, front <+: rest → tree (place ++ front) ≠ some .file) →
      ∃ tree', makeDirectories tree place rest = some tree'
        ∧ (∀ front, front <+: rest → tree' (place ++ front) = some .directory)
        ∧ ∀ path, (∀ front, front <+: rest → path ≠ place ++ front) → tree' path = tree path := by
  induction rest with
  | nil =>
    intro tree place h
    have hplace := h [] (List.prefix_refl _)
    rw [List.append_nil] at hplace
    rcases makeDirectory_spec hplace with ⟨tree', hmade, hdir, hframe⟩
    refine ⟨tree', hmade, ?_, fun path hpath => hframe path fun heq => ?_⟩
    · intro front hfront
      rw [List.prefix_nil.mp hfront, List.append_nil]
      exact hdir
    · exact hpath [] (List.prefix_refl _) (by rw [heq, List.append_nil])
  | cons name rest ih =>
    intro tree place h
    have hplace := h [] (List.nil_prefix)
    rw [List.append_nil] at hplace
    rcases makeDirectory_spec hplace with ⟨middle, hmade, hdir, hframe⟩
    have hlonger : ∀ front, place ++ [name] ++ front ≠ place := by
      intro front heq
      have hlength := congrArg List.length heq
      simp only [List.length_append, List.length_singleton] at hlength
      omega
    have hbelow : ∀ front, front <+: rest → middle (place ++ [name] ++ front) ≠ some .file := by
      intro front hfront
      rw [hframe _ (hlonger front), List.append_assoc]
      exact h ([name] ++ front) (List.cons_prefix_cons.mpr ⟨rfl, hfront⟩)
    rcases ih hbelow with ⟨tree', hrest, hdirs, hframe'⟩
    refine ⟨tree', by rw [makeDirectories, hmade]; exact hrest, ?_, ?_⟩
    · intro front hfront
      cases front with
      | nil =>
        rw [List.append_nil, hframe' place fun front _ heq => hlonger front heq.symm]
        exact hdir
      | cons other front =>
        rcases List.cons_prefix_cons.mp hfront with ⟨hname, hinRest⟩
        have hthere := hdirs front hinRest
        rw [hname]
        rwa [List.append_assoc] at hthere
    · intro path hpath
      have hnot : ∀ front, front <+: rest → path ≠ place ++ [name] ++ front := by
        intro front hfront
        rw [List.append_assoc]
        exact hpath ([name] ++ front) (List.cons_prefix_cons.mpr ⟨rfl, hfront⟩)
      have hself : path ≠ place := by
        have hself := hpath [] List.nil_prefix
        rwa [List.append_nil] at hself
      rw [hframe' path hnot, hframe path hself]

/-! ## Members -/

/-- Neither is a file on the way to the other one. -/
structure Apart (first second : TreeMember κ) : Prop where
  differ : first.path ≠ second.path
  below : first.kind = .file → ¬ first.path <+: second.path
  above : second.kind = .file → ¬ second.path <+: first.path

/-- A directory with nothing below it. -/
structure Fresh (tree : FileTree κ) (root : List κ) : Prop where
  directory : tree root = some .directory
  empty : ∀ path, path ≠ [] → tree (root ++ path) = none

/-- A tree after members were created below a root. -/
structure Built (before : FileTree κ) (root : List κ) (items : List (TreeMember κ))
    (tree : FileTree κ) : Prop where
  outside : ∀ path, (∀ below, below ≠ [] → path ≠ root ++ below) → tree path = before path
  placed : ∀ item ∈ items, tree (root ++ item.path) = some item.kind
  files : ∀ path, tree (root ++ path) = some .file → ∃ item ∈ items, item.kind = .file ∧ item.path = path
  nothingElse : ∀ path, path ≠ [] → tree (root ++ path) ≠ none → ∃ item ∈ items, path <+: item.path

omit [DecidableEq κ] in
theorem built_nil {tree : FileTree κ} {root : List κ} (h : Fresh tree root) :
    Built tree root [] tree where
  outside _ _ := rfl
  placed _ hmem := absurd hmem List.not_mem_nil
  files path hfile := by
    by_cases hpath : path = []
    · rw [hpath, List.append_nil, h.directory] at hfile
      cases hfile
    · rw [h.empty path hpath] at hfile
      cases hfile
  nothingElse path hpath hthere := absurd (h.empty path hpath) hthere

/-- The directories on the way to a member that none of the files before it is on. -/
theorem built_directories {before tree : FileTree κ} {root way : List κ}
    {items : List (TreeMember κ)} (hroot : Fresh before root) (h : Built before root items tree)
    (hway : ∀ item ∈ items, item.kind = .file → ¬ item.path <+: way) :
    ∃ tree', makeDirectories tree root way = some tree'
      ∧ (∀ path, (∀ below, below ≠ [] → path ≠ root ++ below) → tree' path = before path)
      ∧ (∀ item ∈ items, tree' (root ++ item.path) = some item.kind)
      ∧ (∀ path, path <+: way → tree' (root ++ path) = some .directory)
      ∧ ∀ path, ¬ path <+: way → tree' (root ++ path) = tree (root ++ path) := by
  have hclear : ∀ front, front <+: way → tree (root ++ front) ≠ some .file := by
    intro front hfront hfile
    rcases h.files front hfile with ⟨item, hmem, hkind, hpath⟩
    exact hway item hmem hkind (hpath ▸ hfront)
  rcases makeDirectories_spec hclear with ⟨tree', hmade, hdirs, hframe⟩
  have hoff : ∀ path, ¬ path <+: way → tree' (root ++ path) = tree (root ++ path) := by
    intro path hpath
    refine hframe _ fun front hfront heq => hpath ?_
    rw [List.append_cancel_left heq]
    exact hfront
  refine ⟨tree', hmade, ?_, ?_, hdirs, hoff⟩
  · intro path hpath
    by_cases hself : path = root
    · -- the root itself is a directory before and after
      have hthere := hdirs [] List.nil_prefix
      rw [List.append_nil] at hthere
      rw [hself, hthere, hroot.directory]
    · rw [hframe path fun front hfront heq => ?_, h.outside path hpath]
      by_cases hfront : front = []
      · exact hself (by rw [heq, hfront, List.append_nil])
      · exact hpath front hfront heq
  · intro item hmem
    by_cases hitem : item.path <+: way
    · have hkind : item.kind = .directory := by
        cases hkind : item.kind with
        | file => exact absurd hitem (hway item hmem hkind)
        | directory => rfl
      rw [hdirs _ hitem, hkind]
    · rw [hoff _ hitem]
      exact h.placed item hmem

/-- Creating one member more. -/
theorem create_spec {before tree : FileTree κ} {root : List κ} {items : List (TreeMember κ)}
    {item : TreeMember κ} (hroot : Fresh before root) (h : Built before root items tree)
    (hpath : item.path ≠ []) (hapart : ∀ other ∈ items, Apart other item) :
    ∃ tree', create tree root item = some tree' ∧ Built before root (items ++ [item]) tree' := by
  have hway : ∀ way, way <+: item.path → ∀ other ∈ items, other.kind = .file →
      ¬ other.path <+: way :=
    fun way hpre other hmem hkind hother => (hapart other hmem).below hkind (hother.trans hpre)
  have hnew : item ∈ items ++ [item] := List.mem_append_right _ List.mem_cons_self
  cases hkind : item.kind with
  | directory =>
    rcases built_directories hroot h (hway item.path (List.prefix_refl _))
      with ⟨tree', hmade, houtside, hplaced, hdirs, hoff⟩
    refine ⟨tree', by rw [create, hkind]; exact hmade, houtside, ?_, ?_, ?_⟩
    · intro other hmem
      rcases List.mem_append.mp hmem with hmem | hmem
      · exact hplaced other hmem
      · rw [List.mem_singleton.mp hmem, hdirs _ (List.prefix_refl _), hkind]
    · intro path hfile
      by_cases hon : path <+: item.path
      · rw [hdirs path hon] at hfile
        cases hfile
      · rw [hoff path hon] at hfile
        rcases h.files path hfile with ⟨other, hmem, hother⟩
        exact ⟨other, List.mem_append_left _ hmem, hother⟩
    · intro path hne hthere
      by_cases hon : path <+: item.path
      · exact ⟨item, hnew, hon⟩
      · rw [hoff path hon] at hthere
        rcases h.nothingElse path hne hthere with ⟨other, hmem, hother⟩
        exact ⟨other, List.mem_append_left _ hmem, hother⟩
  | file =>
    have hshort : ¬ item.path <+: item.path.dropLast := by
      intro hpre
      have hle := hpre.length_le
      have hpos := List.length_pos_of_ne_nil hpath
      rw [List.length_dropLast] at hle
      omega
    rcases built_directories hroot h (hway _ (List.dropLast_prefix _))
      with ⟨middle, hmade, houtside, hplaced, hdirs, hoff⟩
    -- nothing stands where the file is to be: what stands there would be on the way to a member
    have hfree : middle (root ++ item.path) = none := by
      rw [hoff _ hshort]
      by_contra hthere
      rcases h.nothingElse item.path hpath hthere with ⟨other, hmem, hother⟩
      exact (hapart other hmem).above hkind hother
    have hput : ∀ path, path ≠ item.path →
        put middle (root ++ item.path) .file (root ++ path) = middle (root ++ path) :=
      fun path hne => if_neg fun heq => hne (List.append_cancel_left heq)
    have hself : put middle (root ++ item.path) .file (root ++ item.path) = some .file := if_pos rfl
    refine ⟨put middle (root ++ item.path) .file, ?_, ?_, ?_, ?_, ?_⟩
    · rw [create, hkind]
      show (makeDirectories tree root item.path.dropLast).bind _ = _
      rw [hmade, Option.bind_some, createFile, hfree]
    · intro path hout
      rw [← houtside path hout]
      exact if_neg (hout item.path hpath)
    · intro other hmem
      rcases List.mem_append.mp hmem with hmem | hmem
      · rw [hput _ (hapart other hmem).differ]
        exact hplaced other hmem
      · rw [List.mem_singleton.mp hmem, hself, hkind]
    · intro path hfile
      by_cases hon : path = item.path
      · exact ⟨item, hnew, hkind, hon.symm⟩
      · rw [hput path hon] at hfile
        by_cases hway : path <+: item.path.dropLast
        · rw [hdirs path hway] at hfile
          cases hfile
        · rw [hoff path hway] at hfile
          rcases h.files path hfile with ⟨other, hmem, hother⟩
          exact ⟨other, List.mem_append_left _ hmem, hother⟩
    · intro path hne hthere
      by_cases hon : path <+: item.path
      · exact ⟨item, hnew, hon⟩
      · rw [hput path fun heq => hon (heq ▸ List.prefix_refl _)] at hthere
        rw [hoff path fun hpre => hon (hpre.trans (List.dropLast_prefix _))] at hthere
        rcases h.nothingElse path hne hthere with ⟨other, hmem, hother⟩
        exact ⟨other, List.mem_append_left _ hmem, hother⟩

/-- Creating member after member. -/
theorem createAll_spec {before : FileTree κ} {root : List κ} (hroot : Fresh before root)
    {rest : List (TreeMember κ)} : ∀ {items : List (TreeMember κ)} {tree : FileTree κ},
    Built before root items tree → (∀ item ∈ rest, item.path ≠ []) →
      (items ++ rest).Pairwise Apart →
        ∃ tree', createAll tree root rest = some tree' ∧ Built before root (items ++ rest) tree' := by
  induction rest with
  | nil =>
    intro items tree h _ _
    exact ⟨tree, rfl, by rwa [List.append_nil]⟩
  | cons item rest ih =>
    intro items tree h hpaths hapart
    have hbefore : ∀ other ∈ items, Apart other item := fun other hmem =>
      (List.pairwise_append.mp hapart).2.2 other hmem item List.mem_cons_self
    rcases create_spec hroot h (hpaths item List.mem_cons_self) hbefore
      with ⟨middle, hcreated, hmiddle⟩
    have hsplit : items ++ item :: rest = items ++ [item] ++ rest := by
      rw [List.append_assoc]
      rfl
    rw [hsplit] at hapart ⊢
    rcases ih hmiddle (fun other hmem => hpaths other (List.mem_cons_of_mem _ hmem)) hapart
      with ⟨tree', hrest, hbuilt⟩
    refine ⟨tree', ?_, hbuilt⟩
    show (create tree root item).bind _ = _
    rw [hcreated]
    exact hrest

end FileTree

end TypePython.Lib
