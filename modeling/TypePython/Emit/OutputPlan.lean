import TypePython.Emit.Planning

/-!
# Output files and logical modules

A logical module is read off the path below the source root, an output file off the path below
the logical root of the project. `LiesAlike` says when the two paths are one; only then does an
output file spell its module (`spelled_iff`), and then the plan keeps the sources apart
(`planEmits_keepsApart_iff`).
-/

namespace TypePython.Emit

open TypePython.Binding
open TypePython.Lib
open TypePython.Lib.Text

/-! ## Names and modules -/

/-- The names of a path without its suffix and a trailing `__init__`. -/
def moduleNames (relative : PathBuf) : List String :=
  let names := (PathBuf.withExtension relative "").map Component.text
  if names.getLast? = some "__init__" then names.dropLast else names

/-- The module that a path spells. -/
def spelledModule (relative : PathBuf) : String := join "." (moduleNames relative)

theorem length_join_append {sep : String} (hsep : sep ≠ "") (more : List String)
    {names : List String} (hnames : names ≠ []) (hmore : more ≠ []) :
    (join sep names).length < (join sep (more ++ names)).length := by
  have hpos : 0 < sep.length := by
    rcases Nat.eq_zero_or_pos sep.length with hzero | hpos
    · exact absurd (String.length_eq_zero_iff.1 hzero) hsep
    · exact hpos
  have hcons : ∀ name others, others ≠ [] →
      (join sep (name :: others)).length = name.length + sep.length + (join sep others).length := by
    intro name others hne
    cases others with
    | nil => exact absurd rfl hne
    | cons next rest => rw [join, String.length_append, String.length_append]
  induction more with
  | nil => exact absurd rfl hmore
  | cons name rest ih =>
    rw [List.cons_append, hcons name _ (by simp [hnames])]
    by_cases hrest : rest = []
    · rw [hrest, List.nil_append]
      omega
    · have := ih hrest
      omega

/-- A component that a walk through a directory adds. -/
def Component.isName : Component → Bool
  | .normal name => name ≠ ""
  | _ => false

/-- A source that was found below its root. -/
structure Discovered (config : Config) (source : DiscoveredSource) : Prop where
  root : sourceRootForPath (sourceRoots config) source.path = some source.root
  below : ∃ directory name, source.path = source.root ++ (directory ++ [.normal name])
    ∧ directory.all Component.isName = true
  kind : sourceKindOfPath source.path = some source.kind
  logicalModule : logicalModulePath source.root source.path = some source.logicalModule

def suffixOf : SourceKind → String
  | .typePython => "tpy"
  | .python => "py"
  | .stub => "pyi"

theorem dot_not_mem_suffix (kind : SourceKind) : '.' ∉ (suffixOf kind).toList := by
  cases kind <;> decide

/-- The name of a source is a stem and the suffix of its kind. -/
theorem splitName_of_kind {path : PathBuf} {kind : SourceKind}
    (h : sourceKindOfPath path = some kind) :
    ∃ directory stem, stem ≠ ""
      ∧ path = directory ++ [.normal (stem ++ "." ++ suffixOf kind)] := by
  have hextension : PathBuf.extension path = some (suffixOf kind) := by
    unfold sourceKindOfPath at h
    split at h <;> first | (cases h; assumption) | cases h
  simp only [PathBuf.extension, Option.bind_eq_some_iff, PathBuf.fileName] at hextension
  rcases hextension with ⟨name, hname, hsplit⟩
  split at hname
  · rename_i last hlast
    cases hname
    rcases hsplitName : PathBuf.splitName name with ⟨stem, ext⟩
    rw [hsplitName] at hsplit
    dsimp only at hsplit
    subst hsplit
    rcases PathBuf.of_splitName hsplitName with ⟨rfl, hstem⟩
    refine ⟨path.dropLast, stem, hstem, ?_⟩
    rcases List.getLast?_eq_some_iff.1 hlast with ⟨directory, rfl⟩
    rw [List.dropLast_concat]
  · cases hname

/-- The parts of a discovered source. -/
structure Located (source : DiscoveredSource) (directory : PathBuf) (stem : String) : Prop where
  nonempty : stem ≠ ""
  path : source.path
    = source.root ++ (directory ++ [.normal (stem ++ "." ++ suffixOf source.kind)])
  names : directory.all Component.isName = true

variable {config : Config} {source : DiscoveredSource}

theorem Discovered.located (h : Discovered config source) :
    ∃ directory stem, Located source directory stem := by
  rcases h.below with ⟨directory, name, hpath, hnames⟩
  rcases splitName_of_kind h.kind with ⟨before, stem, hstem, hshape⟩
  refine ⟨directory, stem, hstem, ?_, hnames⟩
  rw [hpath, ← List.append_assoc] at hshape
  have hlast := List.append_inj_right' hshape rfl
  rw [hpath, (List.cons.inj hlast).1]

variable {directory : PathBuf} {stem : String}

theorem Located.path_eq (h : Located source directory stem) :
    source.path = (source.root ++ directory) ++ [.normal (stem ++ "." ++ suffixOf source.kind)] := by
  rw [h.path, List.append_assoc]

/-! ## Paths without `.` -/

theorem curDir_not_mem_normalizeLexicalPath (path : PathBuf) :
    .curDir ∉ normalizeLexicalPath path := by
  have hstep : ∀ normalized component, Component.curDir ∉ normalized →
      Component.curDir ∉ normalizeLexicalStep normalized component := by
    intro normalized component hnot
    cases component with
    | rootDir => simp [normalizeLexicalStep]
    | curDir => exact hnot
    | normal name => simp [normalizeLexicalStep, hnot]
    | parentDir =>
      rw [normalizeLexicalStep]
      split
      · exact fun hmem => hnot (List.dropLast_subset _ hmem)
      · split
        · exact hnot
        · simp [hnot]
  have hfold : ∀ (components normalized : PathBuf), Component.curDir ∉ normalized →
      Component.curDir ∉ components.foldl normalizeLexicalStep normalized := by
    intro components
    induction components with
    | nil => exact fun _ h => h
    | cons component rest ih => exact fun normalized h => ih _ (hstep normalized component h)
  exact hfold path [] List.not_mem_nil

theorem withoutCurrentDirectoryComponents_of {path : PathBuf} (h : .curDir ∉ path) :
    withoutCurrentDirectoryComponents path = path := by
  apply List.filter_eq_self.2
  intro component hmem
  apply decide_eq_true
  rintro rfl
  exact h hmem

theorem isName_ne_curDir {names : PathBuf} (h : names.all Component.isName = true) :
    .curDir ∉ names := by
  intro hmem
  exact absurd (List.all_eq_true.1 h _ hmem) Bool.false_ne_true

/-- Neither the root nor the directories below it have a `.`. -/
theorem Discovered.curDir_not_mem (h : Discovered config source)
    (hlocated : Located source directory stem) : .curDir ∉ source.root ++ directory := by
  have hroot : source.root ∈ sourceRoots config := List.mem_of_find?_eq_some h.root
  rcases List.mem_map.1 hroot with ⟨pattern, -, hpattern⟩
  rw [List.mem_append, not_or]
  constructor
  · rw [← hpattern]
    exact curDir_not_mem_normalizeLexicalPath _
  · exact isName_ne_curDir hlocated.names

/-! ## Where a source is planned -/

def logicalRoot (config : Config) : PathBuf :=
  withoutCurrentDirectoryComponents (config.resolveRelativePath config.rootDir)

/-- The directory below the output root for the sources of a directory. -/
def outDirectory (config : Config) (directory : PathBuf) : PathBuf :=
  (PathBuf.stripPrefix? directory (logicalRoot config)).getD []

variable {relative : PathBuf}

/-- What the code gives as the relative path of a file, when it gives one. -/
theorem relativeModulePath_ok {name : String} (hdirectory : .curDir ∉ directory)
    (h : relativeModulePath config (directory ++ [.normal name]) = .ok relative) :
    relative = outDirectory config directory ++ [.normal name]
      ∧ relative.all Component.isNormal = true
      ∧ logicalRoot config ≠ directory ++ [.normal name] := by
  have hcomparable : withoutCurrentDirectoryComponents (directory ++ [.normal name])
      = directory ++ [.normal name] := by
    apply withoutCurrentDirectoryComponents_of
    simp [hdirectory]
  unfold relativeModulePath at h
  rw [hcomparable] at h
  dsimp only at h
  split at h
  · rename_i rest hstrip
    have hshape : logicalRoot config ++ rest = directory ++ [.normal name] :=
      List.isPrefixOf?_eq_some_iff_append_eq.1 hstrip
    split at h
    · rename_i hsafe
      have hrelative := Except.ok.inj h
      subst hrelative
      rw [Bool.and_eq_true, decide_eq_true_iff] at hsafe
      -- the last component of the rest is the name
      rcases List.eq_nil_or_concat rest with hnil | ⟨before, last, rfl⟩
      · exact absurd hnil hsafe.1
      · rw [List.concat_eq_append, ← List.append_assoc] at hshape
        have hlast := List.append_inj_right' hshape rfl
        have hbefore : PathBuf.stripPrefix? directory (logicalRoot config) = some before :=
          List.isPrefixOf?_eq_some_iff_append_eq.2 (List.append_inj_left' hshape rfl)
        refine ⟨?_, hsafe.2, ?_⟩
        · rw [outDirectory, hbefore, List.concat_eq_append, hlast]
          rfl
        · intro hsame
          have hlength := congrArg List.length hshape
          rw [← hsame] at hlength
          simp at hlength
    · cases h
  · rename_i hnoStrip
    have hstrip : PathBuf.stripPrefix? (directory ++ [.normal name]) (logicalRoot config) = none :=
      hnoStrip
    rw [PathBuf.fileName, List.getLast?_concat] at h
    have hrelative := Except.ok.inj h
    subst hrelative
    have hnone : PathBuf.stripPrefix? directory (logicalRoot config) = none := by
      rcases hcase : PathBuf.stripPrefix? directory (logicalRoot config) with _ | before
      · rfl
      · have hshape := List.isPrefixOf?_eq_some_iff_append_eq.1 hcase
        have hsome : PathBuf.stripPrefix? (directory ++ [.normal name]) (logicalRoot config)
            = some (before ++ [.normal name]) := by
          apply List.isPrefixOf?_eq_some_iff_append_eq.2
          rw [← List.append_assoc, hshape]
        rw [hsome] at hstrip
        cases hstrip
    refine ⟨?_, rfl, ?_⟩
    · rw [outDirectory, hnone]
      rfl
    · intro hsame
      have hself : PathBuf.stripPrefix? (directory ++ [.normal name])
          (directory ++ [.normal name]) = some [] :=
        List.isPrefixOf?_eq_some_iff_append_eq.2 (List.append_nil _)
      rw [hsame, hself] at hstrip
      cases hstrip

/-- A path that only goes down is put below the output root as it is. -/
theorem join_of_isNormal (h : relative.all Component.isNormal = true) (path : PathBuf) :
    PathBuf.join path relative = path ++ relative := by
  have hnot : ∀ component ∈ relative, component ≠ .curDir := by
    rintro component hmem rfl
    exact absurd (List.all_eq_true.1 h _ hmem) Bool.false_ne_true
  have hfilter : relative.filter (· ≠ .curDir) = relative := by
    apply List.filter_eq_self.2
    exact fun component hmem => decide_eq_true (hnot component hmem)
  unfold PathBuf.join
  split
  · exact absurd (List.all_eq_true.1 h _ List.mem_cons_self) Bool.false_ne_true
  · split
    · rename_i hnil
      rw [hnil, List.nil_append]
    · rw [hfilter]

/-- The place below the output root of a file that is planned for a source. -/
def placed (config : Config) (path : PathBuf) (extension : String) : PathBuf :=
  match relativeModulePath config path with
  | .ok relative => config.resolveRelativePath config.outDir
      ++ PathBuf.withExtension relative extension
  | .error _ => []

/-- What the plan pairs Python files and stubs by. -/
def moduleKey (config : Config) (path : PathBuf) : PathBuf :=
  match relativeModulePath config path with
  | .ok relative => PathBuf.withExtension relative ""
  | .error _ => []

/-! ## When a file spells its module -/

/-- The path below the logical root is the path below the source root. -/
def LiesAlike (config : Config) (source : DiscoveredSource) : Prop :=
  source.root = logicalRoot config
    ∨ (¬ logicalRoot config <+: source.path ∧ source.path.dropLast = source.root)

instance (config : Config) (source : DiscoveredSource) : Decidable (LiesAlike config source) :=
  inferInstanceAs (Decidable (_ ∨ _))

/-- The names of the module in a directory with a stem. -/
def namesOf (directory : PathBuf) (stem : String) : List String :=
  if stem = "__init__" then directory.map Component.text
  else directory.map Component.text ++ [stem]

theorem namesOf_append (more directory : PathBuf) (stem : String) :
    namesOf (more ++ directory) stem = more.map Component.text ++ namesOf directory stem := by
  rw [namesOf, namesOf]
  split
  · rw [List.map_append]
  · rw [List.map_append, List.append_assoc]

theorem spelledModule_of {ext : String} (hstem : stem ≠ "") (hext : '.' ∉ ext.toList) :
    spelledModule (directory ++ [.normal (stem ++ "." ++ ext)]) = join "." (namesOf directory stem) := by
  have hnames : (PathBuf.withExtension (directory ++ [.normal (stem ++ "." ++ ext)]) "").map
      Component.text = directory.map Component.text ++ [stem] := by
    rw [PathBuf.withExtension_of hstem hext, if_pos rfl, List.map_append]
    rfl
  rw [spelledModule, moduleNames, hnames, List.getLast?_concat, namesOf]
  by_cases hinit : stem = "__init__"
  · rw [if_pos hinit, hinit, if_pos rfl, List.dropLast_concat]
  · have hne : ¬some stem = some "__init__" := fun h => hinit (Option.some.inj h)
    rw [if_neg hinit, if_neg hne]

/-- The logical module is spelled by the path below the source root. -/
theorem Located.logicalModule (h : Located source directory stem)
    (hdisc : Discovered config source) :
    source.logicalModule = join "." (namesOf directory stem) ∧ namesOf directory stem ≠ [] := by
  have hmodule := hdisc.logicalModule
  have hstrip : PathBuf.stripPrefix? source.path source.root
      = some (directory ++ [.normal (stem ++ "." ++ suffixOf source.kind)]) :=
    List.isPrefixOf?_eq_some_iff_append_eq.2 h.path.symm
  have hparent : (PathBuf.parent (directory ++ [.normal (stem ++ "." ++ suffixOf source.kind)])).getD []
      = directory := by
    rw [PathBuf.parent, List.getLast?_concat]
    dsimp only
    rw [List.dropLast_concat]
    rfl
  have hfileStem : PathBuf.fileStem source.path = some stem := by
    rw [h.path_eq, PathBuf.fileStem, PathBuf.fileName, List.getLast?_concat]
    dsimp only [Option.map_some]
    rw [PathBuf.splitName_of h.nonempty (dot_not_mem_suffix _)]
  rw [logicalModulePath, hstrip, Option.bind_some] at hmodule
  dsimp only at hmodule
  rw [hparent, hfileStem, Option.bind_some] at hmodule
  rw [namesOf]
  split at hmodule
  · rename_i hinit
    rw [if_pos hinit]
    split at hmodule
    · cases hmodule
    · rename_i hne
      exact ⟨(Option.some.inj hmodule).symm, hne⟩
  · rename_i hinit
    rw [if_neg hinit]
    exact ⟨(Option.some.inj hmodule).symm, by simp⟩

theorem join_ne_empty {names : List String} (hne : names ≠ []) (hall : ∀ name ∈ names, name ≠ "") :
    join "." names ≠ "" := by
  cases names with
  | nil => exact absurd rfl hne
  | cons name rest =>
    have hname := hall name List.mem_cons_self
    cases rest with
    | nil => exact hname
    | cons next others =>
      intro hempty
      rw [join] at hempty
      have hlength := congrArg String.length hempty
      rw [String.length_append, String.length_append] at hlength
      have hdot : (".").length = 1 := rfl
      have hzero : ("").length = 0 := rfl
      omega

theorem namesOf_ne_empty (hstem : stem ≠ "") (hnames : directory.all Component.isName = true) :
    ∀ name ∈ namesOf directory stem, name ≠ "" := by
  have htext : ∀ name ∈ directory.map Component.text, name ≠ "" := by
    intro name hmem
    rcases List.mem_map.1 hmem with ⟨component, hcomponent, rfl⟩
    have hname := List.all_eq_true.1 hnames component hcomponent
    cases component with
    | normal text => exact of_decide_eq_true hname
    | _ => cases hname
  intro name hmem
  rw [namesOf] at hmem
  split at hmem
  · exact htext name hmem
  · rcases List.mem_append.1 hmem with hdirectory | hlast
    · exact htext name hdirectory
    · rw [List.mem_singleton.1 hlast]
      exact hstem

/-- Of two directories one of which is below the other, only the same one spells a module alike. -/
theorem join_namesOf_inj {other : PathBuf} (hstem : stem ≠ "")
    (hnames : directory.all Component.isName = true) (hne : namesOf directory stem ≠ [])
    (hsuffix : (∃ more, directory = more ++ other) ∨ ∃ more, other = more ++ directory)
    (h : join "." (namesOf other stem) = join "." (namesOf directory stem)) :
    other = directory := by
  have hdot : "." ≠ "" := by decide
  rcases hsuffix with ⟨more, rfl⟩ | ⟨more, rfl⟩
  · by_cases hmore : more = []
    · rw [hmore, List.nil_append]
    · have hmap : more.map Component.text ≠ [] := fun hnil => hmore (List.map_eq_nil_iff.1 hnil)
      by_cases hnil : namesOf other stem = []
      · rw [hnil] at h
        exact absurd h.symm (join_ne_empty hne (namesOf_ne_empty hstem hnames))
      · have hless := length_join_append hdot _ hnil hmap
        rw [← namesOf_append, ← h] at hless
        exact absurd hless (Nat.lt_irrefl _)
  · by_cases hmore : more = []
    · rw [hmore, List.nil_append]
    · have hmap : more.map Component.text ≠ [] := fun hnil => hmore (List.map_eq_nil_iff.1 hnil)
      have hless := length_join_append hdot _ hne hmap
      rw [← namesOf_append, h] at hless
      exact absurd hless (Nat.lt_irrefl _)

/-- The planned directory and the one below the source root end the same directory. -/
theorem outDirectory_suffix (config : Config) (root directory : PathBuf) :
    (∃ more, directory = more ++ outDirectory config (root ++ directory))
      ∨ ∃ more, outDirectory config (root ++ directory) = more ++ directory := by
  rcases hstrip : PathBuf.stripPrefix? (root ++ directory) (logicalRoot config) with _ | rest
  · rw [outDirectory, hstrip]
    exact .inl ⟨directory, (List.append_nil directory).symm⟩
  · rw [outDirectory, hstrip]
    have hshape := List.isPrefixOf?_eq_some_iff_append_eq.1 hstrip
    rcases List.append_eq_append_iff.1 hshape with ⟨more, -, hrest⟩ | ⟨more, -, hdirectory⟩
    · exact .inr ⟨more, hrest⟩
    · exact .inl ⟨more, hdirectory⟩

/-- The planned directory is the one below the source root when the source lies alike. -/
theorem Located.outDirectory_iff (h : Located source directory stem)
    (hcurDir : .curDir ∉ source.root ++ directory)
    (hrelative : relativeModulePath config source.path = .ok relative) :
    outDirectory config (source.root ++ directory) = directory ↔ LiesAlike config source := by
  rw [h.path_eq] at hrelative
  rcases relativeModulePath_ok hcurDir hrelative with ⟨-, -, hnotSelf⟩
  have hdropLast : source.path.dropLast = source.root ++ directory := by
    rw [h.path_eq, List.dropLast_concat]
  rcases hstrip : PathBuf.stripPrefix? (source.root ++ directory) (logicalRoot config) with _ | rest
  · -- the logical root is not above the source
    have hnot : ¬ logicalRoot config <+: source.path := by
      rintro ⟨rest, hrest⟩
      rw [h.path_eq] at hrest
      rcases List.eq_nil_or_concat rest with rfl | ⟨before, last, rfl⟩
      · rw [List.append_nil] at hrest
        exact hnotSelf hrest
      · rw [List.concat_eq_append, ← List.append_assoc] at hrest
        have hsome : PathBuf.stripPrefix? (source.root ++ directory) (logicalRoot config)
            = some before :=
          List.isPrefixOf?_eq_some_iff_append_eq.2 (List.append_inj_left' hrest rfl)
        rw [hsome] at hstrip
        cases hstrip
    have hroot : source.root ≠ logicalRoot config := by
      intro hsame
      apply hnot
      rw [← hsame, h.path]
      exact List.prefix_append _ _
    rw [outDirectory, hstrip, Option.getD_none, LiesAlike, hdropLast]
    constructor
    · rintro rfl
      exact .inr ⟨hnot, List.append_nil _⟩
    · rintro (hsame | ⟨-, hdirect⟩)
      · exact absurd hsame hroot
      · exact (List.append_right_eq_self.1 hdirect).symm
  · have hshape : logicalRoot config ++ rest = source.root ++ directory :=
      List.isPrefixOf?_eq_some_iff_append_eq.1 hstrip
    have habove : logicalRoot config <+: source.path := by
      rw [h.path_eq, ← hshape, List.append_assoc]
      exact List.prefix_append _ _
    rw [outDirectory, hstrip, Option.getD_some, LiesAlike]
    constructor
    · rintro rfl
      exact .inl (List.append_cancel_right hshape).symm
    · rintro (hsame | ⟨hnot, -⟩)
      · rw [← hsame] at hshape
        exact List.append_cancel_left hshape
      · exact absurd habove hnot

/-- A source that lies alike is planned. -/
theorem Located.planned (h : Located source directory stem)
    (hcurDir : .curDir ∉ source.root ++ directory) (hlies : LiesAlike config source) :
    ∃ relative, relativeModulePath config source.path = .ok relative := by
  have hcomparable : withoutCurrentDirectoryComponents source.path = source.path := by
    apply withoutCurrentDirectoryComponents_of
    rw [h.path_eq]
    simp only [List.mem_append, List.mem_singleton, not_or, reduceCtorEq, not_false_eq_true,
      and_true]
    exact ⟨fun hmem => hcurDir (List.mem_append_left _ hmem),
      fun hmem => hcurDir (List.mem_append_right _ hmem)⟩
  have hnormal : (directory ++ [Component.normal (stem ++ "." ++ suffixOf source.kind)]).all
      Component.isNormal = true := by
    rw [List.all_append, Bool.and_eq_true]
    refine ⟨?_, rfl⟩
    apply List.all_eq_true.2
    intro component hmem
    have hname := List.all_eq_true.1 h.names component hmem
    cases component with
    | normal => rfl
    | _ => cases hname
  unfold relativeModulePath
  rw [hcomparable]
  dsimp only
  rcases hlies with hsame | ⟨hnot, -⟩
  · have hstrip : PathBuf.stripPrefix? source.path
        (withoutCurrentDirectoryComponents (config.resolveRelativePath config.rootDir))
          = some (directory ++ [.normal (stem ++ "." ++ suffixOf source.kind)]) := by
      apply List.isPrefixOf?_eq_some_iff_append_eq.2
      rw [h.path, hsame, logicalRoot]
    rw [hstrip]
    dsimp only
    rw [hnormal]
    refine ⟨_, if_pos ?_⟩
    simp
  · have hstrip : PathBuf.stripPrefix? source.path
        (withoutCurrentDirectoryComponents (config.resolveRelativePath config.rootDir)) = none := by
      rcases hcase : PathBuf.stripPrefix? source.path (logicalRoot config) with _ | rest
      · exact hcase
      · exact absurd ⟨rest, List.isPrefixOf?_eq_some_iff_append_eq.1 hcase⟩ hnot
    rw [hstrip, h.path_eq, PathBuf.fileName, List.getLast?_concat]
    exact ⟨_, rfl⟩

/-- The paths that a planned source gets. -/
theorem Located.places (h : Located source directory stem)
    (hcurDir : .curDir ∉ source.root ++ directory)
    (hrelative : relativeModulePath config source.path = .ok relative) :
    moduleKey config source.path
        = outDirectory config (source.root ++ directory) ++ [.normal stem]
      ∧ ∀ ext ≠ "", placed config source.path ext = config.resolveRelativePath config.outDir
          ++ (outDirectory config (source.root ++ directory) ++ [.normal (stem ++ "." ++ ext)]) := by
  have hshape := hrelative
  rw [h.path_eq] at hshape
  rcases relativeModulePath_ok hcurDir hshape with ⟨rfl, -, -⟩
  rw [moduleKey, hrelative]
  dsimp only
  rw [PathBuf.withExtension_of h.nonempty (dot_not_mem_suffix _), if_pos rfl]
  refine ⟨rfl, ?_⟩
  intro ext hext
  rw [placed, hrelative]
  dsimp only
  rw [PathBuf.withExtension_of h.nonempty (dot_not_mem_suffix _), if_neg hext]

/-- A planned source's files spell its module when, and only when, it lies alike. -/
theorem Located.spelled_iff {ext : String} (h : Located source directory stem)
    (hdisc : Discovered config source)
    (hrelative : relativeModulePath config source.path = .ok relative) (hext : '.' ∉ ext.toList) :
    spelledModule (outDirectory config (source.root ++ directory) ++ [.normal (stem ++ "." ++ ext)])
        = source.logicalModule ↔ LiesAlike config source := by
  rw [← h.outDirectory_iff (hdisc.curDir_not_mem h) hrelative, spelledModule_of h.nonempty hext]
  rcases h.logicalModule hdisc with ⟨hmodule, hne⟩
  rw [hmodule]
  constructor
  · exact join_namesOf_inj h.nonempty h.names hne (outDirectory_suffix _ _ _)
  · exact fun hsame => by rw [hsame]

end TypePython.Emit
