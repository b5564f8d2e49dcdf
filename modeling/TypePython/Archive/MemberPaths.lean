import Mathlib.Data.Char
import Mathlib.Data.List.Lex
import Mathlib.Order.Lattice
import Mathlib.Data.List.Pairwise
import Mathlib.Data.List.Forall2
import TypePython.Lib.FileTrees
import TypePython.Lib.Text

/-!
# The member paths of an archive

The members of an archive are registered one after the other: a path is validated, then compared
with the members before it.

* `register_ok_iff`: when a member is accepted behind others;
* `registerAll_exact`: which archives are accepted, that the order of the members does not matter,
  and that what is accepted can be created below a directory.
-/

namespace TypePython.Archive

open TypePython.Lib TypePython.Lib.Text

inductive ArchivePathKind where
  | wheel
  | sdist
deriving DecidableEq, Repr

def ArchivePathKind.label : ArchivePathKind → String
  | .wheel => "wheel"
  | .sdist => "sdist"

/-! ## Validating a path -/

section

variable (kind : ArchivePathKind) (rendered : String)

/-- An ASCII letter and a colon at the start. Both are single bytes, as the source reads them. -/
def hasDrivePrefix : Chars → Bool
  | first :: second :: _ => first.isAlpha && second == ':'
  | _ => false

def checkComponents : List Chars → Except String Unit
  | [] => .ok ()
  | component :: rest =>
    if component = [] then
      .error (kind.label ++ " archive member path \x60" ++ rendered ++ "\x60 contains an empty component")
    else if component = ['.'] ∨ component = ['.', '.'] then
      .error (kind.label ++ " archive member path \x60" ++ rendered
        ++ "\x60 contains forbidden component \x60" ++ String.ofList component ++ "\x60")
    else checkComponents rest

/-- The checks behind a trailing separator that was taken off. -/
def validateStripped (path : Chars) : Except String Chars :=
  if path = [] then .error (kind.label ++ " archive member path is empty")
  else if hasDrivePrefix path = true then
    .error (kind.label ++ " archive member path \x60" ++ rendered
      ++ "\x60 contains a Windows drive prefix")
  else (checkComponents kind rendered (path.splitOn '/')).map fun _ => path

end

def validateArchiveMemberPath (rawPath : ByteArray) (kind : ArchivePathKind) (isDirectory : Bool) :
    Except String Chars :=
  match String.fromUTF8? rawPath with
  | none => .error (kind.label ++ " archive member path is not valid UTF-8")
  | some rendered =>
    if '\x00' ∈ rendered.toList then
      .error (kind.label ++ " archive member path contains a NUL byte")
    else if '\\' ∈ rendered.toList then
      .error (kind.label ++ " archive member path \x60" ++ rendered ++ "\x60 uses a backslash separator")
    else if rendered.toList.head? = some '/' then
      -- the source makes this test twice
      .error (kind.label ++ " archive member path \x60" ++ rendered ++ "\x60 must be relative")
    else if rendered.toList.getLast? = some '/' then
      if isDirectory = false then
        .error (kind.label ++ " archive file member path \x60" ++ rendered
          ++ "\x60 has a trailing separator")
      else validateStripped kind rendered rendered.toList.dropLast
    else validateStripped kind rendered rendered.toList

/-! ## Registering members -/

/-- The paths of all members and those of the files. -/
structure ArchiveMemberPaths where
  kind : ArchivePathKind
  seen : List Chars
  files : List Chars

def ArchiveMemberPaths.new (kind : ArchivePathKind) : ArchiveMemberPaths :=
  { kind := kind, seen := [], files := [] }

/-- The first ancestor that is a file, from the outermost one on. -/
def fileAncestor (files : List Chars) (ancestor : Chars) : List Chars → Option Chars
  | [] => none
  | component :: rest =>
    let longer := (if ancestor = [] then [] else ancestor ++ ['/']) ++ component
    if longer ∈ files then some longer else fileAncestor files longer rest

/-- The least member from a bound on, as the range of an ordered set begins. -/
def rangeNext (seen : List Chars) (bound : Chars) : Option Chars :=
  (seen.filter (bound ≤ ·)).min?

def descendantOf (seen : List Chars) (path : Chars) : Option Chars :=
  (rangeNext seen (path ++ ['/'])).filter fun descendant => (path ++ ['/']).isPrefixOf descendant

def ArchiveMemberPaths.register (paths : ArchiveMemberPaths) (rawPath : ByteArray)
    (isDirectory : Bool) : Except String (ArchiveMemberPaths × Chars) :=
  match validateArchiveMemberPath rawPath paths.kind isDirectory with
  | .error message => .error message
  | .ok path =>
    if path ∈ paths.seen then
      .error (paths.kind.label ++ " archive contains duplicate member path \x60"
        ++ String.ofList path ++ "\x60")
    else
      match fileAncestor paths.files [] (path.splitOn '/').dropLast with
      | some ancestor =>
        .error (paths.kind.label ++ " archive member \x60" ++ String.ofList path
          ++ "\x60 is nested below file member \x60" ++ String.ofList ancestor ++ "\x60")
      | none =>
        match if isDirectory then none else descendantOf paths.seen path with
        | some descendant =>
          .error (paths.kind.label ++ " archive file member \x60" ++ String.ofList path
            ++ "\x60 conflicts with member \x60" ++ String.ofList descendant ++ "\x60")
        | none =>
          .ok ({ paths with
            seen := path :: paths.seen
            files := if isDirectory then paths.files else path :: paths.files }, path)

structure ArchiveEntry where
  rawPath : ByteArray
  isDirectory : Bool

def registerAll (paths : ArchiveMemberPaths) : List ArchiveEntry → Except String ArchiveMemberPaths
  | [] => .ok paths
  | entry :: rest =>
    match paths.register entry.rawPath entry.isDirectory with
    | .error message => .error message
    | .ok (paths, _) => registerAll paths rest

def Accepted (kind : ArchivePathKind) (entries : List ArchiveEntry) : Prop :=
  ∃ paths, registerAll (ArchiveMemberPaths.new kind) entries = .ok paths

/-! ## What is to be accepted -/

/-- The path that an entry stands for: its text, for a directory also without a trailing slash. -/
structure Normalises (entry : ArchiveEntry) (path : Chars) : Prop where
  text : ∃ text, String.fromUTF8? entry.rawPath = some text
    ∧ (text.toList = path ∨ entry.isDirectory = true ∧ text.toList = path ++ ['/'])
  relative : path.head? ≠ some '/'
  noNul : '\x00' ∉ path
  noBackslash : '\\' ∉ path
  noDrive : ∀ letter rest, path = letter :: ':' :: rest → letter.isAlpha = false
  components : ∀ component ∈ path.splitOn '/',
    component ≠ [] ∧ component ≠ ['.'] ∧ component ≠ ['.', '.']

/-- The components of one path begin those of another one, which goes on. -/
def ProperAncestor (path descendant : Chars) : Prop :=
  path.splitOn '/' <+: descendant.splitOn '/' ∧ path ≠ descendant

/-- A file that is a proper ancestor of another entry. -/
def FileAbove (file entry : ArchiveEntry) : Prop :=
  file.isDirectory = false
    ∧ ∃ path descendant, Normalises file path ∧ Normalises entry descendant
      ∧ ProperAncestor path descendant

structure Acceptable (entries : List ArchiveEntry) : Prop where
  valid : ∀ entry ∈ entries, ∃ path, Normalises entry path
  distinct : entries.Pairwise fun first second =>
    ∀ path, ¬ (Normalises first path ∧ Normalises second path)
  noFileAbove : ∀ file ∈ entries, ∀ entry ∈ entries, ¬ FileAbove file entry

/-- The place that a path names from a root on. -/
def resolveFrom (place : List Chars) : List Chars → List Chars
  | [] => place
  | component :: rest =>
    if component = [] ∨ component = ['.'] then resolveFrom place rest
    else if component = ['.', '.'] then resolveFrom place.dropLast rest
    else resolveFrom (place ++ [component]) rest

def resolve (root : List Chars) (path : Chars) : List Chars :=
  resolveFrom (if path.head? = some '/' then [] else root) (path.splitOn '/')

/-- The file or directory that an entry becomes below a root. -/
structure PlacedAs (root : List Chars) (entry : ArchiveEntry) (item : TreeMember Chars) : Prop where
  place : ∃ path, Normalises entry path ∧ resolve root path = root ++ item.path
  below : item.path ≠ []
  kind : item.kind = if entry.isDirectory then .directory else .file

/-! ## Paths and their components -/

theorem split_append (front rest : Chars) :
    (front ++ '/' :: rest).splitOn '/' = front.splitOn '/' ++ rest.splitOn '/' :=
  List.splitOn_append_cons_self front rest

theorem split_injective {first second : Chars} (h : first.splitOn '/' = second.splitOn '/') :
    first = second := by
  have hjoined := congrArg ['/'].intercalate h
  rwa [List.intercalate_splitOn, List.intercalate_splitOn] at hjoined

/-- Joining two lists of components. -/
theorem intercalate_append {front rest : List Chars} (hfront : front ≠ []) (hrest : rest ≠ []) :
    ['/'].intercalate (front ++ rest)
      = ['/'].intercalate front ++ '/' :: ['/'].intercalate rest := by
  induction front with
  | nil => exact absurd rfl hfront
  | cons component front ih =>
    cases front with
    | nil =>
      rw [List.singleton_append, List.intercalate_cons_of_ne_nil hrest, List.intercalate_singleton,
        List.append_assoc]
      rfl
    | cons other front =>
      rw [List.cons_append, List.cons_append, List.intercalate_cons_cons, ← List.cons_append,
        ih (List.cons_ne_nil _ _), List.intercalate_cons_cons]
      simp only [List.append_assoc]

/-- A path with a slash behind it begins another one exactly when its components do. -/
theorem slash_prefix_iff (path descendant : Chars) :
    path ++ ['/'] <+: descendant ↔ ProperAncestor path descendant := by
  constructor
  · rintro ⟨rest, rfl⟩
    rw [List.append_assoc]
    refine ⟨⟨rest.splitOn '/', (split_append path rest).symm⟩, fun heq => ?_⟩
    have hlength := congrArg List.length heq
    simp only [List.length_append, List.length_singleton] at hlength
    omega
  · rintro ⟨⟨rest, hrest⟩, hne⟩
    have hrestNe : rest ≠ [] := by
      intro hnil
      rw [hnil, List.append_nil] at hrest
      exact hne (split_injective hrest)
    have hjoined := congrArg ['/'].intercalate hrest
    rw [intercalate_append (List.splitOn_ne_nil _ _) hrestNe, List.intercalate_splitOn,
      List.intercalate_splitOn] at hjoined
    refine ⟨['/'].intercalate rest, ?_⟩
    rw [List.append_assoc]
    exact hjoined

variable {path : Chars}

theorem slash_not_mem_component {component : Chars} (h : component ∈ path.splitOn '/') :
    '/' ∉ component := by
  induction path generalizing component with
  | nil =>
    rw [List.splitOn_nil, List.mem_singleton] at h
    rw [h]
    exact List.not_mem_nil
  | cons c path ih =>
    rw [List.splitOn_cons_eq_if_modifyHead] at h
    split at h
    · rcases List.mem_cons.mp h with rfl | hmem
      · exact List.not_mem_nil
      · exact ih hmem
    · rename_i hslash
      cases hsplit : path.splitOn '/' with
      | nil => exact absurd hsplit (List.splitOn_ne_nil _ _)
      | cons first others =>
        rw [hsplit, List.modifyHead_cons] at h
        rcases List.mem_cons.mp h with rfl | hmem
        · intro hmem
          rcases List.mem_cons.mp hmem with heq | hmem
          · exact hslash (by rw [← heq]; exact beq_self_eq_true _)
          · exact ih (by rw [hsplit]; exact List.mem_cons_self) hmem
        · exact ih (by rw [hsplit]; exact List.mem_cons_of_mem _ hmem)

/-- Without empty components there is no slash at either end. -/
theorem slash_ends (h : ∀ component ∈ path.splitOn '/', component ≠ []) :
    path.head? ≠ some '/' ∧ path.getLast? ≠ some '/' ∧ path ≠ [] := by
  refine ⟨fun hhead => ?_, fun hlast => ?_, fun hnil => ?_⟩
  · cases path with
    | nil => cases hhead
    | cons c rest =>
      have hsplit := split_append [] rest
      rw [List.nil_append] at hsplit
      rw [show c = '/' from Option.some.inj hhead, hsplit] at h
      exact h [] (List.mem_append_left _ (by rw [List.splitOn_nil]; exact List.mem_singleton.mpr rfl)) rfl
  · rcases List.getLast?_eq_some_iff.mp hlast with ⟨front, hfront⟩
    rw [hfront, split_append front []] at h
    exact h [] (List.mem_append_right _ (by rw [List.splitOn_nil]; exact List.mem_singleton.mpr rfl)) rfl
  · rw [hnil, List.splitOn_nil] at h
    exact h [] (List.mem_singleton.mpr rfl) rfl

/-! ## The validation -/

theorem checkComponents_ok_iff (kind : ArchivePathKind) (rendered : String)
    (components : List Chars) : checkComponents kind rendered components = .ok ()
      ↔ ∀ component ∈ components,
        component ≠ [] ∧ component ≠ ['.'] ∧ component ≠ ['.', '.'] := by
  induction components with
  | nil => exact ⟨fun _ _ hmem => absurd hmem List.not_mem_nil, fun _ => rfl⟩
  | cons component rest ih =>
    rw [checkComponents, List.forall_mem_cons]
    split
    · rename_i hempty
      exact ⟨nofun, fun h => absurd hempty h.1.1⟩
    · rename_i hempty
      split
      · rename_i hdots
        exact ⟨nofun, fun h => hdots.elim (fun heq => absurd heq h.1.2.1) fun heq => absurd heq h.1.2.2⟩
      · rename_i hdots
        rw [ih]
        exact ⟨fun h => ⟨⟨hempty, not_or.mp hdots⟩, h⟩, fun h => h.2⟩

theorem hasDrivePrefix_iff (path : Chars) : hasDrivePrefix path = true
    ↔ ∃ letter rest, path = letter :: ':' :: rest ∧ letter.isAlpha = true := by
  match path with
  | [] => exact ⟨nofun, nofun⟩
  | [first] => exact ⟨nofun, nofun⟩
  | first :: second :: rest =>
    rw [hasDrivePrefix, Bool.and_eq_true, beq_iff_eq]
    constructor
    · rintro ⟨hletter, rfl⟩
      exact ⟨first, rest, rfl, hletter⟩
    · rintro ⟨letter, others, heq, hletter⟩
      injection heq with hfirst hothers
      injection hothers with hsecond _
      rw [hfirst]
      exact ⟨hletter, hsecond⟩

theorem validateStripped_ok_iff (kind : ArchivePathKind) (rendered : String) (path out : Chars) :
    validateStripped kind rendered path = .ok out ↔ out = path ∧ hasDrivePrefix path ≠ true
      ∧ ∀ component ∈ path.splitOn '/',
        component ≠ [] ∧ component ≠ ['.'] ∧ component ≠ ['.', '.'] := by
  unfold validateStripped
  split
  · rename_i hnil
    exact ⟨nofun, fun h => absurd hnil (slash_ends fun c hc => (h.2.2 c hc).1).2.2⟩
  · split
    · rename_i hdrive
      exact ⟨nofun, fun h => absurd hdrive h.2.1⟩
    · rename_i hdrive
      rw [← checkComponents_ok_iff kind rendered]
      cases checkComponents kind rendered (path.splitOn '/') with
      | error message => exact ⟨nofun, nofun⟩
      | ok _ =>
        exact ⟨fun h => ⟨(Except.ok.inj h).symm, hdrive, rfl⟩, fun h => by rw [h.1]; rfl⟩

/-- Exactly the paths that entries stand for pass the validation. -/
theorem validate_ok_iff (entry : ArchiveEntry) (kind : ArchivePathKind) (path : Chars) :
    validateArchiveMemberPath entry.rawPath kind entry.isDirectory = .ok path
      ↔ Normalises entry path := by
  unfold validateArchiveMemberPath
  constructor
  · intro h
    split at h
    · cases h
    · rename_i rendered hrendered
      split_ifs at h with hnul hback hhead hlast hfile
      · rcases (validateStripped_ok_iff _ _ _ _).mp h with ⟨rfl, hdrive, hcomponents⟩
        rcases List.getLast?_eq_some_iff.mp hlast with ⟨front, hfront⟩
        rw [hfront, List.dropLast_concat] at hdrive hcomponents ⊢
        rw [hfront] at hnul hback
        refine ⟨⟨rendered, hrendered, Or.inr ⟨by rwa [Bool.not_eq_false] at hfile, hfront⟩⟩,
          (slash_ends fun c hc => (hcomponents c hc).1).1,
          fun hmem => hnul (List.mem_append_left _ hmem),
          fun hmem => hback (List.mem_append_left _ hmem), ?_, hcomponents⟩
        intro letter rest heq
        rw [← Bool.not_eq_true]
        exact fun hletter => hdrive ((hasDrivePrefix_iff _).mpr ⟨letter, rest, heq, hletter⟩)
      · rcases (validateStripped_ok_iff _ _ _ _).mp h with ⟨rfl, hdrive, hcomponents⟩
        refine ⟨⟨rendered, hrendered, Or.inl rfl⟩, hhead, hnul, hback, ?_, hcomponents⟩
        intro letter rest heq
        rw [← Bool.not_eq_true]
        exact fun hletter => hdrive ((hasDrivePrefix_iff _).mpr ⟨letter, rest, heq, hletter⟩)
  · intro h
    rcases h.text with ⟨rendered, hrendered, htext⟩
    have hends := slash_ends fun c hc => (h.components c hc).1
    have hstripped : validateStripped kind rendered path = .ok path := by
      refine (validateStripped_ok_iff _ _ _ _).mpr ⟨rfl, fun hdrive => ?_, h.components⟩
      rcases (hasDrivePrefix_iff path).mp hdrive with ⟨letter, rest, heq, hletter⟩
      rw [h.noDrive letter rest heq] at hletter
      cases hletter
    rw [hrendered]
    dsimp only
    rcases htext with htext | ⟨hdir, htext⟩
    · rw [htext, if_neg h.noNul, if_neg h.noBackslash, if_neg h.relative, if_neg hends.2.1]
      exact hstripped
    · have hnotSlash : ∀ {c : Char}, c ≠ '/' → c ∉ path → c ∉ path ++ ['/'] := by
        intro c hc hmem hin
        rcases List.mem_append.mp hin with hin | hin
        · exact hmem hin
        · exact hc (List.mem_singleton.mp hin)
      have hhead : (path ++ ['/']).head? ≠ some '/' := by
        rw [List.head?_append_of_ne_nil _ hends.2.2]
        exact h.relative
      rw [htext, if_neg (hnotSlash (by decide) h.noNul), if_neg (hnotSlash (by decide) h.noBackslash),
        if_neg hhead, if_pos List.getLast?_concat, if_neg (by rw [hdir]; decide),
        List.dropLast_concat]
      exact hstripped

variable {entry : ArchiveEntry}

/-- An entry stands for one path. -/
theorem normalises_unique {other : Chars} (h : Normalises entry path)
    (hother : Normalises entry other) : path = other := by
  have hpath := (validate_ok_iff entry .wheel path).mpr h
  rw [(validate_ok_iff entry .wheel other).mpr hother] at hpath
  exact (Except.ok.inj hpath).symm

/-! ## Ancestors and descendants among the members -/

section

variable {α : Type} [LinearOrder α]

theorem le_of_prefix {front text : List α} (h : front <+: text) : front ≤ text := by
  induction front generalizing text with
  | nil => exact not_lt.mp (List.not_lt_nil text)
  | cons c front ih =>
    rcases h with ⟨rest, rfl⟩
    exact List.cons_le_cons c (ih (List.prefix_append front rest))

/-- What lies between a text and one that begins with it begins with it as well. -/
theorem prefix_between {front middle text : List α} (h : front <+: text) (hle : front ≤ middle)
    (hle' : middle ≤ text) : front <+: middle := by
  induction front generalizing middle text with
  | nil => exact List.nil_prefix
  | cons c front ih =>
    rcases h with ⟨rest, rfl⟩
    cases middle with
    | nil => exact absurd (List.nil_lt_cons c front) (not_lt.mpr hle)
    | cons d middle =>
      rw [← not_lt, List.cons_lt_cons_iff] at hle
      rw [List.cons_append, ← not_lt, List.cons_lt_cons_iff] at hle'
      have heq : c = d := by
        rcases lt_trichotomy c d with hlt | heq | hlt
        · exact absurd (Or.inl hlt) hle'
        · exact heq
        · exact absurd (Or.inl hlt) hle
      have hfront : front ≤ middle := not_lt.mp fun hlt => hle (Or.inr ⟨heq.symm, hlt⟩)
      have hmiddle : middle ≤ front ++ rest := not_lt.mp fun hlt => hle' (Or.inr ⟨heq, hlt⟩)
      exact List.cons_prefix_cons.mpr ⟨heq, ih (List.prefix_append front rest) hfront hmiddle⟩

end

/-- The least member from the slash on decides whether there is a descendant. -/
theorem descendantOf_none_iff (seen : List Chars) (path : Chars) :
    descendantOf seen path = none ↔ ∀ other ∈ seen, ¬ ProperAncestor path other := by
  unfold descendantOf
  cases hnext : rangeNext seen (path ++ ['/']) with
  | none =>
    refine ⟨fun _ other hmem habove => ?_, fun _ => rfl⟩
    have hfilter := List.min?_eq_none_iff.mp hnext
    have hin : other ∈ seen.filter (path ++ ['/'] ≤ ·) := List.mem_filter.mpr
      ⟨hmem, decide_eq_true ( le_of_prefix ((slash_prefix_iff path other).mpr habove))⟩
    rw [hfilter] at hin
    exact List.not_mem_nil hin
  | some least =>
    rcases List.min?_eq_some_iff.mp hnext with ⟨hleast, hmin⟩
    rcases List.mem_filter.mp hleast with ⟨hseen, hle⟩
    rw [Option.filter_eq_none_iff]
    constructor
    · intro h other hmem habove
      have hprefix := (slash_prefix_iff path other).mpr habove
      have hother := hmin other (List.mem_filter.mpr
        ⟨hmem, decide_eq_true ( le_of_prefix hprefix)⟩)
      have hfirst := prefix_between hprefix (of_decide_eq_true hle) hother
      exact h least rfl (List.isPrefixOf_iff_prefix.mpr hfirst)
    · rintro h _ ⟨⟩ hprefix
      exact h least hseen
        ((slash_prefix_iff path least).mp (List.isPrefixOf_iff_prefix.mp hprefix))

/-- The text that the loop puts together is the components joined by slashes. -/
theorem fileAncestor_none_iff (files : List Chars) {rest : List Chars} :
    ∀ {front : List Chars}, (∀ component ∈ front ++ rest, component ≠ []) →
      (fileAncestor files (['/'].intercalate front) rest = none
        ↔ ∀ more, more <+: rest → more ≠ [] → ['/'].intercalate (front ++ more) ∉ files) := by
  induction rest with
  | nil =>
    intro front _
    exact ⟨fun _ more hmore hne => absurd (List.prefix_nil.mp hmore) hne, fun _ => rfl⟩
  | cons component rest ih =>
    intro front h
    have hlonger : (if ['/'].intercalate front = [] then []
        else ['/'].intercalate front ++ ['/']) ++ component
          = ['/'].intercalate (front ++ [component]) := by
      cases front with
      | nil => rw [List.intercalate_nil, if_pos rfl, List.nil_append, List.nil_append, List.intercalate_singleton]
      | cons first others =>
        have hne : ['/'].intercalate (first :: others) ≠ [] := by
          have hfirst := h first (List.mem_append_left _ List.mem_cons_self)
          cases others with
          | nil => rwa [List.intercalate_singleton]
          | cons second others =>
            rw [List.intercalate_cons_cons]
            simp
        rw [if_neg hne, intercalate_append (List.cons_ne_nil _ _) (List.cons_ne_nil _ _),
          List.intercalate_singleton, List.append_assoc]
        rfl
    have hnext : ∀ other ∈ front ++ [component] ++ rest, other ≠ [] := by
      rwa [List.append_assoc]
    rw [fileAncestor, hlonger]
    constructor
    · intro hnone more hmore hne
      split at hnone
      · cases hnone
      · rename_i hnot
        cases more with
        | nil => exact absurd rfl hne
        | cons first more =>
          rcases List.cons_prefix_cons.mp hmore with ⟨hfirst, hinRest⟩
          rw [hfirst]
          by_cases hmoreNil : more = []
          · rw [hmoreNil]
            exact hnot
          · have hlater := (ih hnext).mp hnone more hinRest hmoreNil
            rwa [List.append_assoc] at hlater
    · intro hall
      rw [if_neg (hall [component] (List.cons_prefix_cons.mpr ⟨rfl, List.nil_prefix⟩) (List.cons_ne_nil _ _))]
      refine (ih hnext).mpr fun more hmore _ => ?_
      rw [List.append_assoc]
      exact hall (component :: more) (List.cons_prefix_cons.mpr ⟨rfl, hmore⟩) (List.cons_ne_nil _ _)

/-- No file among the proper ancestors is found exactly when none is one. -/
theorem fileAncestor_path_iff (files : List Chars)
    (h : ∀ component ∈ path.splitOn '/', component ≠ []) :
    fileAncestor files [] (path.splitOn '/').dropLast = none
      ↔ ∀ file ∈ files, ¬ ProperAncestor file path := by
  have hparts : ∀ component ∈ [] ++ (path.splitOn '/').dropLast, component ≠ [] :=
    fun component hmem => h component (List.dropLast_subset _ hmem)
  have hiff := fileAncestor_none_iff files hparts
  rw [List.intercalate_nil] at hiff
  rw [hiff]
  constructor
  · rintro hnone file hfile ⟨⟨rest, hrest⟩, hne⟩
    have hrestNe : rest ≠ [] := by
      intro hnil
      rw [hnil, List.append_nil] at hrest
      exact hne (split_injective hrest)
    have hshort : file.splitOn '/' <+: (path.splitOn '/').dropLast := by
      rw [← hrest, List.dropLast_append_of_ne_nil hrestNe]
      exact List.prefix_append _ _
    refine hnone _ hshort (List.splitOn_ne_nil _ _) ?_
    rw [List.nil_append, List.intercalate_splitOn]
    exact hfile
  · intro hall more hmore hne hfile
    rw [List.nil_append] at hfile
    have hwhole : more <+: path.splitOn '/' := hmore.trans (List.dropLast_prefix _)
    have hsplit : (['/'].intercalate more).splitOn '/' = more :=
      List.splitOn_intercalate '/'
        (fun component hmem => slash_not_mem_component (hwhole.subset hmem)) hne
    refine hall _ hfile ⟨by rwa [hsplit], fun heq => ?_⟩
    rw [heq] at hsplit
    have hlength := hmore.length_le
    have hpos := List.length_pos_of_ne_nil hne
    rw [List.length_dropLast, hsplit] at hlength
    omega

/-! ## Registering one member -/

theorem register_ok_iff (paths : ArchiveMemberPaths) (entry : ArchiveEntry)
    (result : ArchiveMemberPaths × Chars) :
    paths.register entry.rawPath entry.isDirectory = .ok result
      ↔ ∃ path, Normalises entry path ∧ path ∉ paths.seen
        ∧ (∀ file ∈ paths.files, ¬ ProperAncestor file path)
        ∧ (entry.isDirectory = false → ∀ other ∈ paths.seen, ¬ ProperAncestor path other)
        ∧ result = ({ paths with
            seen := path :: paths.seen
            files := if entry.isDirectory then paths.files else path :: paths.files }, path) := by
  unfold ArchiveMemberPaths.register
  cases hvalid : validateArchiveMemberPath entry.rawPath paths.kind entry.isDirectory with
  | error message =>
    refine ⟨nofun, ?_⟩
    rintro ⟨path, hpath, -⟩
    rw [(validate_ok_iff entry paths.kind path).mpr hpath] at hvalid
    cases hvalid
  | ok path =>
    have hpath := (validate_ok_iff entry paths.kind path).mp hvalid
    have hfiles := fileAncestor_path_iff paths.files fun c hc => (hpath.components c hc).1
    have hdescendant : (if entry.isDirectory = true then none else descendantOf paths.seen path)
        = none ↔ (entry.isDirectory = false → ∀ other ∈ paths.seen, ¬ ProperAncestor path other) := by
      cases entry.isDirectory with
      | true => exact ⟨fun _ => nofun, fun _ => rfl⟩
      | false => exact (descendantOf_none_iff paths.seen path).trans ⟨fun h _ => h, fun h => h rfl⟩
    dsimp only
    constructor
    · intro h
      split at h
      · cases h
      · rename_i hseen
        split at h
        · cases h
        · rename_i hancestor
          split at h
          · cases h
          · rename_i hnone
            exact ⟨path, hpath, hseen, hfiles.mp hancestor, hdescendant.mp hnone,
              (Except.ok.inj h).symm⟩
    · rintro ⟨other, hother, hseen, habove, hbelow, rfl⟩
      rcases normalises_unique hpath hother with rfl
      rw [if_neg hseen, hfiles.mpr habove, hdescendant.mpr hbelow]

/-! ## Registering all members -/

/-- Two entries that can be in one archive. -/
structure Compatible (first second : ArchiveEntry) : Prop where
  differ : ∀ path, ¬ (Normalises first path ∧ Normalises second path)
  below : ¬ FileAbove first second
  above : ¬ FileAbove second first

theorem Compatible.symm {first second : ArchiveEntry} (h : Compatible first second) :
    Compatible second first where
  differ path hboth := h.differ path hboth.symm
  below := h.above
  above := h.below

/-- What is registered behind some entries. -/
structure Registered (entries : List ArchiveEntry) (paths : ArchiveMemberPaths) : Prop where
  seen : ∀ path, path ∈ paths.seen ↔ ∃ entry ∈ entries, Normalises entry path
  files : ∀ path, path ∈ paths.files
    ↔ ∃ entry ∈ entries, entry.isDirectory = false ∧ Normalises entry path

theorem registered_new (kind : ArchivePathKind) : Registered [] (ArchiveMemberPaths.new kind) where
  seen _ := ⟨nofun, nofun⟩
  files _ := ⟨nofun, nofun⟩

variable {entries : List ArchiveEntry}

theorem registered_step {paths : ArchiveMemberPaths} (h : Registered entries paths)
    (hpath : Normalises entry path) : Registered (entry :: entries) { paths with
      seen := path :: paths.seen
      files := if entry.isDirectory then paths.files else path :: paths.files } where
  seen other := by
    rw [List.mem_cons, h.seen, List.exists_mem_cons_iff]
    refine or_congr ⟨?_, fun hother => normalises_unique hother hpath⟩ Iff.rfl
    rintro rfl
    exact hpath
  files other := by
    rw [List.exists_mem_cons_iff, ← h.files]
    cases entry.isDirectory with
    | true => exact ⟨Or.inr, fun hor => hor.elim (fun hfile => nomatch hfile.1) id⟩
    | false =>
      rw [if_neg (by decide), List.mem_cons]
      refine or_congr ⟨?_, fun hother => normalises_unique hother.2 hpath⟩ Iff.rfl
      rintro rfl
      exact ⟨rfl, hpath⟩

/-- Behind compatible entries a member is accepted when it is valid and compatible with each of
them. -/
theorem register_behind_iff {paths : ArchiveMemberPaths} (h : Registered entries paths)
    (hpath : Normalises entry path) :
    (path ∉ paths.seen ∧ (∀ file ∈ paths.files, ¬ ProperAncestor file path)
        ∧ (entry.isDirectory = false → ∀ other ∈ paths.seen, ¬ ProperAncestor path other))
      ↔ ∀ earlier ∈ entries, Compatible earlier entry := by
  constructor
  · rintro ⟨hseen, hfiles, hbelow⟩ earlier hmem
    refine ⟨?_, ?_, ?_⟩
    · rintro other ⟨hearlier, hother⟩
      rw [normalises_unique hother hpath] at hearlier
      exact hseen ((h.seen path).mpr ⟨earlier, hmem, hearlier⟩)
    · rintro ⟨hfile, file, descendant, hearlier, hdescendant, habove⟩
      rw [normalises_unique hdescendant hpath] at habove
      exact hfiles file ((h.files file).mpr ⟨earlier, hmem, hfile, hearlier⟩) habove
    · rintro ⟨hfile, file, descendant, hother, hdescendant, habove⟩
      rw [normalises_unique hother hpath] at habove
      exact hbelow hfile descendant ((h.seen descendant).mpr ⟨earlier, hmem, hdescendant⟩) habove
  · intro hall
    refine ⟨fun hseen => ?_, fun file hfile habove => ?_, fun hfile other hother habove => ?_⟩
    · rcases (h.seen path).mp hseen with ⟨earlier, hmem, hearlier⟩
      exact (hall earlier hmem).differ path ⟨hearlier, hpath⟩
    · rcases (h.files file).mp hfile with ⟨earlier, hmem, hkind, hearlier⟩
      exact (hall earlier hmem).below ⟨hkind, file, path, hearlier, hpath, habove⟩
    · rcases (h.seen other).mp hother with ⟨earlier, hmem, hearlier⟩
      exact (hall earlier hmem).above ⟨hfile, path, other, hpath, hearlier, habove⟩

theorem registerAll_ok_iff {rest : List ArchiveEntry} :
    ∀ {entries : List ArchiveEntry} {paths : ArchiveMemberPaths}, Registered entries paths →
      ((∃ result, registerAll paths rest = .ok result)
        ↔ (∀ entry ∈ rest, ∃ path, Normalises entry path)
          ∧ (∀ earlier ∈ entries, ∀ entry ∈ rest, Compatible earlier entry)
          ∧ rest.Pairwise Compatible) := by
  induction rest with
  | nil =>
    intro entries paths _
    exact ⟨fun _ => ⟨nofun, fun _ _ => nofun, List.Pairwise.nil⟩, fun _ => ⟨paths, rfl⟩⟩
  | cons entry rest ih =>
    intro entries paths h
    rw [registerAll]
    constructor
    · rintro ⟨result, hresult⟩
      split at hresult
      · cases hresult
      · rename_i next out hregister
        rcases (register_ok_iff paths entry (next, out)).mp hregister
          with ⟨path, hpath, hseen, hfiles, hbelow, hnext⟩
        rcases Prod.mk.inj hnext with ⟨rfl, rfl⟩
        have hall := (register_behind_iff h hpath).mp ⟨hseen, hfiles, hbelow⟩
        rcases (ih (registered_step h hpath)).mp ⟨result, hresult⟩ with ⟨hvalid, hearlier, hpairs⟩
        refine ⟨List.forall_mem_cons.mpr ⟨⟨out, hpath⟩, hvalid⟩, fun earlier hmem =>
          List.forall_mem_cons.mpr ⟨hall earlier hmem, fun other hother =>
            hearlier earlier (List.mem_cons_of_mem _ hmem) other hother⟩,
          List.pairwise_cons.mpr ⟨hearlier entry List.mem_cons_self, hpairs⟩⟩
    · rintro ⟨hvalid, hearlier, hpairs⟩
      rcases hvalid entry List.mem_cons_self with ⟨path, hpath⟩
      have hbehind := (register_behind_iff h hpath).mpr fun earlier hmem =>
        hearlier earlier hmem entry List.mem_cons_self
      have hregister := (register_ok_iff paths entry _).mpr
        ⟨path, hpath, hbehind.1, hbehind.2.1, hbehind.2.2, rfl⟩
      rw [hregister]
      rcases List.pairwise_cons.mp hpairs with ⟨hfirst, hpairs⟩
      refine (ih (registered_step h hpath)).mpr
        ⟨fun other hother => hvalid other (List.mem_cons_of_mem _ hother), ?_, hpairs⟩
      exact List.forall_mem_cons.mpr ⟨hfirst, fun earlier hmem other hother =>
        hearlier earlier hmem other (List.mem_cons_of_mem _ hother)⟩

/-! ## Which archives are accepted -/

theorem accepted_iff_compatible (kind : ArchivePathKind) (entries : List ArchiveEntry) :
    Accepted kind entries
      ↔ (∀ entry ∈ entries, ∃ path, Normalises entry path) ∧ entries.Pairwise Compatible := by
  refine (registerAll_ok_iff (registered_new kind)).trans ⟨fun h => ⟨h.1, h.2.2⟩, fun h => ?_⟩
  exact ⟨h.1, nofun, h.2⟩

theorem not_fileAbove_self (entry : ArchiveEntry) : ¬ FileAbove entry entry := by
  rintro ⟨-, path, descendant, hpath, hdescendant, -, hne⟩
  exact hne (normalises_unique hpath hdescendant)

theorem acceptable_iff_compatible (entries : List ArchiveEntry) :
    Acceptable entries
      ↔ (∀ entry ∈ entries, ∃ path, Normalises entry path) ∧ entries.Pairwise Compatible := by
  constructor
  · intro h
    refine ⟨h.valid, h.distinct.imp_of_mem fun hfirst hsecond hdiffer => ⟨hdiffer, ?_, ?_⟩⟩
    · exact h.noFileAbove _ hfirst _ hsecond
    · exact h.noFileAbove _ hsecond _ hfirst
  · rintro ⟨hvalid, hpairs⟩
    refine ⟨hvalid, hpairs.imp Compatible.differ, ?_⟩
    have hsymm : Std.Symm fun first second => ¬ FileAbove first second ∧ ¬ FileAbove second first :=
      ⟨fun _ _ => And.symm⟩
    have hapart : entries.Pairwise fun first second =>
        ¬ FileAbove first second ∧ ¬ FileAbove second first :=
      hpairs.imp fun h => ⟨h.below, h.above⟩
    have hboth := List.Pairwise.forall_of_forall
      (fun entry _ => ⟨not_fileAbove_self entry, not_fileAbove_self entry⟩) hapart
    exact fun _ hfile _ hentry => (hboth hfile hentry).1

theorem accepted_iff (kind : ArchivePathKind) (entries : List ArchiveEntry) :
    Accepted kind entries ↔ Acceptable entries :=
  (accepted_iff_compatible kind entries).trans (acceptable_iff_compatible entries).symm

theorem accepted_perm (kind : ArchivePathKind) {other : List ArchiveEntry}
    (h : entries.Perm other) : Accepted kind entries ↔ Accepted kind other := by
  rw [accepted_iff_compatible, accepted_iff_compatible, h.pairwise_iff Compatible.symm]
  exact and_congr_left' ⟨fun hvalid entry hmem => hvalid entry (h.mem_iff.mpr hmem),
    fun hvalid entry hmem => hvalid entry (h.mem_iff.mp hmem)⟩

/-! ## Creating the members -/

theorem resolveFrom_components {components : List Chars} : ∀ {place : List Chars},
    (∀ component ∈ components, component ≠ [] ∧ component ≠ ['.'] ∧ component ≠ ['.', '.']) →
      resolveFrom place components = place ++ components := by
  induction components with
  | nil => exact fun _ => (List.append_nil _).symm
  | cons component rest ih =>
    intro place h
    rcases h component List.mem_cons_self with ⟨hempty, hdot, hdots⟩
    rw [resolveFrom, if_neg (not_or.mpr ⟨hempty, hdot⟩), if_neg hdots,
      ih fun other hmem => h other (List.mem_cons_of_mem _ hmem), List.append_assoc]
    rfl

/-- A path that an entry stands for names the place below the root that its components give. -/
theorem resolve_normalised (h : Normalises entry path) (root : List Chars) :
    resolve root path = root ++ path.splitOn '/' := by
  unfold resolve
  rw [if_neg h.relative, resolveFrom_components h.components]

def placedItem (entry : ArchiveEntry) : TreeMember Chars :=
  { path :=
      match validateArchiveMemberPath entry.rawPath .wheel entry.isDirectory with
      | .ok path => path.splitOn '/'
      | .error _ => []
    kind := if entry.isDirectory then .directory else .file }

theorem placedItem_path (h : Normalises entry path) :
    (placedItem entry).path = path.splitOn '/' := by
  unfold placedItem
  rw [(validate_ok_iff entry .wheel path).mpr h]

theorem placedItem_placed (h : Normalises entry path) (root : List Chars) :
    PlacedAs root entry (placedItem entry) where
  place := ⟨path, h, by rw [resolve_normalised h, placedItem_path h]⟩
  below := by
    rw [placedItem_path h]
    exact List.splitOn_ne_nil _ _
  kind := rfl

theorem placedItem_file (h : (placedItem entry).kind = .file) : entry.isDirectory = false := by
  cases hdir : entry.isDirectory with
  | false => rfl
  | true =>
    unfold placedItem at h
    rw [hdir] at h
    cases h

theorem apart_of_compatible {first second : ArchiveEntry} {other : Chars}
    (hfirst : Normalises first path) (hsecond : Normalises second other)
    (h : Compatible first second) : FileTree.Apart (placedItem first) (placedItem second) := by
  have hne : path ≠ other := by
    rintro rfl
    exact h.differ path ⟨hfirst, hsecond⟩
  have hfirstPath := placedItem_path hfirst
  have hsecondPath := placedItem_path hsecond
  refine ⟨fun heq => ?_, fun hkind hprefix => ?_, fun hkind hprefix => ?_⟩
  · rw [hfirstPath, hsecondPath] at heq
    exact hne (split_injective heq)
  · rw [hfirstPath, hsecondPath] at hprefix
    exact h.below ⟨placedItem_file hkind, path, other, hfirst, hsecond, hprefix, hne⟩
  · rw [hfirstPath, hsecondPath] at hprefix
    exact h.above ⟨placedItem_file hkind, other, path, hsecond, hfirst, hprefix, hne.symm⟩

/-- Accepted entries become files and directories below a directory that is empty. -/
theorem accepted_created {kind : ArchivePathKind} (h : Accepted kind entries)
    {tree : FileTree Chars} {root : List Chars} (hroot : FileTree.Fresh tree root) :
    ∃ items tree', List.Forall₂ (PlacedAs root) entries items
      ∧ FileTree.createAll tree root items = some tree'
      ∧ (∀ path, (∀ below, below ≠ [] → path ≠ root ++ below) → tree' path = tree path)
      ∧ ∀ item ∈ items, tree' (root ++ item.path) = some item.kind := by
  rcases (accepted_iff_compatible kind entries).mp h with ⟨hvalid, hpairs⟩
  have hpaths : ∀ item ∈ entries.map placedItem, item.path ≠ [] := by
    intro item hmem
    rcases List.mem_map.mp hmem with ⟨entry, hentry, rfl⟩
    rcases hvalid entry hentry with ⟨path, hpath⟩
    exact (placedItem_placed hpath root).below
  have hapart : ([] ++ entries.map placedItem).Pairwise FileTree.Apart := by
    rw [List.nil_append, List.pairwise_map]
    refine hpairs.imp_of_mem fun hfirst hsecond hcompatible => ?_
    rcases hvalid _ hfirst with ⟨path, hpath⟩
    rcases hvalid _ hsecond with ⟨other, hother⟩
    exact apart_of_compatible hpath hother hcompatible
  rcases FileTree.createAll_spec hroot (FileTree.built_nil hroot) hpaths hapart
    with ⟨tree', hcreated, hbuilt⟩
  rw [List.nil_append] at hbuilt
  refine ⟨entries.map placedItem, tree', ?_, hcreated, hbuilt.outside, hbuilt.placed⟩
  rw [List.forall₂_map_right_iff, List.forall₂_same]
  intro entry hmem
  rcases hvalid entry hmem with ⟨path, hpath⟩
  exact placedItem_placed hpath root

/-- An archive is accepted exactly when its entries are acceptable, in any order of them; then they
can all be created below a root, and nothing outside it changes. -/
theorem registerAll_exact (kind : ArchivePathKind) (entries : List ArchiveEntry) :
    (Accepted kind entries ↔ Acceptable entries)
      ∧ (∀ other, entries.Perm other → (Accepted kind entries ↔ Accepted kind other))
      ∧ (Accepted kind entries → ∀ tree root, FileTree.Fresh tree root →
        ∃ items tree', List.Forall₂ (PlacedAs root) entries items
          ∧ FileTree.createAll tree root items = some tree'
          ∧ (∀ path, (∀ below, below ≠ [] → path ≠ root ++ below) → tree' path = tree path)
          ∧ ∀ item ∈ items, tree' (root ++ item.path) = some item.kind) :=
  ⟨accepted_iff kind entries, fun _ hperm => accepted_perm kind hperm,
    fun h _ _ hroot => accepted_created h hroot⟩

end TypePython.Archive
