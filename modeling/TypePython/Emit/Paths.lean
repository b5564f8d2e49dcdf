import TypePython.Lib.Text

/-!
# Paths

A path is the list of its components.
-/

namespace TypePython.Emit

open TypePython.Lib.Text

inductive Component where
  | rootDir
  | curDir
  | parentDir
  | normal (name : String)
  deriving DecidableEq

abbrev PathBuf := List Component

def Component.text : Component → String
  | .rootDir => "/"
  | .curDir => "."
  | .parentDir => ".."
  | .normal name => name

namespace PathBuf

def parent (path : PathBuf) : Option PathBuf :=
  match path.getLast? with
  | none => none
  | some .rootDir => none
  | some _ => some path.dropLast

def fileName (path : PathBuf) : Option String :=
  match path.getLast? with
  | some (.normal name) => some name
  | _ => none

/-- A path after another one; a path from the root stands alone. -/
def join (path other : PathBuf) : PathBuf :=
  match other with
  | .rootDir :: _ => other
  | _ => if path = [] then other else path ++ other.filter (· ≠ .curDir)

def stripPrefix? (path start : PathBuf) : Option PathBuf := start.isPrefixOf? path

/-- The stem of a name, and its extension. A name with nothing before its last dot has none. -/
def splitName (name : String) : String × Option String :=
  match rsplitOnce '.' name.toList with
  | none => (name, none)
  | some ([], _) => (name, none)
  | some (stem, extension) => (String.ofList stem, some (String.ofList extension))

def fileStem (path : PathBuf) : Option String := (fileName path).map fun name => (splitName name).1

def extension (path : PathBuf) : Option String := (fileName path).bind fun name => (splitName name).2

/-- An empty extension takes the old one off. -/
def withExtension (path : PathBuf) (extension : String) : PathBuf :=
  match fileStem path with
  | none => path
  | some stem =>
    path.dropLast ++ [.normal (if extension = "" then stem else stem ++ "." ++ extension)]

def display : PathBuf → String
  | .rootDir :: rest => "/" ++ TypePython.Lib.Text.join "/" (rest.map Component.text)
  | path => TypePython.Lib.Text.join "/" (path.map Component.text)

/-! ## Extensions -/

/-- A name made of a stem and an extension. -/
theorem splitName_of {stem ext : String} (hstem : stem ≠ "") (hext : '.' ∉ ext.toList) :
    splitName (stem ++ "." ++ ext) = (stem, some ext) := by
  have hshape : (stem ++ "." ++ ext).toList = stem.toList ++ '.' :: ext.toList := by simp
  have hne : stem.toList ≠ [] := by
    intro hnil
    exact hstem (String.toList_inj.1 (hnil.trans rfl))
  rw [splitName, hshape, rsplitOnce_append hext]
  have hback : (String.ofList stem.toList, some (String.ofList ext.toList)) = (stem, some ext) := by
    rw [String.ofList_toList, String.ofList_toList]
  cases hchars : stem.toList with
  | nil => exact absurd hchars hne
  | cons c rest =>
    rw [hchars] at hback
    exact hback

/-- What a name with an extension is made of. -/
theorem of_splitName {name stem ext : String} (h : splitName name = (stem, some ext)) :
    name = stem ++ "." ++ ext ∧ stem ≠ "" := by
  unfold splitName at h
  split at h
  · cases h
  · cases h
  · rename_i before after hne hsplit
    cases h
    have heq := rsplitOnce_eq hsplit
    refine ⟨?_, ?_⟩
    · apply String.toList_inj.1
      rw [heq]
      simp
    · intro hempty
      have hnil := congrArg String.toList hempty
      rw [String.toList_ofList] at hnil
      exact hne (hnil.trans rfl)

theorem withExtension_of {directory : PathBuf} {stem ext : String} (hstem : stem ≠ "")
    (hext : '.' ∉ ext.toList) (extension : String) :
    withExtension (directory ++ [.normal (stem ++ "." ++ ext)]) extension
      = directory ++ [.normal (if extension = "" then stem else stem ++ "." ++ extension)] := by
  simp only [withExtension, fileStem, fileName, List.getLast?_concat, Option.map_some,
    splitName_of hstem hext, List.dropLast_concat]

end PathBuf

end TypePython.Emit
