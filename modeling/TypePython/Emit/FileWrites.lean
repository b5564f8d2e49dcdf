import Mathlib.Logic.Function.Basic
import TypePython.Emit.Paths

/-!
# Writing files as one transaction

`write_files_transactionally` stages every file beside its target, then moves each old file to a
backup and the staged one into its place, and removes the backups last. A failure before that
rolls back what was done. Which operations fail is given by a predicate, in which each operation
of a run has a name of its own.
-/

namespace TypePython.Emit

/-- The contents of the files. -/
abbrev FileSystem := PathBuf → Option String

structure PlannedFileWrite where
  path : PathBuf
  contents : String

structure StagedFileWrite where
  /-- The place in the list of writes. -/
  index : Nat
  target : PathBuf
  temporary : PathBuf
  backup : Option PathBuf
  installed : Bool

/-- The operations of the forward path, by the place of the write they are for. -/
inductive Operation where
  | check (index : Nat)
  | createDirAll (index : Nat)
  | create (index attempt : Nat)
  | write (index : Nat)
  | checkAgain (index : Nat)
  | probe (index attempt : Nat)
  | moveAside (index : Nat)
  | install (index : Nat)
  | removeBackup (index : Nat)
  deriving DecidableEq

inductive IoError where
  | invalidInput (message : String)
  | alreadyExists (message : String)
  | notFound
  | failed (operation : Operation)
  deriving DecidableEq

/-- What is left of the files, with a result or an error. -/
abbrev IoResult (α : Type) := Except IoError α × FileSystem

/-! ## Operations -/

def removeFile (path : PathBuf) (fs : FileSystem) : IoResult Unit :=
  match fs path with
  | none => (.error .notFound, fs)
  | some _ => (.ok (), Function.update fs path none)

def rename (source target : PathBuf) (fs : FileSystem) : IoResult Unit :=
  match fs source with
  | none => (.error .notFound, fs)
  | some contents =>
    (.ok (), Function.update (Function.update fs source none) target (some contents))

/-- Undo what was done for one write. -/
def rollbackStagedWrite (write : StagedFileWrite) (fs : FileSystem) : FileSystem :=
  let fs := if write.installed then (removeFile write.target fs).2 else fs
  let fs := match write.backup with
    | some backup => (rename backup write.target fs).2
    | none => fs
  (removeFile write.temporary fs).2

/-- From the last write to the first. -/
def rollbackStagedWrites (writes : List StagedFileWrite) (fs : FileSystem) : FileSystem :=
  writes.foldr rollbackStagedWrite fs

section

-- the process, and which operations fail
variable (processId : Nat) (fails : Operation → Bool)

def transactionPath (target : PathBuf) (role : String) (index attempt : Nat) : PathBuf :=
  let parent := (PathBuf.parent target).getD [.curDir]
  let name := (PathBuf.fileName target).getD "output"
  parent ++ [.normal ("." ++ name ++ ".typepython-" ++ role ++ "-" ++ toString processId ++ "-"
    ++ toString index ++ "-" ++ toString attempt)]

/-- An operation that fails leaves the files as they are. -/
def attemptTo {α : Type} (operation : Operation) (act : FileSystem → IoResult α)
    (fs : FileSystem) : IoResult α :=
  if fails operation then (.error (.failed operation), fs) else act fs

def existingRegularFile (operation : Operation) (path : PathBuf) (fs : FileSystem) :
    IoResult Bool :=
  attemptTo fails operation (fun fs => (.ok (fs path).isSome, fs)) fs

/-! ## Staging -/

/-- The attempts at a staging file that are left. -/
def stageFrom (write : PlannedFileWrite) (index : Nat) : Nat → Nat → FileSystem → IoResult PathBuf
  | 0, _, fs =>
    (.error (.alreadyExists ("unable to allocate a staging file for \x60"
      ++ PathBuf.display write.path ++ "\x60")), fs)
  | left + 1, attempt, fs =>
    let temporary := transactionPath processId write.path "staged" index attempt
    if fails (.create index attempt) then (.error (.failed (.create index attempt)), fs)
    else if (fs temporary).isSome then stageFrom write index left (attempt + 1) fs
    else
      let created := Function.update fs temporary (some "")
      if fails (.write index) then
        (.error (.failed (.write index)), (removeFile temporary created).2)
      else (.ok temporary, Function.update created temporary (some write.contents))

def stageFileWrite (write : PlannedFileWrite) (index : Nat) (fs : FileSystem) : IoResult PathBuf :=
  attemptTo fails (.createDirAll index) (stageFrom processId fails write index 1000 0) fs

def stageAll : List (PlannedFileWrite × Nat) → List StagedFileWrite → FileSystem →
    IoResult (List StagedFileWrite)
  | [], staged, fs => (.ok staged, fs)
  | (write, index) :: rest, staged, fs =>
    match stageFileWrite processId fails write index fs with
    | (.error error, fs) => (.error error, rollbackStagedWrites staged fs)
    | (.ok temporary, fs) =>
      stageAll rest
        (staged ++ [{ index, target := write.path, temporary, backup := none,
                      installed := false }]) fs

/-! ## Installing -/

/-- The attempts at a backup path that are left. -/
def vacantFrom (target : PathBuf) (index : Nat) : Nat → Nat → FileSystem → IoResult PathBuf
  | 0, _, fs =>
    (.error (.alreadyExists ("unable to allocate a backup file for \x60"
      ++ PathBuf.display target ++ "\x60")), fs)
  | left + 1, attempt, fs =>
    let candidate := transactionPath processId target "backup" index attempt
    if fails (.probe index attempt) then (.error (.failed (.probe index attempt)), fs)
    else if (fs candidate).isSome then vacantFrom target index left (attempt + 1) fs
    else (.ok candidate, fs)

/-- Move what is at the target out of the way. -/
def moveTargetAside (write : StagedFileWrite) (fs : FileSystem) : IoResult StagedFileWrite :=
  match existingRegularFile fails (.checkAgain write.index) write.target fs with
  | (.error error, fs) => (.error error, fs)
  | (.ok false, fs) => (.ok write, fs)
  | (.ok true, fs) =>
    match vacantFrom processId fails write.target write.index 1000 0 fs with
    | (.error error, fs) => (.error error, fs)
    | (.ok backup, fs) =>
      match attemptTo fails (.moveAside write.index) (rename write.target backup) fs with
      | (.error error, fs) => (.error error, fs)
      | (.ok (), fs) => (.ok { write with backup := some backup }, fs)

def installAll : List StagedFileWrite → List StagedFileWrite → FileSystem →
    IoResult (List StagedFileWrite)
  | done, [], fs => (.ok done, fs)
  | done, write :: rest, fs =>
    match moveTargetAside processId fails write fs with
    | (.error error, fs) => (.error error, rollbackStagedWrites (done ++ write :: rest) fs)
    | (.ok write, fs) =>
      match attemptTo fails (.install write.index) (rename write.temporary write.target) fs with
      | (.error error, fs) => (.error error, rollbackStagedWrites (done ++ write :: rest) fs)
      | (.ok (), fs) => installAll (done ++ [{ write with installed := true }]) rest fs

/-! ## The transaction -/

/-- Remove the backups; the first error is kept. -/
def cleanUp : List StagedFileWrite → Option IoError → FileSystem → IoResult Unit
  | [], none, fs => (.ok (), fs)
  | [], some error, fs => (.error error, fs)
  | write :: rest, cleanupError, fs =>
    match write.backup with
    | none => cleanUp rest cleanupError fs
    | some backup =>
      match attemptTo fails (.removeBackup write.index) (removeFile backup) fs with
      | (.error error, fs) => cleanUp rest (cleanupError.or (some error)) fs
      | (.ok (), fs) => cleanUp rest cleanupError fs

def checkAll : List (PlannedFileWrite × Nat) → FileSystem → IoResult Unit
  | [], fs => (.ok (), fs)
  | (write, index) :: rest, fs =>
    match existingRegularFile fails (.check index) write.path fs with
    | (.error error, fs) => (.error error, fs)
    | (.ok _, fs) => checkAll rest fs

/-- The first path that is planned twice. -/
def duplicateTarget : List PathBuf → List PathBuf → Option PathBuf
  | _, [] => none
  | seen, path :: rest => if path ∈ seen then some path else duplicateTarget (path :: seen) rest

def writeFilesTransactionally (writes : List PlannedFileWrite) (fs : FileSystem) : IoResult Unit :=
  match duplicateTarget [] (writes.map PlannedFileWrite.path) with
  | some path =>
    (.error (.invalidInput ("duplicate transactional output path \x60" ++ PathBuf.display path
      ++ "\x60")), fs)
  | none =>
    match checkAll fails writes.zipIdx fs with
    | (.error error, fs) => (.error error, fs)
    | (.ok (), fs) =>
      match stageAll processId fails writes.zipIdx [] fs with
      | (.error error, fs) => (.error error, fs)
      | (.ok staged, fs) =>
        match installAll processId fails [] staged fs with
        | (.error error, fs) => (.error error, fs)
        | (.ok staged, fs) => cleanUp fails staged none fs

end

end TypePython.Emit
