import TypePython.Emit.FileWrites
import TypePython.Lib.Footprints

/-!
# The parts of the files that writes keep to

Each write keeps to a part of the files that no other write touches: its target and the paths
that are made up for it. On its part, a write has got as far as `Progress` says, and from
wherever it is, rolling it back restores the part (`Progress.restores`).
-/

namespace TypePython.Emit

open TypePython.Lib
open TypePython.Lib.Text

/-! ## Paths of a transaction -/

/-- What the emitter writes: runtime files, stubs and markers. -/
def isOutputPath (path : PathBuf) : Bool :=
  match PathBuf.fileName path with
  | some name =>
    name = "py.typed" || (stripSuffix ".py".toList name.toList).isSome
      || (stripSuffix ".pyi".toList name.toList).isSome
  | none => false

theorem append_cons_inj {c : Char} {before before' after after' : Chars} (hafter : c ∉ after)
    (hafter' : c ∉ after') (h : before ++ c :: after = before' ++ c :: after') :
    before = before' ∧ after = after' := by
  rcases List.append_eq_append_iff.1 h with ⟨rest, hbefore, hcut⟩ | ⟨rest, hbefore, hcut⟩
  · cases rest with
    | nil => exact ⟨by rw [hbefore, List.append_nil], (List.cons.inj hcut).2⟩
    | cons d rest => exact absurd ((List.cons.inj hcut).2 ▸ by simp) hafter
  · cases rest with
    | nil => exact ⟨by rw [hbefore, List.append_nil], (List.cons.inj hcut).2.symm⟩
    | cons d rest => exact absurd ((List.cons.inj hcut).2 ▸ by simp) hafter'

theorem digit_of_mem {n : Nat} {c : Char} (h : c ∈ Nat.toDigits 10 n) : c.isDigit = true :=
  Nat.isDigit_of_mem_toDigits (by decide) (by decide) h

theorem dash_not_mem_digits (n : Nat) : '-' ∉ Nat.toDigits 10 n := by
  intro h
  exact absurd (digit_of_mem h) (by decide)

theorem toDigits_inj {n n' : Nat} (h : Nat.toDigits 10 n = Nat.toDigits 10 n') : n = n' := by
  have hread := congrArg (fun digits => Nat.ofDigitChars 10 digits 0) h
  simpa using hread

variable {target : PathBuf}

section

variable {processId : Nat}

/-- The name of a path that is made up ends in the place of the write and the attempt. -/
theorem transactionPath_eq (target : PathBuf) (role : String) (index attempt : Nat) :
    ∃ (directory : PathBuf) (name : String) (before : Chars),
      transactionPath processId target role index attempt = directory ++ [.normal name]
        ∧ name.toList = before ++ '-' :: Nat.toDigits 10 attempt
        ∧ ∃ before', before = before' ++ '-' :: Nat.toDigits 10 index := by
  refine ⟨_, _, ("." ++ (PathBuf.fileName target).getD "output" ++ ".typepython-" ++ role ++ "-"
    ++ toString processId).toList ++ '-' :: Nat.toDigits 10 index, rfl, ?_, _, rfl⟩
  simp [Nat.toString_eq_repr, Nat.toList_repr]

/-- Made-up paths of different writes differ. -/
theorem transactionPath_index {target' : PathBuf} {role role' : String}
    {index index' attempt attempt' : Nat}
    (h : transactionPath processId target role index attempt
      = transactionPath processId target' role' index' attempt') : index = index' := by
  rcases @transactionPath_eq processId target role index attempt
    with ⟨directory, name, before, heq, hname, before₀, hbefore⟩
  rcases @transactionPath_eq processId target' role' index' attempt'
    with ⟨directory', name', before', heq', hname', before₀', hbefore'⟩
  rw [heq, heq'] at h
  have hlast := List.append_inj_right' h rfl
  have hnames : name.toList = name'.toList := by
    rw [Component.normal.inj (List.cons.inj hlast).1]
  rw [hname, hname'] at hnames
  have hcut := append_cons_inj (dash_not_mem_digits _) (dash_not_mem_digits _) hnames
  have hindices := hcut.1
  rw [hbefore, hbefore'] at hindices
  exact toDigits_inj (append_cons_inj (dash_not_mem_digits _) (dash_not_mem_digits _) hindices).2

/-- A staging path is no backup path. -/
theorem staged_ne_backup (target : PathBuf) (index index' attempt attempt' : Nat) :
    transactionPath processId target "staged" index attempt
      ≠ transactionPath processId target "backup" index' attempt' := by
  intro h
  have hlast := List.append_inj_right' h rfl
  have hnames := congrArg String.toList (Component.normal.inj (List.cons.inj hlast).1)
  simp only [String.toList_append, List.append_assoc, List.append_cancel_left_eq] at hnames
  exact absurd (List.cons.inj hnames).1 (by decide)

/-- A made-up path ends in a digit, and no output path does. -/
theorem transactionPath_ne_output {path : PathBuf} (h : isOutputPath path = true) (role : String)
    (index attempt : Nat) : path ≠ transactionPath processId target role index attempt := by
  rintro rfl
  rcases @transactionPath_eq processId target role index attempt
    with ⟨directory, name, before, heq, hname, -⟩
  rw [heq, isOutputPath] at h
  simp only [PathBuf.fileName, List.getLast?_concat, Bool.or_eq_true, decide_eq_true_eq] at h
  -- the last character of the name
  have hdigits : Nat.toDigits 10 attempt ≠ [] := Nat.toDigits_ne_nil
  have hlast : ∀ text last, name.toList = text ++ [last] → last.isDigit = true := by
    intro text last htext
    rw [hname] at htext
    have hgetLast := congrArg List.getLast? htext
    rw [List.getLast?_concat, List.getLast?_append, List.getLast?_cons,
      List.getLast?_eq_getLast_of_ne_nil hdigits] at hgetLast
    have hmem : (Nat.toDigits 10 attempt).getLast hdigits ∈ Nat.toDigits 10 attempt :=
      List.getLast_mem hdigits
    have hsame := Option.some.inj hgetLast
    rw [Option.getD_some] at hsame
    exact hsame ▸ digit_of_mem hmem
  rcases h with (hmarker | hpy) | hpyi
  · exact absurd (hlast "py.type".toList 'd' (by rw [hmarker]; rfl)) (by decide)
  · rcases Option.isSome_iff_exists.1 hpy with ⟨rest, hrest⟩
    have hshape := eq_of_stripSuffix hrest
    exact absurd (hlast (rest ++ ".p".toList) 'y' (by rw [hshape, List.append_assoc]; rfl))
      (by decide)
  · rcases Option.isSome_iff_exists.1 hpyi with ⟨rest, hrest⟩
    have hshape := eq_of_stripSuffix hrest
    exact absurd (hlast (rest ++ ".py".toList) 'i' (by rw [hshape, List.append_assoc]; rfl))
      (by decide)

/-! ## Parts -/

/-- The target of a write and all paths that may be made up for it. -/
def reserved (processId : Nat) (target : PathBuf) (index : Nat) : Set PathBuf :=
  fun path => path = target
    ∨ ∃ role attempt, path = transactionPath processId target role index attempt

/-- The part of a planned write. -/
def partOf (processId : Nat) (planned : PlannedFileWrite × Nat) : Set PathBuf :=
  reserved processId planned.1.path planned.2

theorem target_mem_reserved (target : PathBuf) (index : Nat) :
    target ∈ reserved processId target index := .inl rfl

theorem transactionPath_mem_reserved (target : PathBuf) (role : String) (index attempt : Nat) :
    transactionPath processId target role index attempt ∈ reserved processId target index :=
  .inr ⟨role, attempt, rfl⟩

theorem reserved_disjoint {target' : PathBuf} {index index' : Nat} (htarget : target ≠ target')
    (hindex : index ≠ index') (hout : isOutputPath target = true)
    (hout' : isOutputPath target' = true) :
    Disjoint (reserved processId target index) (reserved processId target' index') := by
  rw [Set.disjoint_left]
  rintro path (rfl | ⟨role, attempt, rfl⟩) (hsame | ⟨role', attempt', hsame⟩)
  · exact htarget hsame
  · exact transactionPath_ne_output hout role' index' attempt' hsame
  · exact transactionPath_ne_output hout' role index attempt hsame.symm
  · exact hindex (transactionPath_index hsame)

/-- Writes with different targets have disjoint parts. -/
theorem partOf_pairwise {writes : List PlannedFileWrite}
    (hnodup : (writes.map PlannedFileWrite.path).Nodup)
    (hout : ∀ write ∈ writes, isOutputPath write.path = true) :
    writes.zipIdx.Pairwise fun planned planned' =>
      Disjoint (partOf processId planned) (partOf processId planned') := by
  rw [List.pairwise_iff_getElem]
  intro i j hi hj hlt
  rw [List.length_zipIdx] at hi hj
  simp only [List.getElem_zipIdx, Nat.zero_add]
  apply reserved_disjoint
  · intro hsame
    have hi' : i < (writes.map PlannedFileWrite.path).length := by rwa [List.length_map]
    have hj' : j < (writes.map PlannedFileWrite.path).length := by rwa [List.length_map]
    apply List.pairwise_iff_getElem.1 hnodup i j hi' hj' hlt
    rw [List.getElem_map, List.getElem_map, hsame]
  · show i ≠ j
    omega
  · exact hout _ (List.getElem_mem hi)
  · exact hout _ (List.getElem_mem hj)

end

/-! ## Operations as updates -/

theorem removeFile_files (path : PathBuf) (fs : FileSystem) :
    (removeFile path fs).2 = Function.update fs path none := by
  unfold removeFile
  split
  · rename_i habsent
    rw [← habsent, Function.update_eq_self]
  · rfl

theorem rename_of_some {source target : PathBuf} {fs : FileSystem} {contents : String}
    (h : fs source = some contents) :
    rename source target fs
      = (.ok (), Function.update (Function.update fs source none) target (some contents)) := by
  unfold rename
  rw [h]

theorem confined_removeFile {part : Set PathBuf} {path : PathBuf} (h : path ∈ part) :
    Confined part fun fs => (removeFile path fs).2 := by
  have hupdate : (fun fs => (removeFile path fs).2) = fun fs => Function.update fs path none :=
    funext (removeFile_files path)
  rw [hupdate]
  exact confined_update h fun _ => rfl

theorem confined_rename {part : Set PathBuf} {source : PathBuf} (hsource : source ∈ part)
    (htarget : target ∈ part) : Confined part fun fs => (rename source target fs).2 := by
  have hshape : (fun fs => (rename source target fs).2) = fun fs : FileSystem =>
      if (fs source).isSome then
        Function.update (Function.update fs source none) target (fs source)
      else id fs := by
    funext fs
    unfold rename
    cases h : fs source <;> rfl
  rw [hshape]
  apply Confined.ite
  · -- the update at the target reads the source of the old files
    constructor
    · intro fs path hpath
      rw [Function.update_of_ne (ne_of_mem_of_not_mem htarget hpath).symm,
        Function.update_of_ne (ne_of_mem_of_not_mem hsource hpath).symm]
    · intro fs fs' heq path hpath
      simp only [Function.update_apply]
      split
      · exact heq hsource
      · split
        · rfl
        · exact heq hpath
  · exact confined_id part
  · intro fs fs' heq
    rw [heq hsource]

variable {fs fs' : FileSystem} {planned : List (PlannedFileWrite × Nat)}
  {staged : List StagedFileWrite} {write : StagedFileWrite}

section

variable {processId : Nat} {fails : Operation → Bool} {old : FileSystem}

/-! ## Rolling back one write -/

/-- The write has its target and its place, and a staging path of its own. -/
structure Placed (processId : Nat) (write : StagedFileWrite) (planned : PlannedFileWrite × Nat) :
    Prop where
  target : write.target = planned.1.path
  index : write.index = planned.2
  temporary : ∃ attempt,
    write.temporary = transactionPath processId planned.1.path "staged" planned.2 attempt
  backup : ∀ backup, write.backup = some backup → ∃ attempt,
    backup = transactionPath processId planned.1.path "backup" planned.2 attempt

theorem Placed.confined {planned : PlannedFileWrite × Nat} (h : Placed processId write planned) :
    Confined (partOf processId planned) (rollbackStagedWrite write) := by
  have htarget : write.target ∈ partOf processId planned := h.target ▸ target_mem_reserved _ _
  have htemporary : write.temporary ∈ partOf processId planned := by
    rcases h.temporary with ⟨attempt, hattempt⟩
    rw [hattempt]
    exact transactionPath_mem_reserved _ _ _ _
  -- from the last step of a rollback to the first
  have hinstalled : Confined (partOf processId planned) fun fs =>
      if write.installed then (removeFile write.target fs).2 else id fs :=
    (confined_removeFile htarget).ite (confined_id _) fun _ => rfl
  cases hsome : write.backup with
  | none =>
    have hrollback : rollbackStagedWrite write = fun fs =>
        (removeFile write.temporary
          (if write.installed then (removeFile write.target fs).2 else id fs)).2 := by
      funext fs
      rw [rollbackStagedWrite, hsome]
      rfl
    rw [hrollback]
    exact (confined_removeFile htemporary).comp hinstalled
  | some backup =>
    have hbackup : backup ∈ partOf processId planned := by
      rcases h.backup backup hsome with ⟨attempt, rfl⟩
      exact transactionPath_mem_reserved _ _ _ _
    have hrollback : rollbackStagedWrite write = fun fs =>
        (removeFile write.temporary (rename backup write.target
          (if write.installed then (removeFile write.target fs).2 else id fs)).2).2 := by
      funext fs
      rw [rollbackStagedWrite, hsome]
      rfl
    rw [hrollback]
    exact (confined_removeFile htemporary).comp
      ((confined_rename hbackup htarget).comp hinstalled)

/-- How far a write has got, and what its part of the files looks like. -/
inductive Progress (processId : Nat) (old fs : FileSystem) (write : StagedFileWrite)
    (planned : PlannedFileWrite × Nat) : Prop
  | staged (hbackup : write.backup = none) (hinstalled : write.installed = false)
      (hfs : Set.EqOn fs (Function.update old write.temporary (some planned.1.contents))
        (partOf processId planned))
  | movedAside (backup : PathBuf) (hbackup : write.backup = some backup)
      (hinstalled : write.installed = false) (hold : old write.target ≠ none)
      (hvacant : old backup = none) (htemporary : backup ≠ write.temporary)
      (hfs : Set.EqOn fs (Function.update (Function.update
          (Function.update old write.temporary (some planned.1.contents)) write.target none)
          backup (old write.target)) (partOf processId planned))
  | created (hbackup : write.backup = none) (hinstalled : write.installed = true)
      (hold : old write.target = none)
      (hfs : Set.EqOn fs (Function.update old write.target (some planned.1.contents))
        (partOf processId planned))
  | replaced (backup : PathBuf) (hbackup : write.backup = some backup)
      (hinstalled : write.installed = true) (hold : old write.target ≠ none)
      (hvacant : old backup = none)
      (hfs : Set.EqOn fs (Function.update (Function.update old write.target
          (some planned.1.contents)) backup (old write.target)) (partOf processId planned))

/-- The made-up paths are free before and differ from the target. -/
structure Fresh (old : FileSystem) (write : StagedFileWrite) : Prop where
  vacant : old write.temporary = none
  ne : write.temporary ≠ write.target

/-- From wherever a write has got, rolling it back restores its part. -/
theorem Progress.restores {planned : PlannedFileWrite × Nat}
    (h : Progress processId old fs write planned) (hplaced : Placed processId write planned)
    (hfresh : Fresh old write) :
    Set.EqOn (rollbackStagedWrite write fs) old (partOf processId planned) := by
  have hvacant := hfresh.vacant
  -- a rollback looks at the part alone
  have hcongr : ∀ {fs'}, Set.EqOn fs fs' (partOf processId planned) →
      rollbackStagedWrite write fs' = old →
      Set.EqOn (rollbackStagedWrite write fs) old (partOf processId planned) := by
    intro fs' heq hrestored
    rw [← hrestored]
    exact hplaced.confined.congr heq
  cases h with
  | staged hbackup hinstalled hfs =>
    apply hcongr hfs
    simp only [rollbackStagedWrite, hbackup, hinstalled, removeFile_files]
    rw [← hvacant]
    simp
  | movedAside backup hbackup hinstalled hold hvacant' htemporary hfs =>
    apply hcongr hfs
    rcases Option.ne_none_iff_exists'.1 hold with ⟨contents, hcontents⟩
    rw [hcontents]
    simp only [rollbackStagedWrite, hbackup, hinstalled, Bool.false_eq_true, ite_false,
      removeFile_files, rename_of_some (Function.update_self backup _ _)]
    -- the staging file is gone, the target is back, and the backup is gone
    funext path
    simp only [Function.update_apply]
    grind
  | created hbackup hinstalled hold hfs =>
    apply hcongr hfs
    simp only [rollbackStagedWrite, hbackup, hinstalled, ite_true, removeFile_files]
    funext path
    simp only [Function.update_apply]
    grind
  | replaced backup hbackup hinstalled hold hvacant' hfs =>
    apply hcongr hfs
    rcases Option.ne_none_iff_exists'.1 hold with ⟨contents, hcontents⟩
    have hne : backup ≠ write.target := by
      rintro rfl
      exact hold hvacant'
    rw [hcontents]
    simp only [rollbackStagedWrite, hbackup, hinstalled, ite_true, removeFile_files]
    rw [@rename_of_some backup write.target _ contents (by simp [Function.update_of_ne hne])]
    funext path
    simp only [Function.update_apply]
    grind

/-! ## All writes -/

/-- A write that has got somewhere. -/
structure Underway (processId : Nat) (old fs : FileSystem) (write : StagedFileWrite)
    (plan : PlannedFileWrite × Nat) : Prop where
  progress : Progress processId old fs write plan
  placed : Placed processId write plan
  fresh : Fresh old write

/-- All writes have, and the files outside of their parts are as they were. -/
structure Tracked (processId : Nat) (old fs : FileSystem) (staged : List StagedFileWrite)
    (planned : List (PlannedFileWrite × Nat)) : Prop where
  each : List.Forall₂ (Underway processId old fs) staged planned
  frame : ∀ path, (∀ plan ∈ planned, path ∉ partOf processId plan) → fs path = old path

/-- The parts of the planned writes are disjoint. -/
def Apart (processId : Nat) (planned : List (PlannedFileWrite × Nat)) : Prop :=
  planned.Pairwise fun plan plan' => Disjoint (partOf processId plan) (partOf processId plan')

/-- The parts that the staged writes keep to are those of the plans. -/
theorem Tracked.parts (h : Tracked processId old fs staged planned) :
    staged.map (fun write => reserved processId write.target write.index)
      = planned.map (partOf processId) := by
  have hsame : List.Forall₂ Eq (staged.map fun write => reserved processId write.target write.index)
      (planned.map (partOf processId)) := by
    rw [List.forall₂_map_left_iff, List.forall₂_map_right_iff]
    apply h.each.imp
    intro write plan hwrite
    rw [hwrite.placed.target, hwrite.placed.index]
    rfl
  rwa [List.forall₂_eq_eq_eq] at hsame

theorem Tracked.apart (h : Tracked processId old fs staged planned)
    (hapart : Apart processId planned) :
    staged.Pairwise fun write write' => Disjoint (reserved processId write.target write.index)
      (reserved processId write'.target write'.index) := by
  have hparts : (planned.map (partOf processId)).Pairwise Disjoint := List.pairwise_map.2 hapart
  rw [← h.parts] at hparts
  exact List.pairwise_map.1 hparts

theorem Tracked.each_left (h : Tracked processId old fs staged planned) (hwrite : write ∈ staged) :
    ∃ plan ∈ planned, reserved processId write.target write.index = partOf processId plan
      ∧ Underway processId old fs write plan := by
  rcases exists_right_of_mem h.each hwrite with ⟨plan, hplan, hunderway⟩
  refine ⟨plan, hplan, ?_, hunderway⟩
  rw [hunderway.placed.target, hunderway.placed.index]
  rfl

/-- What is outside of the parts of the staged writes is as it was. -/
theorem Tracked.outside (h : Tracked processId old fs staged planned) {path : PathBuf}
    (hpath : ∀ write ∈ staged, path ∉ reserved processId write.target write.index) :
    fs path = old path := by
  apply h.frame
  intro plan hplan hmem
  have hpart : partOf processId plan ∈ planned.map (partOf processId) :=
    List.mem_map_of_mem hplan
  rw [← h.parts] at hpart
  rcases List.mem_map.1 hpart with ⟨write, hwrite, hsame⟩
  exact hpath write hwrite (hsame ▸ hmem)

/-- Rolling back all writes restores the files. -/
theorem Tracked.rollback (h : Tracked processId old fs staged planned)
    (hapart : Apart processId planned) : rollbackStagedWrites staged fs = old := by
  apply @foldr_restores _ _ _ (fun write => reserved processId write.target write.index)
    rollbackStagedWrite staged
  · intro write hwrite
    rcases h.each_left hwrite with ⟨plan, -, hpart, hunderway⟩
    rw [hpart]
    exact hunderway.placed.confined
  · exact h.apart hapart
  · intro write hwrite
    rcases h.each_left hwrite with ⟨plan, -, hpart, hunderway⟩
    rw [hpart]
    exact hunderway.progress.restores hunderway.placed hunderway.fresh
  · intro path hpath
    exact h.outside hpath

/-- Files that are as before on the part of a write leave its progress as it was. -/
theorem Progress.congr {planned : PlannedFileWrite × Nat}
    (h : Progress processId old fs write planned)
    (hsame : Set.EqOn fs' fs (partOf processId planned)) :
    Progress processId old fs' write planned := by
  cases h with
  | staged hbackup hinstalled hfs => exact .staged hbackup hinstalled (hsame.trans hfs)
  | movedAside backup hbackup hinstalled hold hvacant htemporary hfs =>
    exact .movedAside backup hbackup hinstalled hold hvacant htemporary (hsame.trans hfs)
  | created hbackup hinstalled hold hfs => exact .created hbackup hinstalled hold (hsame.trans hfs)
  | replaced backup hbackup hinstalled hold hvacant hfs =>
    exact .replaced backup hbackup hinstalled hold hvacant (hsame.trans hfs)

/-- What is done on one part leaves the writes with other parts where they are. -/
theorem underway_congr {plan : PlannedFileWrite × Nat}
    (h : List.Forall₂ (Underway processId old fs) staged planned)
    (hdisjoint : ∀ plan' ∈ planned, Disjoint (partOf processId plan') (partOf processId plan))
    (hframe : ∀ path, path ∉ partOf processId plan → fs' path = fs path) :
    List.Forall₂ (Underway processId old fs') staged planned := by
  apply forall₂_imp_of_mem h
  intro plan' hplan' write hwrite
  refine ⟨hwrite.progress.congr ?_, hwrite.placed, hwrite.fresh⟩
  intro path hpath
  exact hframe path (Set.disjoint_left.1 (hdisjoint plan' hplan') hpath)

/-- One write gets on, and the others stay where they are. -/
theorem Tracked.step {done rest : List StagedFileWrite} {others : List (PlannedFileWrite × Nat)}
    {plan : PlannedFileWrite × Nat} (hapart : Apart processId (planned ++ plan :: others))
    (hdone : List.Forall₂ (Underway processId old fs) done planned)
    (hrest : List.Forall₂ (Underway processId old fs) rest others)
    (houtside : ∀ path, (∀ plan' ∈ planned ++ plan :: others, path ∉ partOf processId plan') →
      fs path = old path) (hframe : ∀ path, path ∉ partOf processId plan → fs' path = fs path)
    (hwrite : Underway processId old fs' write plan) :
    Tracked processId old fs' (done ++ write :: rest) (planned ++ plan :: others) where
  each := by
    rcases List.pairwise_append.1 hapart with ⟨-, hplan, hbetween⟩
    have hdone' := underway_congr hdone
      (fun plan' hplan' => hbetween plan' hplan' plan List.mem_cons_self) hframe
    have hrest' := underway_congr hrest
      (fun plan' hplan' => ((List.pairwise_cons.1 hplan).1 plan' hplan').symm) hframe
    exact @List.rel_append _ _ (Underway processId old fs') _ _ hdone' _ _ (.cons hwrite hrest')
  frame path hpath := by
    rw [hframe path (hpath plan (by simp)), houtside path hpath]

end

end TypePython.Emit
