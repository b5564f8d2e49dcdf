import TypePython.Emit.WriteParts

/-!
# All or nothing

A transaction commits exactly when the steps before the clean-up succeed, which the files and the
failing operations decide beforehand (`Commits`). Until then every failure restores the files. A
backup that cannot be removed afterwards is reported as an error although the new files are in
place (`writeFiles_allOrNothing_iff`).
-/

namespace TypePython.Emit

open TypePython.Lib
open TypePython.Lib.Text

variable {plan : PlannedFileWrite × Nat} {fs : FileSystem} {write : StagedFileWrite}
  {staged : List StagedFileWrite} {planned : List (PlannedFileWrite × Nat)}

section

variable {processId : Nat} {fails : Operation → Bool} {old : FileSystem}

/-! ## Looking for a free path -/

/-- Some attempt from `first` on is at a free path, and none up to it is refused. -/
def FindsFree (old : FileSystem) (path : Nat → PathBuf) (refused : Nat → Bool)
    (first left : Nat) : Prop :=
  ∃ attempt, first ≤ attempt ∧ attempt < first + left ∧ old (path attempt) = none
    ∧ ∀ tried, first ≤ tried → tried ≤ attempt →
      refused tried = false ∧ (tried < attempt → old (path tried) ≠ none)

theorem findsFree_zero (path : Nat → PathBuf) (refused : Nat → Bool) (first : Nat) :
    ¬ FindsFree old path refused first 0 := by
  rintro ⟨attempt, hfirst, hlast, -⟩
  omega

theorem findsFree_succ_iff {path : Nat → PathBuf} {refused : Nat → Bool} {first left : Nat} :
    FindsFree old path refused first (left + 1) ↔ refused first = false
      ∧ (old (path first) = none ∨ FindsFree old path refused (first + 1) left) := by
  constructor
  · rintro ⟨attempt, hfirst, hlast, hfree, htried⟩
    refine ⟨(htried first (Nat.le_refl _) hfirst).1, ?_⟩
    rcases Nat.eq_or_lt_of_le hfirst with rfl | hlt
    · exact .inl hfree
    · exact .inr ⟨attempt, hlt, by omega, hfree,
        fun tried hle => htried tried (Nat.le_of_succ_le hle)⟩
  · rintro ⟨hrefused, hfree | ⟨attempt, hfirst, hlast, hfree, htried⟩⟩
    · refine ⟨first, Nat.le_refl _, by omega, hfree, ?_⟩
      intro tried hle hge
      obtain rfl := Nat.le_antisymm hle hge
      exact ⟨hrefused, fun hlt => absurd hlt (Nat.lt_irrefl _)⟩
    · by_cases hnow : old (path first) = none
      · refine ⟨first, Nat.le_refl _, by omega, hnow, ?_⟩
        intro tried hle hge
        obtain rfl := Nat.le_antisymm hle hge
        exact ⟨hrefused, fun hlt => absurd hlt (Nat.lt_irrefl _)⟩
      · refine ⟨attempt, by omega, by omega, hfree, ?_⟩
        intro tried hle hge
        rcases Nat.eq_or_lt_of_le hle with rfl | hlt
        · exact ⟨hrefused, fun _ => hnow⟩
        · exact htried tried hlt hge

/-- A staging file is created at the first free path. -/
theorem stageFrom_spec {write : PlannedFileWrite} {index left first : Nat} {fs : FileSystem}
    (hsame : ∀ attempt, fs (transactionPath processId write.path "staged" index attempt)
      = old (transactionPath processId write.path "staged" index attempt)) :
    (FindsFree old (transactionPath processId write.path "staged" index)
        (fun attempt => fails (.create index attempt)) first left ∧ fails (.write index) = false
      ∧ ∃ attempt,
        old (transactionPath processId write.path "staged" index attempt) = none
        ∧ stageFrom processId fails write index left first fs
          = (.ok (transactionPath processId write.path "staged" index attempt),
            Function.update fs (transactionPath processId write.path "staged" index attempt)
              (some write.contents)))
    ∨ (¬ (FindsFree old (transactionPath processId write.path "staged" index)
        (fun attempt => fails (.create index attempt)) first left ∧ fails (.write index) = false)
      ∧ ∃ error, stageFrom processId fails write index left first fs = (.error error, fs)) := by
  induction left generalizing first with
  | zero => exact .inr ⟨fun h => findsFree_zero _ _ _ h.1, _, rfl⟩
  | succ left ih =>
    rw [findsFree_succ_iff, stageFrom]
    dsimp only
    by_cases hcreate : fails (.create index first) = true
    · rw [if_pos hcreate]
      refine .inr ⟨?_, _, rfl⟩
      rintro ⟨⟨hnot, -⟩, -⟩
      rw [hcreate] at hnot
      cases hnot
    · rw [if_neg hcreate]
      rw [Bool.not_eq_true] at hcreate
      by_cases hfree : old (transactionPath processId write.path "staged" index first) = none
      · have hnow : fs (transactionPath processId write.path "staged" index first) = none := by
          rw [hsame, hfree]
        have hvacant : ¬ (fs (transactionPath processId write.path "staged" index first)).isSome
            = true := by
          rw [hnow]
          decide
        rw [if_neg hvacant]
        by_cases hwrite : fails (.write index) = true
        · rw [if_pos hwrite, removeFile_files, Function.update_idem]
          refine .inr ⟨fun h => ?_, .failed (.write index), ?_⟩
          · rw [hwrite] at h
            cases h.2
          · rw [← hnow, Function.update_eq_self]
        · rw [if_neg hwrite, Function.update_idem]
          rw [Bool.not_eq_true] at hwrite
          exact .inl ⟨⟨hcreate, .inl hfree⟩, hwrite, first, hfree, rfl⟩
      · have htaken : (fs (transactionPath processId write.path "staged" index first)).isSome
            = true := by
          rw [hsame, Option.isSome_iff_ne_none]
          exact hfree
        rw [if_pos htaken]
        rcases @ih (first + 1) with ⟨hfinds, hwrite, hfound⟩ | ⟨hnot, herror⟩
        · exact .inl ⟨⟨hcreate, .inr hfinds⟩, hwrite, hfound⟩
        · refine .inr ⟨?_, herror⟩
          rintro ⟨⟨-, hnone | hfinds⟩, hwrite⟩
          · exact hfree hnone
          · exact hnot ⟨hfinds, hwrite⟩

/-- A backup gets the first free path. -/
theorem vacantFrom_spec {target : PathBuf} {index left first : Nat} {fs : FileSystem}
    (hsame : ∀ attempt, fs (transactionPath processId target "backup" index attempt)
      = old (transactionPath processId target "backup" index attempt)) :
    (FindsFree old (transactionPath processId target "backup" index)
        (fun attempt => fails (.probe index attempt)) first left
      ∧ ∃ attempt, old (transactionPath processId target "backup" index attempt) = none
        ∧ vacantFrom processId fails target index left first fs
          = (.ok (transactionPath processId target "backup" index attempt), fs))
    ∨ (¬ FindsFree old (transactionPath processId target "backup" index)
        (fun attempt => fails (.probe index attempt)) first left
      ∧ ∃ error, vacantFrom processId fails target index left first fs = (.error error, fs)) := by
  induction left generalizing first with
  | zero => exact .inr ⟨findsFree_zero _ _ _, _, rfl⟩
  | succ left ih =>
    rw [findsFree_succ_iff, vacantFrom]
    by_cases hprobe : fails (.probe index first) = true
    · rw [if_pos hprobe]
      refine .inr ⟨?_, _, rfl⟩
      rintro ⟨hnot, -⟩
      rw [hprobe] at hnot
      cases hnot
    · rw [if_neg hprobe]
      rw [Bool.not_eq_true] at hprobe
      by_cases hfree : old (transactionPath processId target "backup" index first) = none
      · have hvacant : ¬ (fs (transactionPath processId target "backup" index first)).isSome
            = true := by
          rw [hsame, hfree]
          decide
        rw [if_neg hvacant]
        exact .inl ⟨⟨hprobe, .inl hfree⟩, first, hfree, rfl⟩
      · have htaken : (fs (transactionPath processId target "backup" index first)).isSome
            = true := by
          rw [hsame, Option.isSome_iff_ne_none]
          exact hfree
        rw [if_pos htaken]
        rcases @ih (first + 1) with ⟨hfinds, hfound⟩ | ⟨hnot, herror⟩
        · exact .inl ⟨⟨hprobe, .inr hfinds⟩, hfound⟩
        · refine .inr ⟨?_, herror⟩
          rintro ⟨-, hnone | hfinds⟩
          · exact hfree hnone
          · exact hnot hfinds

/-! ## Staging -/

/-- The steps that stage a write succeed. -/
structure StageSucceeds (processId : Nat) (fails : Operation → Bool) (old : FileSystem)
    (plan : PlannedFileWrite × Nat) : Prop where
  createDirAll : fails (.createDirAll plan.2) = false
  create : FindsFree old (transactionPath processId plan.1.path "staged" plan.2)
    (fun attempt => fails (.create plan.2 attempt)) 0 1000
  write : fails (.write plan.2) = false

theorem stageFileWrite_spec {plan : PlannedFileWrite × Nat} {fs : FileSystem}
    (hsame : ∀ path ∈ partOf processId plan, fs path = old path) :
    (StageSucceeds processId fails old plan ∧ ∃ attempt,
        old (transactionPath processId plan.1.path "staged" plan.2 attempt) = none
        ∧ stageFileWrite processId fails plan.1 plan.2 fs
          = (.ok (transactionPath processId plan.1.path "staged" plan.2 attempt),
            Function.update fs (transactionPath processId plan.1.path "staged" plan.2 attempt)
              (some plan.1.contents)))
    ∨ (¬ StageSucceeds processId fails old plan
      ∧ ∃ error, stageFileWrite processId fails plan.1 plan.2 fs = (.error error, fs)) := by
  have hpaths := fun attempt => hsame _
    (@transactionPath_mem_reserved processId plan.1.path "staged" plan.2 attempt)
  rw [stageFileWrite, attemptTo]
  by_cases hdir : fails (.createDirAll plan.2) = true
  · rw [if_pos hdir]
    refine .inr ⟨fun h => ?_, _, rfl⟩
    have hok := h.createDirAll
    rw [hdir] at hok
    cases hok
  · rw [if_neg hdir]
    rw [Bool.not_eq_true] at hdir
    rcases @stageFrom_spec processId fails old plan.1 plan.2 1000 0 fs hpaths
      with ⟨hfinds, hwrite, hfound⟩ | ⟨hnot, herror⟩
    · exact .inl ⟨⟨hdir, hfinds, hwrite⟩, hfound⟩
    · exact .inr ⟨fun h => hnot ⟨h.create, h.write⟩, herror⟩

/-- A write that is only staged. -/
def IsStaged (write : StagedFileWrite) : Prop := write.backup = none ∧ write.installed = false

theorem transactionPath_ne_target (hout : isOutputPath plan.1.path = true) (role : String)
    (attempt : Nat) : transactionPath processId plan.1.path role plan.2 attempt ≠ plan.1.path :=
  (transactionPath_ne_output hout role plan.2 attempt).symm

/-- What staging records of a write. -/
def stagedWrite (plan : PlannedFileWrite × Nat) (temporary : PathBuf) : StagedFileWrite where
  index := plan.2
  target := plan.1.path
  temporary := temporary
  backup := none
  installed := false

/-- Staging ends with all files staged, or with the files as they were. -/
theorem stageAll_spec {todo planned : List (PlannedFileWrite × Nat)} {staged : List StagedFileWrite}
    {fs : FileSystem} (hapart : Apart processId (planned ++ todo))
    (hout : ∀ plan ∈ todo, isOutputPath plan.1.path = true)
    (htracked : Tracked processId old fs staged planned)
    (hstaged : ∀ write ∈ staged, IsStaged write) :
    ((∀ plan ∈ todo, StageSucceeds processId fails old plan) ∧ ∃ staged' fs',
        stageAll processId fails todo staged fs = (.ok staged', fs')
        ∧ Tracked processId old fs' staged' (planned ++ todo) ∧ ∀ write ∈ staged', IsStaged write)
    ∨ ((¬ ∀ plan ∈ todo, StageSucceeds processId fails old plan)
      ∧ ∃ error, stageAll processId fails todo staged fs = (.error error, old)) := by
  induction todo generalizing planned staged fs with
  | nil =>
    refine .inl ⟨fun plan hplan => absurd hplan List.not_mem_nil, staged, fs, rfl, ?_, hstaged⟩
    rw [List.append_nil]
    exact htracked
  | cons plan rest ih =>
    rw [List.forall_mem_cons] at hout
    have hcut := List.pairwise_append.1 hapart
    -- the part of the next write is as it was
    have hsame : ∀ path ∈ partOf processId plan, fs path = old path := by
      intro path hpath
      apply htracked.frame
      intro plan' hplan' hmem
      exact Set.disjoint_left.1 (hcut.2.2 plan' hplan' plan List.mem_cons_self) hmem hpath
    rw [List.forall_mem_cons]
    rcases @stageFileWrite_spec processId fails old plan fs hsame with
      ⟨hsucceeds, attempt, hfree, hstep⟩ | ⟨hnot, error, hstep⟩
    · let temporary := transactionPath processId plan.1.path "staged" plan.2 attempt
      let fs' := Function.update fs temporary (some plan.1.contents)
      have hwrite : Underway processId old fs' (stagedWrite plan temporary) plan := by
        refine ⟨.staged rfl rfl ?_, ⟨rfl, rfl, ⟨attempt, rfl⟩, by simp [stagedWrite]⟩,
          hfree, transactionPath_ne_target hout.1 "staged" attempt⟩
        intro path hpath
        simp only [fs', stagedWrite, Function.update_apply, hsame path hpath]
      have hframe : ∀ path, path ∉ partOf processId plan → fs' path = fs path := by
        intro path hpath
        apply Function.update_of_ne
        rintro rfl
        exact hpath (transactionPath_mem_reserved _ _ _ _)
      have hapart' : Apart processId ((planned ++ [plan]) ++ rest) := by
        rw [List.append_assoc]
        exact hapart
      have hnow := Tracked.step (List.pairwise_append.1 hapart').1 htracked.each .nil
        (fun path hpath => htracked.frame path fun plan' hplan' =>
          hpath plan' (List.mem_append_left _ hplan')) hframe hwrite
      have hstagedNow : ∀ write ∈ staged ++ [stagedWrite plan temporary], IsStaged write := by
        intro write hmem
        rcases List.mem_append.1 hmem with hold | hnew
        · exact hstaged write hold
        · rw [List.mem_singleton.1 hnew]
          exact ⟨rfl, rfl⟩
      have hrun : stageAll processId fails (plan :: rest) staged fs
          = stageAll processId fails rest (staged ++ [stagedWrite plan temporary]) fs' := by
        rw [stageAll, hstep]
        rfl
      rw [hrun]
      rcases ih hapart' hout.2 hnow hstagedNow with
        ⟨hrest, staged', fs', hstaged', htracked', hall⟩ | ⟨hnot, herror⟩
      · rw [List.append_assoc] at htracked'
        exact .inl ⟨⟨hsucceeds, hrest⟩, staged', fs', hstaged', htracked', hall⟩
      · exact .inr ⟨fun h => hnot h.2, herror⟩
    · refine .inr ⟨fun h => hnot h.1, error, ?_⟩
      have hrollback := htracked.rollback hcut.1
      rw [stageAll, hstep]
      exact congrArg (Prod.mk _) hrollback

/-! ## Installing -/

/-- The old file, if there is one, can be moved out of the way. -/
structure MoveSucceeds (processId : Nat) (fails : Operation → Bool) (old : FileSystem)
    (plan : PlannedFileWrite × Nat) : Prop where
  checkAgain : fails (.checkAgain plan.2) = false
  probe : old plan.1.path ≠ none →
    FindsFree old (transactionPath processId plan.1.path "backup" plan.2)
      (fun attempt => fails (.probe plan.2 attempt)) 0 1000
  moveAside : old plan.1.path ≠ none → fails (.moveAside plan.2) = false

/-- The steps that install a staged file succeed. -/
structure InstallSucceeds (processId : Nat) (fails : Operation → Bool) (old : FileSystem)
    (plan : PlannedFileWrite × Nat) : Prop
    extends MoveSucceeds processId fails old plan where
  install : fails (.install plan.2) = false

/-- A write whose target is free and whose file is staged. -/
structure IsReady (old fs : FileSystem) (write : StagedFileWrite)
    (plan : PlannedFileWrite × Nat) : Prop where
  installed : write.installed = false
  backup : write.backup = none → old plan.1.path = none
  temporary : fs write.temporary = some plan.1.contents

theorem temporary_mem_partOf (h : Placed processId write plan) :
    write.temporary ∈ partOf processId plan := by
  rcases h.temporary with ⟨attempt, hattempt⟩
  rw [hattempt]
  exact transactionPath_mem_reserved _ _ _ _

theorem target_mem_partOf (h : Placed processId write plan) :
    write.target ∈ partOf processId plan := by
  rw [h.target]
  exact target_mem_reserved _ _

/-- The old file is moved to a free path, or nothing happens. -/
theorem moveTargetAside_spec {write : StagedFileWrite} {plan : PlannedFileWrite × Nat}
    {fs : FileSystem} (hunderway : Underway processId old fs write plan)
    (hstaged : IsStaged write) :
    (MoveSucceeds processId fails old plan ∧ ∃ write' fs',
        moveTargetAside processId fails write fs = (.ok write', fs')
        ∧ Underway processId old fs' write' plan ∧ IsReady old fs' write' plan
        ∧ ∀ path, path ∉ partOf processId plan → fs' path = fs path)
    ∨ (¬ MoveSucceeds processId fails old plan
      ∧ ∃ error, moveTargetAside processId fails write fs = (.error error, fs)) := by
  rcases hunderway with ⟨hprogress, hplaced, hfresh⟩
  have hfs : Set.EqOn fs (Function.update old write.temporary (some plan.1.contents))
      (partOf processId plan) := by
    cases hprogress with
    | staged hbackup hinstalled hfs => exact hfs
    | movedAside backup hbackup _ _ _ _ _ => rw [hstaged.1] at hbackup; cases hbackup
    | created _ hinstalled _ _ => rw [hstaged.2] at hinstalled; cases hinstalled
    | replaced _ _ hinstalled _ _ _ => rw [hstaged.2] at hinstalled; cases hinstalled
  have htemporary : fs write.temporary = some plan.1.contents := by
    rw [hfs (temporary_mem_partOf hplaced), Function.update_self]
  have htarget : fs write.target = old plan.1.path := by
    rw [hfs (target_mem_partOf hplaced), Function.update_of_ne hfresh.ne.symm, hplaced.target]
  rw [moveTargetAside, existingRegularFile, attemptTo, hplaced.index]
  by_cases hcheck : fails (.checkAgain plan.2) = true
  · rw [if_pos hcheck]
    refine .inr ⟨fun h => ?_, _, rfl⟩
    have hok := h.checkAgain
    rw [hcheck] at hok
    cases hok
  · rw [if_neg hcheck, htarget]
    rw [Bool.not_eq_true] at hcheck
    cases hold : old plan.1.path with
    | none =>
      -- nothing to move
      refine .inl ⟨⟨hcheck, fun h => absurd hold h, fun h => absurd hold h⟩, write, fs, rfl,
        ⟨hprogress, hplaced, hfresh⟩, ⟨hstaged.2, fun _ => hold, htemporary⟩, fun _ _ => rfl⟩
    | some contents =>
      have hne : old plan.1.path ≠ none := by rw [hold]; exact Option.some_ne_none _
      have hsame : ∀ attempt, fs (transactionPath processId write.target "backup" plan.2 attempt)
          = old (transactionPath processId write.target "backup" plan.2 attempt) := by
        intro attempt
        rw [hplaced.target, hfs (transactionPath_mem_reserved _ _ _ _)]
        apply Function.update_of_ne
        rcases hplaced.temporary with ⟨attempt', hattempt'⟩
        rw [hattempt']
        exact (staged_ne_backup _ _ _ _ _).symm
      rw [hplaced.target] at hsame
      rcases @vacantFrom_spec processId fails old plan.1.path plan.2 1000 0 fs hsame with
        ⟨hfinds, attempt, hfree, hfound⟩ | ⟨hnot, error, hfound⟩
      · let backup := transactionPath processId plan.1.path "backup" plan.2 attempt
        have hfound' : vacantFrom processId fails write.target plan.2 1000 0 fs
            = (.ok backup, fs) := by
          rw [hplaced.target]
          exact hfound
        have hmove : rename write.target backup fs
            = (.ok (), Function.update (Function.update fs write.target none) backup
              (some contents)) := by
          apply rename_of_some
          rw [htarget, hold]
        simp only [Option.isSome_some, hfound', attemptTo]
        by_cases haside : fails (.moveAside plan.2) = true
        · rw [if_pos haside]
          refine .inr ⟨fun h => ?_, _, rfl⟩
          have hok := h.moveAside hne
          rw [haside] at hok
          cases hok
        · rw [if_neg haside, hmove]
          rw [Bool.not_eq_true] at haside
          -- the backup is no other path of the write
          have htemporaryNe : backup ≠ write.temporary := by
            intro hsame'
            have hnone : fs backup = none := (hsame attempt).trans hfree
            rw [hsame', htemporary] at hnone
            cases hnone
          have hbackupPart : backup ∈ partOf processId plan :=
            transactionPath_mem_reserved _ _ _ _
          have holdTarget : old write.target = some contents := by
            rw [hplaced.target, hold]
          refine .inl ⟨⟨hcheck, fun _ => hfinds, fun _ => haside⟩,
            { write with backup := some backup }, _, by rw [hplaced.index], ?_, ?_, ?_⟩
          · refine ⟨.movedAside backup rfl hstaged.2 (by rw [hplaced.target]; exact hne) hfree
              htemporaryNe ?_, ⟨hplaced.target, hplaced.index, hplaced.temporary, ?_⟩,
              hfresh.vacant, hfresh.ne⟩
            · intro path hpath
              simp only [Function.update_apply, hfs hpath, holdTarget]
            · intro backup' hbackup'
              exact ⟨attempt, (Option.some.inj hbackup').symm⟩
          · refine ⟨hstaged.2, fun h => (nomatch h), ?_⟩
            rw [Function.update_of_ne htemporaryNe.symm, Function.update_of_ne hfresh.ne,
              htemporary]
          · intro path hpath
            rw [Function.update_of_ne (ne_of_mem_of_not_mem hbackupPart hpath).symm,
              Function.update_of_ne
                (ne_of_mem_of_not_mem (target_mem_partOf hplaced) hpath).symm]
      · refine .inr ⟨fun h => hnot (h.probe hne), error, ?_⟩
        rw [hplaced.target]
        simp only [Option.isSome_some, hfound]

/-- A ready write is installed by one move. -/
theorem install_ready (hunderway : Underway processId old fs write plan)
    (hready : IsReady old fs write plan) :
    ∃ fs', rename write.temporary write.target fs = (.ok (), fs')
      ∧ Underway processId old fs' { write with installed := true } plan
      ∧ ∀ path, path ∉ partOf processId plan → fs' path = fs path := by
  rcases hunderway with ⟨hprogress, hplaced, hfresh⟩
  have hvacant := hfresh.vacant
  have hne := hfresh.ne
  refine ⟨_, rename_of_some hready.temporary, ⟨?_, ⟨hplaced.target, hplaced.index,
    hplaced.temporary, hplaced.backup⟩, ⟨hvacant, hne⟩⟩, ?_⟩
  · cases hprogress with
    | staged hbackup _ hfs =>
      refine .created hbackup rfl ?_ ?_
      · rw [hplaced.target]
        exact hready.backup hbackup
      · intro path hpath
        simp only [Function.update_apply, hfs hpath]
        grind
    | movedAside backup hbackup _ hold hvacant' htemporary hfs =>
      refine .replaced backup hbackup rfl hold hvacant' ?_
      intro path hpath
      simp only [Function.update_apply, hfs hpath]
      grind
    | created _ hinstalled _ _ => rw [hready.installed] at hinstalled; cases hinstalled
    | replaced _ _ hinstalled _ _ _ => rw [hready.installed] at hinstalled; cases hinstalled
  · intro path hpath
    rw [Function.update_of_ne (ne_of_mem_of_not_mem (target_mem_partOf hplaced) hpath).symm,
      Function.update_of_ne (ne_of_mem_of_not_mem (temporary_mem_partOf hplaced) hpath).symm]

/-- Installing ends with all files installed, or with the files as they were. -/
theorem installAll_spec {done todo : List StagedFileWrite}
    {planned others : List (PlannedFileWrite × Nat)} {fs : FileSystem}
    (hapart : Apart processId (planned ++ others))
    (hdone : List.Forall₂ (Underway processId old fs) done planned)
    (htodo : List.Forall₂ (Underway processId old fs) todo others)
    (houtside : ∀ path, (∀ plan ∈ planned ++ others, path ∉ partOf processId plan) →
      fs path = old path)
    (hinstalled : ∀ write ∈ done, write.installed = true)
    (hstaged : ∀ write ∈ todo, IsStaged write) :
    ((∀ plan ∈ others, InstallSucceeds processId fails old plan) ∧ ∃ staged fs',
        installAll processId fails done todo fs = (.ok staged, fs')
        ∧ Tracked processId old fs' staged (planned ++ others)
        ∧ ∀ write ∈ staged, write.installed = true)
    ∨ ((¬ ∀ plan ∈ others, InstallSucceeds processId fails old plan)
      ∧ ∃ error, installAll processId fails done todo fs = (.error error, old)) := by
  induction todo generalizing done planned others fs with
  | nil =>
    cases htodo
    refine .inl ⟨fun plan hplan => absurd hplan List.not_mem_nil, done, fs, rfl, ?_, hinstalled⟩
    rw [List.append_nil] at houtside ⊢
    exact ⟨hdone, houtside⟩
  | cons write rest ih =>
    rcases htodo with _ | @⟨_, plan, _, plans, hwrite, hrest⟩
    rw [List.forall_mem_cons] at hstaged ⊢
    rcases @moveTargetAside_spec processId fails old write plan fs hwrite hstaged.1 with
      ⟨hmove, write', fs', hstep, hwrite', hready, hframe⟩ | ⟨hnot, error, hstep⟩
    · have hmoved := Tracked.step hapart hdone hrest houtside hframe hwrite'
      rw [installAll, hstep]
      simp only [attemptTo, hwrite'.placed.index]
      by_cases hfails : fails (.install plan.2) = true
      · rw [if_pos hfails]
        refine .inr ⟨fun h => ?_, .failed (.install plan.2),
          congrArg (Prod.mk _) (hmoved.rollback hapart)⟩
        have hok := h.1.install
        rw [hfails] at hok
        cases hok
      · rw [if_neg hfails]
        rw [Bool.not_eq_true] at hfails
        rcases install_ready hwrite' hready with ⟨fs'', hrename, hinstalledNow, hframe'⟩
        have hboth : ∀ path, path ∉ partOf processId plan → fs'' path = fs path := by
          intro path hpath
          rw [hframe' path hpath, hframe path hpath]
        have happart : Apart processId ((planned ++ [plan]) ++ plans) := by
          rw [List.append_assoc]
          exact hapart
        rcases List.pairwise_append.1 hapart with ⟨-, hplans, hbetween⟩
        have hdone' := underway_congr hdone
          (fun plan' hplan' => hbetween plan' hplan' plan List.mem_cons_self) hboth
        have hrest' := underway_congr hrest
          (fun plan' hplan' => ((List.pairwise_cons.1 hplans).1 plan' hplan').symm) hboth
        have hdoneNow := @List.rel_append _ _ (Underway processId old fs'') _ _ hdone' _ _
          (.cons hinstalledNow .nil)
        have houtside' : ∀ path, (∀ plan' ∈ (planned ++ [plan]) ++ plans,
            path ∉ partOf processId plan') → fs'' path = old path := by
          intro path hpath
          rw [hboth path (hpath plan (by simp))]
          apply houtside
          intro plan' hplan'
          exact hpath plan' (by simpa using hplan')
        have hinstalled' : ∀ other ∈ done ++ [{ write' with installed := true }],
            other.installed = true := by
          intro other hother
          rcases List.mem_append.1 hother with hold | hnew
          · exact hinstalled other hold
          · rw [List.mem_singleton.1 hnew]
        rw [hrename, ← hwrite'.placed.index]
        rcases ih happart hdoneNow hrest' houtside' hinstalled' hstaged.2 with
          ⟨hplans', staged, last, hrun, htracked, hall⟩ | ⟨hnot, herror⟩
        · rw [List.append_assoc] at htracked
          exact .inl ⟨⟨⟨hmove, hfails⟩, hplans'⟩, staged, last, hrun, htracked, hall⟩
        · exact .inr ⟨fun h => hnot h.2, herror⟩
    · have htracked := Tracked.step hapart hdone hrest houtside (fun _ _ => rfl) hwrite
      refine .inr ⟨fun h => hnot h.1.toMoveSucceeds, error, ?_⟩
      rw [installAll, hstep]
      exact congrArg (Prod.mk _) (htracked.rollback hapart)

/-! ## Cleaning up -/

/-- What cleaning up does for one write. -/
def discardBackup (fails : Operation → Bool) (write : StagedFileWrite) (fs : FileSystem) :
    FileSystem :=
  match write.backup with
  | some backup =>
    if fails (.removeBackup write.index) then fs else Function.update fs backup none
  | none => fs

/-- The files after the clean-up. -/
theorem cleanUp_files (staged : List StagedFileWrite) (cleanupError : Option IoError)
    (fs : FileSystem) :
    (cleanUp fails staged cleanupError fs).2 = staged.reverse.foldr (discardBackup fails) fs := by
  induction staged generalizing cleanupError fs with
  | nil => cases cleanupError <;> rfl
  | cons write rest ih =>
    rw [List.reverse_cons, List.foldr_append, List.foldr_cons, List.foldr_nil, cleanUp,
      discardBackup]
    cases write.backup with
    | none => exact ih cleanupError fs
    | some backup =>
      simp only [attemptTo]
      by_cases hfails : fails (.removeBackup write.index) = true
      · rw [if_pos hfails, if_pos hfails]
        exact ih _ fs
      · rw [if_neg hfails, if_neg hfails, ← removeFile_files]
        cases hremove : removeFile backup fs with
        | mk result fs' =>
          cases result with
          | error error => exact ih _ fs'
          | ok u => exact ih _ fs'

/-- The clean-up succeeds if every backup can be removed. -/
theorem cleanUp_ok_iff {staged : List StagedFileWrite} {cleanupError : Option IoError}
    {fs : FileSystem}
    (hexists : ∀ write ∈ staged, ∀ backup, write.backup = some backup → fs backup ≠ none)
    (hdistinct : staged.Pairwise fun write write' => ∀ backup, write.backup = some backup →
      write'.backup ≠ some backup) :
    (cleanUp fails staged cleanupError fs).1 = .ok () ↔ cleanupError = none
      ∧ ∀ write ∈ staged, write.backup ≠ none → fails (.removeBackup write.index) = false := by
  induction staged generalizing cleanupError fs with
  | nil =>
    cases cleanupError with
    | none => simp [cleanUp]
    | some error => simp [cleanUp]
  | cons write rest ih =>
    rw [List.forall_mem_cons] at hexists ⊢
    rcases List.pairwise_cons.1 hdistinct with ⟨hfirst, hrest⟩
    rw [cleanUp]
    cases hbackup : write.backup with
    | none => simpa using ih hexists.2 hrest
    | some backup =>
      simp only [attemptTo]
      by_cases hfails : fails (.removeBackup write.index) = true
      · -- the error is kept to the end
        rw [if_pos hfails, ih hexists.2 hrest, hfails]
        cases cleanupError <;> simp
      · rw [if_neg hfails]
        rw [Bool.not_eq_true] at hfails
        rcases Option.ne_none_iff_exists'.1 (hexists.1 backup hbackup) with ⟨contents, hcontents⟩
        have hremove : removeFile backup fs = (.ok (), Function.update fs backup none) := by
          rw [removeFile, hcontents]
        have hexists' : ∀ write' ∈ rest, ∀ backup', write'.backup = some backup' →
            Function.update fs backup none backup' ≠ none := by
          intro write' hwrite' backup' hbackup'
          have hne : backup' ≠ backup := by
            rintro rfl
            exact hfirst write' hwrite' backup' hbackup hbackup'
          rw [Function.update_of_ne hne]
          exact hexists.2 write' hwrite' backup' hbackup'
        rw [hremove]
        have hrec := @ih cleanupError _ hexists' hrest
        rw [hrec, hfails]
        simp

theorem backup_mem_partOf (h : Placed processId write plan) {backup : PathBuf}
    (hbackup : write.backup = some backup) : backup ∈ partOf processId plan := by
  rcases h.backup backup hbackup with ⟨attempt, rfl⟩
  exact transactionPath_mem_reserved _ _ _ _

theorem confined_discardBackup (h : Placed processId write plan) :
    Confined (partOf processId plan) (discardBackup fails write) := by
  cases hbackup : write.backup with
  | none =>
    have hid : discardBackup fails write = id := by
      funext fs
      rw [discardBackup, hbackup]
      rfl
    rw [hid]
    exact confined_id _
  | some backup =>
    have hshape : discardBackup fails write = fun fs =>
        if fails (.removeBackup write.index) then id fs else Function.update fs backup none := by
      funext fs
      rw [discardBackup, hbackup]
      rfl
    rw [hshape]
    exact (confined_id _).ite (confined_update (backup_mem_partOf h hbackup) fun _ => rfl)
      fun _ => rfl

/-- An installed write has a backup exactly if there was an old file, which the backup holds. -/
theorem Progress.backup_holds (h : Underway processId old fs write plan)
    (hinstalled : write.installed = true) : (write.backup ≠ none ↔ old plan.1.path ≠ none)
      ∧ ∀ backup, write.backup = some backup → fs backup ≠ none ∧ old backup = none := by
  rcases h with ⟨hprogress, hplaced, -⟩
  rw [← hplaced.target]
  cases hprogress with
  | staged _ hnot _ => rw [hinstalled] at hnot; cases hnot
  | movedAside _ _ hnot _ _ _ _ => rw [hinstalled] at hnot; cases hnot
  | created hbackup _ hold _ =>
    rw [hbackup, hold]
    exact ⟨⟨fun h => absurd rfl h, fun h => absurd rfl h⟩, fun backup h => nomatch h⟩
  | replaced backup hbackup _ hold hvacant hfs =>
    rw [hbackup]
    refine ⟨⟨fun _ => hold, fun _ => Option.some_ne_none _⟩, ?_⟩
    intro backup' hbackup'
    obtain rfl := Option.some.inj hbackup'
    rw [hfs (backup_mem_partOf hplaced hbackup), Function.update_self]
    exact ⟨hold, hvacant⟩

/-- When its backup is gone, an installed write has changed nothing but its target. -/
theorem discardBackup_installed (h : Underway processId old fs write plan)
    (hinstalled : write.installed = true)
    (hremoved : write.backup ≠ none → fails (.removeBackup write.index) = false) :
    Set.EqOn (discardBackup fails write fs)
      (Function.update old plan.1.path (some plan.1.contents)) (partOf processId plan) := by
  rcases h with ⟨hprogress, hplaced, -⟩
  rw [← hplaced.target]
  intro path hpath
  cases hprogress with
  | staged _ hnot _ => rw [hinstalled] at hnot; cases hnot
  | movedAside _ _ hnot _ _ _ _ => rw [hinstalled] at hnot; cases hnot
  | created hbackup _ hold hfs => simp only [discardBackup, hbackup, hfs hpath]
  | replaced backup hbackup _ hold hvacant hfs =>
    have hnot : fails (.removeBackup write.index) = false :=
      hremoved (by rw [hbackup]; exact Option.some_ne_none _)
    have hne : backup ≠ write.target := by
      rintro rfl
      exact hold hvacant
    have hnow := hfs hpath
    simp only [discardBackup, hbackup, hnot, Function.update_apply] at hnow ⊢
    grind

/-- A backup that cannot be removed belongs to a write that replaced an old file. -/
theorem Tracked.removed_iff (h : Tracked processId old fs staged planned)
    (hinstalled : ∀ write ∈ staged, write.installed = true) :
    (∀ write ∈ staged, write.backup ≠ none → fails (.removeBackup write.index) = false)
      ↔ ∀ plan ∈ planned, old plan.1.path ≠ none → fails (.removeBackup plan.2) = false := by
  constructor
  · intro hremoved plan hplan hold
    rcases exists_left_of_mem h.each hplan with ⟨write, hwrite, hunderway⟩
    rw [← hunderway.placed.index]
    exact hremoved write hwrite
      ((Progress.backup_holds hunderway (hinstalled write hwrite)).1.2 hold)
  · intro hremoved write hwrite hbackup
    rcases exists_right_of_mem h.each hwrite with ⟨plan, hplan, hunderway⟩
    rw [hunderway.placed.index]
    exact hremoved plan hplan
      ((Progress.backup_holds hunderway (hinstalled write hwrite)).1.1 hbackup)

/-- The clean-up succeeds if the backups of the old files can be removed. -/
theorem Tracked.cleanUp_ok_iff {fs : FileSystem} {staged : List StagedFileWrite}
    {planned : List (PlannedFileWrite × Nat)} (h : Tracked processId old fs staged planned)
    (hapart : Apart processId planned) (hinstalled : ∀ write ∈ staged, write.installed = true) :
    (cleanUp fails staged none fs).1 = .ok ()
      ↔ ∀ plan ∈ planned, old plan.1.path ≠ none → fails (.removeBackup plan.2) = false := by
  rw [← h.removed_iff hinstalled, Emit.cleanUp_ok_iff]
  · exact ⟨fun hok => hok.2, fun hok => ⟨rfl, hok⟩⟩
  · intro write hwrite backup hbackup
    rcases exists_right_of_mem h.each hwrite with ⟨plan, -, hunderway⟩
    exact ((Progress.backup_holds hunderway (hinstalled write hwrite)).2 backup hbackup).1
  · -- backups of different writes are in disjoint parts
    have hmem : ∀ write ∈ staged, ∀ backup, write.backup = some backup →
        backup ∈ reserved processId write.target write.index := by
      intro write hwrite backup hbackup
      rcases h.each_left hwrite with ⟨plan, -, hpart, hunderway⟩
      rw [hpart]
      exact backup_mem_partOf hunderway.placed hbackup
    apply (h.apart hapart).imp_of_mem
    intro write write' hwrite hwrite' hdisjoint backup hbackup hbackup'
    exact Set.disjoint_left.1 hdisjoint (hmem write hwrite backup hbackup)
      (hmem write' hwrite' backup hbackup')

theorem Tracked.confined (h : Tracked processId old fs staged planned) : ∀ write ∈ staged.reverse,
      Confined (reserved processId write.target write.index) (discardBackup fails write) := by
  intro write hwrite
  rcases h.each_left (List.mem_reverse.1 hwrite) with ⟨plan, -, hpart, hunderway⟩
  rw [hpart]
  exact confined_discardBackup hunderway.placed

/-- The clean-up leaves each part as its own write does. -/
theorem Tracked.cleanUp_eqOn {fs : FileSystem} {staged : List StagedFileWrite}
    {planned : List (PlannedFileWrite × Nat)} (h : Tracked processId old fs staged planned)
    (hapart : Apart processId planned) {write : StagedFileWrite} (hwrite : write ∈ staged)
    {plan : PlannedFileWrite × Nat} (hunderway : Underway processId old fs write plan) :
    Set.EqOn (cleanUp fails staged none fs).2 (discardBackup fails write fs)
      (partOf processId plan) := by
  have hpart : reserved processId write.target write.index = partOf processId plan := by
    rw [hunderway.placed.target, hunderway.placed.index]
    rfl
  have hpairwise : staged.reverse.Pairwise fun write write' =>
      Disjoint (reserved processId write.target write.index)
        (reserved processId write'.target write'.index) :=
    List.pairwise_reverse.2 ((h.apart hapart).imp fun hdisjoint => hdisjoint.symm)
  rw [cleanUp_files, ← hpart]
  exact @foldr_eqOn _ _ _ (fun write => reserved processId write.target write.index)
    (discardBackup fails) _ h.confined hpairwise fs write (List.mem_reverse.2 hwrite)

/-- After the clean-up, the part of a plan is as before but for its target. -/
theorem Tracked.cleaned (h : Tracked processId old fs staged planned)
    (hapart : Apart processId planned) (hinstalled : ∀ write ∈ staged, write.installed = true)
    (hremoved : ∀ write ∈ staged, write.backup ≠ none → fails (.removeBackup write.index) = false)
    (hplan : plan ∈ planned) : Set.EqOn (cleanUp fails staged none fs).2
      (Function.update old plan.1.path (some plan.1.contents)) (partOf processId plan) := by
  rcases exists_left_of_mem h.each hplan with ⟨write, hwrite, hunderway⟩
  apply (h.cleanUp_eqOn hapart hwrite hunderway).trans
  exact discardBackup_installed hunderway (hinstalled write hwrite) (hremoved write hwrite)

/-- What is outside of all parts is as before. -/
theorem Tracked.cleaned_outside (h : Tracked processId old fs staged planned) {path : PathBuf}
    (hpath : ∀ plan ∈ planned, path ∉ partOf processId plan) :
    (cleanUp fails staged none fs).2 path = old path := by
  rw [cleanUp_files, @foldr_frame _ _ _ (fun write => reserved processId write.target write.index)
    (discardBackup fails) _ h.confined fs path ?_]
  · exact h.frame path hpath
  · intro write hwrite
    rcases h.each_left (List.mem_reverse.1 hwrite) with ⟨plan, hplan, hpart, -⟩
    rw [hpart]
    exact hpath plan hplan

/-- A backup that cannot be removed stays. -/
theorem Tracked.left_behind (h : Tracked processId old fs staged planned)
    (hapart : Apart processId planned) (hinstalled : ∀ write ∈ staged, write.installed = true)
    (hplan : plan ∈ planned) (hold : old plan.1.path ≠ none)
    (hfails : fails (.removeBackup plan.2) = true) : (cleanUp fails staged none fs).2 ≠ old := by
  rcases exists_left_of_mem h.each hplan with ⟨write, hwrite, hunderway⟩
  have hholds := Progress.backup_holds hunderway (hinstalled write hwrite)
  rcases Option.ne_none_iff_exists'.1 (hholds.1.2 hold) with ⟨backup, hbackup⟩
  intro hsame
  have hkept := @Tracked.cleanUp_eqOn processId fails old fs staged planned h hapart write hwrite plan hunderway
    _ (backup_mem_partOf hunderway.placed hbackup)
  rw [hsame, discardBackup, hbackup, hunderway.placed.index] at hkept
  simp only [hfails, if_true] at hkept
  rw [(hholds.2 backup hbackup).2] at hkept
  exact (hholds.2 backup hbackup).1 hkept.symm

/-! ## The transaction -/

/-- Success with all targets written and nothing else changed, or an error and nothing changed. -/
def AllOrNothing (writes : List PlannedFileWrite) (old : FileSystem) (result : IoResult Unit) :
    Prop :=
  (result.1 = .ok () ∧ (∀ write ∈ writes, result.2 write.path = some write.contents)
    ∧ ∀ path, (∀ write ∈ writes, path ≠ write.path) → result.2 path = old path)
  ∨ ((∃ error, result.1 = .error error) ∧ result.2 = old)

/-- Every step before the clean-up succeeds. -/
structure Commits (processId : Nat) (fails : Operation → Bool) (old : FileSystem)
    (writes : List PlannedFileWrite) : Prop where
  distinct : (writes.map PlannedFileWrite.path).Nodup
  check : ∀ plan ∈ writes.zipIdx, fails (.check plan.2) = false
  stage : ∀ plan ∈ writes.zipIdx, StageSucceeds processId fails old plan
  install : ∀ plan ∈ writes.zipIdx, InstallSucceeds processId fails old plan

theorem duplicateTarget_eq_none {seen paths : List PathBuf} :
    duplicateTarget seen paths = none ↔ (∀ path ∈ paths, path ∉ seen) ∧ paths.Nodup := by
  induction paths generalizing seen with
  | nil => simp [duplicateTarget]
  | cons path rest ih =>
    rw [duplicateTarget, List.forall_mem_cons, List.nodup_cons]
    by_cases hseen : path ∈ seen
    · rw [if_pos hseen]
      constructor
      · intro h
        cases h
      · intro h
        exact absurd hseen h.1.1
    · rw [if_neg hseen, ih]
      constructor
      · rintro ⟨hrest, hnodup⟩
        refine ⟨⟨hseen, fun other hother hmem => hrest other hother (.tail _ hmem)⟩, ?_, hnodup⟩
        intro hmem
        exact hrest path hmem (.head _)
      · rintro ⟨⟨-, hrest⟩, hnot, hnodup⟩
        refine ⟨?_, hnodup⟩
        intro other hother hmem
        rcases List.mem_cons.1 hmem with rfl | hmem'
        · exact hnot hother
        · exact hrest other hother hmem'

theorem checkAll_spec (todo : List (PlannedFileWrite × Nat)) (fs : FileSystem) :
    ((∀ plan ∈ todo, fails (.check plan.2) = false) ∧ checkAll fails todo fs = (.ok (), fs))
    ∨ ((¬ ∀ plan ∈ todo, fails (.check plan.2) = false)
      ∧ ∃ error, checkAll fails todo fs = (.error error, fs)) := by
  induction todo with
  | nil => exact .inl ⟨fun plan hplan => absurd hplan List.not_mem_nil, rfl⟩
  | cons plan rest ih =>
    rw [List.forall_mem_cons, checkAll, existingRegularFile, attemptTo]
    by_cases hfails : fails (.check plan.2) = true
    · rw [if_pos hfails]
      refine .inr ⟨fun h => ?_, _, rfl⟩
      have hok := h.1
      rw [hfails] at hok
      cases hok
    · rw [if_neg hfails]
      rw [Bool.not_eq_true] at hfails
      rcases ih with ⟨hrest, hrun⟩ | ⟨hnot, herror⟩
      · exact .inl ⟨⟨hfails, hrest⟩, hrun⟩
      · exact .inr ⟨fun h => hnot h.2, herror⟩

/-- The steps before the clean-up all succeed, or the files are as they were. -/
theorem writeFiles_committed_or_rolledBack {writes : List PlannedFileWrite}
    (hout : ∀ write ∈ writes, isOutputPath write.path = true) :
    (Commits processId fails old writes ∧ ∃ staged fs,
        writeFilesTransactionally processId fails writes old = cleanUp fails staged none fs
        ∧ Tracked processId old fs staged writes.zipIdx
        ∧ ∀ write ∈ staged, write.installed = true)
    ∨ (¬ Commits processId fails old writes
      ∧ ∃ error, writeFilesTransactionally processId fails writes old = (.error error, old)) := by
  rw [writeFilesTransactionally]
  cases hduplicate : duplicateTarget [] (writes.map PlannedFileWrite.path) with
  | some path =>
    refine .inr ⟨fun h => ?_, _, rfl⟩
    have hnone := duplicateTarget_eq_none.2 ⟨fun path _ => List.not_mem_nil, h.distinct⟩
    rw [hduplicate] at hnone
    cases hnone
  | none =>
    have hdistinct := (duplicateTarget_eq_none.1 hduplicate).2
    have hapart : Apart processId writes.zipIdx := partOf_pairwise hdistinct hout
    have houtPlans : ∀ plan ∈ writes.zipIdx, isOutputPath plan.1.path = true :=
      fun plan hplan => hout plan.1 (List.fst_mem_of_mem_zipIdx hplan)
    rcases @checkAll_spec fails writes.zipIdx old with
      ⟨hcheck, hchecked⟩ | ⟨hnot, error, hchecked⟩
    · have hempty : Tracked processId old old [] [] := ⟨.nil, fun _ _ => rfl⟩
      rcases @stageAll_spec processId fails old writes.zipIdx [] [] old hapart houtPlans hempty
        (fun write h => absurd h List.not_mem_nil) with
        ⟨hstage, staged, fs, hstaged, htracked, hall⟩ | ⟨hnot, error, hstaged⟩
      · rcases @installAll_spec processId fails old [] staged [] writes.zipIdx fs hapart .nil
          htracked.each htracked.frame (fun write h => absurd h List.not_mem_nil) hall with
          ⟨hinstall, staged', fs', hrun, htracked', hinstalled⟩ | ⟨hnot, error, hrun⟩
        · refine .inl ⟨⟨hdistinct, hcheck, hstage, hinstall⟩, staged', fs', ?_, htracked',
            hinstalled⟩
          simp only [hchecked, hstaged, hrun]
        · refine .inr ⟨fun h => hnot h.install, error, ?_⟩
          simp only [hchecked, hstaged, hrun]
      · refine .inr ⟨fun h => hnot h.stage, error, ?_⟩
        simp only [hchecked, hstaged]
    · refine .inr ⟨fun h => hnot h.check, error, ?_⟩
      simp only [hchecked]

/-- Writing outputs is all or nothing exactly when it is rolled back, or no backup is left. -/
theorem writeFiles_allOrNothing_iff {writes : List PlannedFileWrite}
    (hout : ∀ write ∈ writes, isOutputPath write.path = true) :
    AllOrNothing writes old (writeFilesTransactionally processId fails writes old)
      ↔ (Commits processId fails old writes → ∀ plan ∈ writes.zipIdx, old plan.1.path ≠ none →
        fails (.removeBackup plan.2) = false) := by
  rcases @writeFiles_committed_or_rolledBack processId fails old writes hout with
    ⟨hcommits, staged, fs, hrun, htracked, hinstalled⟩ | ⟨hnot, error, hrun⟩
  · have hapart : Apart processId writes.zipIdx := partOf_pairwise hcommits.distinct hout
    rw [hrun]
    have hok := @Tracked.cleanUp_ok_iff processId fails old fs staged _ htracked hapart hinstalled
    constructor
    · rintro (⟨hsuccess, -, -⟩ | ⟨⟨error, herror⟩, hsame⟩) -
      · exact hok.1 hsuccess
      · -- an error of the clean-up comes with a backup that stays
        intro plan hplan hold
        by_contra hfails
        rw [Bool.not_eq_false] at hfails
        exact htracked.left_behind hapart hinstalled hplan hold hfails hsame
    · intro hremoved
      have hremovedPlans := hremoved hcommits
      have hremovedStaged := (htracked.removed_iff hinstalled).2 hremovedPlans
      refine .inl ⟨hok.2 hremovedPlans, ?_, ?_⟩
      · intro write hwrite
        rcases List.getElem?_of_mem hwrite with ⟨index, hindex⟩
        have hplan : (write, index) ∈ writes.zipIdx := List.mk_mem_zipIdx_iff_getElem?.2 hindex
        have hcleaned := htracked.cleaned hapart hinstalled hremovedStaged hplan
        rw [hcleaned (target_mem_reserved _ _), Function.update_self]
      · intro path hpath
        by_cases hin : ∃ plan ∈ writes.zipIdx, path ∈ partOf processId plan
        · rcases hin with ⟨plan, hplan, hmem⟩
          rw [htracked.cleaned hapart hinstalled hremovedStaged hplan hmem]
          exact Function.update_of_ne (hpath plan.1 (List.fst_mem_of_mem_zipIdx hplan)) _ _
        · exact htracked.cleaned_outside fun plan hplan hmem => hin ⟨plan, hplan, hmem⟩
  · rw [hrun]
    constructor
    · intro _ hcommits
      exact absurd hcommits hnot
    · intro _
      exact .inr ⟨⟨error, rfl⟩, rfl⟩

end

/-! ## Transactions one after the other -/

/-- The files with all targets of the writes replaced. -/
def published (writes : List PlannedFileWrite) (fs : FileSystem) : FileSystem := fun path =>
  match writes.find? fun write => write.path = path with
  | some write => some write.contents
  | none => fs path

/-- The paths the emitter may write. -/
def outputPaths : Set PathBuf := fun path => isOutputPath path = true

section

variable {processId : Nat} {fails : Operation → Bool} {old fs : FileSystem}
  {plan : PlannedFileWrite × Nat} {write : StagedFileWrite}

/-- The target of an installed write has the new contents, whether or not its backup is gone. -/
theorem discardBackup_target (h : Underway processId old fs write plan)
    (hinstalled : write.installed = true) (hout : isOutputPath plan.1.path = true) :
    discardBackup fails write fs plan.1.path = some plan.1.contents := by
  have hmem : plan.1.path ∈ partOf processId plan := target_mem_reserved _ _
  rcases h with ⟨hprogress, hplaced, -⟩
  cases hprogress with
  | staged _ hnot _ => rw [hinstalled] at hnot; cases hnot
  | movedAside _ _ hnot _ _ _ _ => rw [hinstalled] at hnot; cases hnot
  | created hbackup _ _ hfs =>
    simp only [discardBackup, hbackup]
    rw [hfs hmem, hplaced.target, Function.update_self]
  | replaced backup hbackup _ _ _ hfs =>
    have hne : plan.1.path ≠ backup := by
      rcases hplaced.backup backup hbackup with ⟨attempt, rfl⟩
      exact transactionPath_ne_output hout _ _ _
    have hnow : fs plan.1.path = some plan.1.contents := by
      rw [hfs hmem, Function.update_of_ne hne, hplaced.target, Function.update_self]
    simp only [discardBackup, hbackup]
    split
    · exact hnow
    · rw [Function.update_of_ne hne, hnow]

/-- On the outputs a transaction is complete or has done nothing, and it is complete if it
reports success, or an error of the clean-up alone. -/
theorem writeFiles_outputs {writes : List PlannedFileWrite}
    (hout : ∀ write ∈ writes, isOutputPath write.path = true) :
    Set.EqOn (writeFilesTransactionally processId fails writes old).2 (published writes old)
        outputPaths
      ∨ (∃ error, writeFilesTransactionally processId fails writes old = (.error error, old)) := by
  rcases @writeFiles_committed_or_rolledBack processId fails old writes hout with
    ⟨hcommits, staged, fs, hrun, htracked, hinstalled⟩ | ⟨-, hrolledBack⟩
  · left
    have hapart : Apart processId writes.zipIdx := partOf_pairwise hcommits.distinct hout
    intro path hpath
    rw [hrun, published]
    split
    · next write hfind =>
        have hwrite := List.mem_of_find?_eq_some hfind
        obtain rfl : write.path = path := by simpa using List.find?_some hfind
        rcases List.getElem?_of_mem hwrite with ⟨index, hindex⟩
        have hplan : (write, index) ∈ writes.zipIdx := List.mk_mem_zipIdx_iff_getElem?.2 hindex
        rcases exists_left_of_mem htracked.each hplan with ⟨staging, hstaging, hunderway⟩
        have hsame := @Tracked.cleanUp_eqOn processId fails old fs staged _ htracked hapart staging
          hstaging _ hunderway
        rw [hsame (target_mem_reserved _ _)]
        exact discardBackup_target hunderway (hinstalled staging hstaging) hpath
    · next hnone =>
        -- an output that is no target is no path of the transaction
        apply htracked.cleaned_outside
        rintro plan hplan (htarget | ⟨role, attempt, hmade⟩)
        · have hnot := List.find?_eq_none.1 hnone plan.1 (List.fst_mem_of_mem_zipIdx hplan)
          exact hnot (decide_eq_true htarget.symm)
        · exact transactionPath_ne_output hpath _ _ _ hmade
  · exact .inr hrolledBack

end

/-- One transaction of a run, with the operations that fail in it. -/
structure OutputTransaction where
  processId : Nat
  fails : Operation → Bool
  writes : List PlannedFileWrite

def OutputTransaction.run (fs : FileSystem) (transaction : OutputTransaction) : FileSystem :=
  (writeFilesTransactionally transaction.processId transaction.fails transaction.writes fs).2

def runtimeFile : PathBuf := [.normal "out", .normal "a.py"]

def oldFiles : FileSystem := fun path => if path = runtimeFile then some "old" else none

def newFile : PlannedFileWrite := ⟨runtimeFile, "new"⟩

/-- A transaction that fails, and another try. -/
def retried : List OutputTransaction :=
  [⟨7, fun operation => operation = .install 0, [newFile]⟩, ⟨8, fun _ => false, [newFile]⟩]

/-- Only the move of the staged file fails. -/
theorem failedInstall_allOrNothing : AllOrNothing [newFile] oldFiles
    (writeFilesTransactionally 7 (fun operation => operation = .install 0) [newFile] oldFiles) := by
  refine (writeFiles_allOrNothing_iff (by decide)).2 ?_
  intro _ plan _ _
  rfl

/-- Only the removal of the backup fails: an error, although the new file is in place. -/
theorem leftBackup_not_allOrNothing : ¬ AllOrNothing [newFile] oldFiles
    (writeFilesTransactionally 7 (fun operation => operation = .removeBackup 0) [newFile]
      oldFiles) := by
  have hresult : (writeFilesTransactionally 7 (fun operation => operation = .removeBackup 0)
      [newFile] oldFiles).1.isOk = false := by decide +kernel
  have hnew : (writeFilesTransactionally 7 (fun operation => operation = .removeBackup 0)
      [newFile] oldFiles).2 runtimeFile = some "new" := by decide +kernel
  rintro (⟨hok, -⟩ | ⟨-, hsame⟩)
  · rw [hok] at hresult
    cases hresult
  · rw [hsame] at hnew
    exact absurd hnew (by decide)

end TypePython.Emit
