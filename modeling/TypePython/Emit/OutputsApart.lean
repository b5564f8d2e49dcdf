import TypePython.Emit.OutputPlan

/-!
# Outputs apart

The plan of a set of sources without a module collision. An artifact always belongs to a source,
with the places of that source (`Sound`). When the sources lie alike, every source has an artifact
that no other module shares (`KeptApart`).
-/

namespace TypePython.Emit

open TypePython.Binding
open TypePython.Lib

/-- The files of an artifact. -/
def outputs (artifact : EmitArtifact) : List PathBuf :=
  artifact.runtimePath.toList ++ artifact.stubPath.toList

/-- The output files of a source are those of the artifact. A stub next to a Python file is found
by the path of that file. -/
def IsOrigin (config : Config) (source : DiscoveredSource) (artifact : EmitArtifact) : Prop :=
  match source.kind with
  | .typePython => artifact.sourcePath = source.path ∧ artifact.runtimePath.isSome
      ∧ (config.emitPyi → artifact.stubPath.isSome)
  | .python => artifact.sourcePath = source.path ∧ artifact.runtimePath.isSome
  | .stub => (artifact.sourcePath = source.path
      ∨ PathBuf.withExtension artifact.sourcePath "pyi" = source.path) ∧ artifact.stubPath.isSome

/-- A file below the output root that spells a module. -/
def Spells (config : Config) (output : PathBuf) (logicalModule : String) : Prop :=
  ∃ relative, output = config.resolveRelativePath config.outDir ++ relative
    ∧ spelledModule relative = logicalModule

structure KeepsApart (config : Config) (sources : List DiscoveredSource)
    (artifacts : List EmitArtifact) : Prop where
  origin : ∀ source ∈ sources, ∃ artifact ∈ artifacts, IsOrigin config source artifact
  sourced : ∀ artifact ∈ artifacts, ∃ source ∈ sources, IsOrigin config source artifact
  distinct : (artifacts.flatMap outputs).Nodup
  spelled : ∀ artifact ∈ artifacts, ∀ source ∈ sources, IsOrigin config source artifact →
    ∀ output ∈ outputs artifact, Spells config output source.logicalModule

def planned (source : DiscoveredSource) : PlannedModuleSource := ⟨source.path, source.kind⟩

/-! ## Sources of one module -/

variable {source other : DiscoveredSource} {sources : List DiscoveredSource}

/-- Without a collision, two sources of one module are a Python file and a stub in one root. -/
theorem pair_of_sameModule {roots : List PathBuf} (h : detectModuleCollisions sources roots = [])
    (hsource : source ∈ sources) (hother : other ∈ sources) (hne : source ≠ other)
    (hmodule : source.logicalModule = other.logicalModule) :
    ((source.kind = .python ∧ other.kind = .stub) ∨ (source.kind = .stub ∧ other.kind = .python))
      ∧ source.root = other.root := by
  have hnone : moduleCollision sources roots source.logicalModule = none := by
    have hmem := (exists_mem_dedupBy_sortBy id
      (sources.map DiscoveredSource.logicalModule) source.logicalModule).2
        ⟨_, List.mem_map.2 ⟨source, hsource, rfl⟩, rfl⟩
    rcases hmem with ⟨name, hname, hsame⟩
    rw [← show name = source.logicalModule from hsame]
    exact List.filterMap_eq_nil_iff.1 h name hname
  have hin : source ∈ sources.filter fun s => s.logicalModule = source.logicalModule :=
    List.mem_filter.2 ⟨hsource, decide_eq_true rfl⟩
  have hotherIn : other ∈ sources.filter fun s => s.logicalModule = source.logicalModule :=
    List.mem_filter.2 ⟨hother, decide_eq_true hmodule.symm⟩
  have hallows : allowsRuntimeWithStubPair
      (sources.filter fun s => s.logicalModule = source.logicalModule) = true := by
    unfold moduleCollision at hnone
    dsimp only at hnone
    split at hnone
    · -- fewer than two sources cannot be two different ones
      rename_i hfew
      exfalso
      rcases hgroup : sources.filter fun s => s.logicalModule = source.logicalModule with
        _ | ⟨first, _ | ⟨second, rest⟩⟩
      · rw [hgroup] at hin
        exact absurd hin List.not_mem_nil
      · rw [hgroup, List.mem_singleton] at hin hotherIn
        exact hne (hin.trans hotherIn.symm)
      · rw [hgroup, List.length_cons, List.length_cons] at hfew
        omega
    · split at hnone
      · cases hnone
      · rename_i hfree
        rw [Bool.or_eq_true, not_or] at hfree
        simpa using hfree.2
  revert hin hotherIn hallows
  generalize sources.filter (fun s => s.logicalModule = source.logicalModule) = group
  intro hin hotherIn hallows
  unfold allowsRuntimeWithStubPair at hallows
  split at hallows
  · rename_i first second
    simp only [Bool.and_eq_true, Bool.or_eq_true, decide_eq_true_eq] at hallows
    rw [List.mem_pair] at hin hotherIn
    rcases hin with rfl | rfl <;> rcases hotherIn with rfl | rfl
    · exact absurd rfl hne
    · exact hallows
    · exact ⟨hallows.1.symm.imp And.symm And.symm, hallows.2.symm⟩
    · exact absurd rfl hne
  · cases hallows

/-! ## Places -/

/-- The directory and the stem of a source, and the places they give. -/
structure Sited (config : Config) (source : DiscoveredSource) (directory : PathBuf)
    (stem : String) : Prop where
  nonempty : stem ≠ ""
  path : source.path = directory ++ [.normal (stem ++ "." ++ suffixOf source.kind)]
  key : moduleKey config source.path = outDirectory config directory ++ [.normal stem]
  placed : ∀ ext ≠ "", placed config source.path ext = config.resolveRelativePath config.outDir
    ++ (outDirectory config directory ++ [.normal (stem ++ "." ++ ext)])

variable {config : Config}

theorem Discovered.sited (h : Discovered config source)
    (hplanned : ∃ relative, relativeModulePath config source.path = .ok relative) :
    ∃ directory stem, Sited config source directory stem := by
  rcases hplanned with ⟨relative, hrelative⟩
  rcases h.located with ⟨directory, stem, hlocated⟩
  rcases hlocated.places (h.curDir_not_mem hlocated) hrelative with ⟨hkey, hplaced⟩
  exact ⟨_, stem, hlocated.nonempty, hlocated.path_eq, hkey, hplaced⟩

variable {directory : PathBuf} {stem : String}

theorem Sited.withExtension (h : Sited config source directory stem) :
    PathBuf.withExtension source.path "pyi" = directory ++ [.normal (stem ++ "." ++ "pyi")] := by
  rw [h.path, PathBuf.withExtension_of h.nonempty (dot_not_mem_suffix _)]
  rfl

variable {otherDirectory : PathBuf} {otherStem : String}

/-- Files are in one place when they have one key and one suffix. -/
theorem Sited.placed_eq_iff {ext otherExt : String} (h : Sited config source directory stem)
    (hother : Sited config other otherDirectory otherStem) (hne : ext ≠ "")
    (hotherNe : otherExt ≠ "") (hext : '.' ∉ ext.toList) (hotherExt : '.' ∉ otherExt.toList) :
    Emit.placed config source.path ext = Emit.placed config other.path otherExt
      ↔ moduleKey config source.path = moduleKey config other.path ∧ ext = otherExt := by
  rw [h.placed ext hne, hother.placed otherExt hotherNe, h.key, hother.key]
  constructor
  · intro hsame
    have hbelow := List.append_cancel_left hsame
    have hlast := List.append_inj_right' hbelow rfl
    have hname := Component.normal.inj (List.cons.inj hlast).1
    have hsplit := congrArg PathBuf.splitName hname
    rw [PathBuf.splitName_of h.nonempty hext, PathBuf.splitName_of hother.nonempty hotherExt]
      at hsplit
    rcases Prod.mk.inj hsplit with ⟨hstem, hsuffix⟩
    rw [List.append_inj_left' hbelow rfl, hstem]
    exact ⟨rfl, Option.some.inj hsuffix⟩
  · rintro ⟨hsame, rfl⟩
    have hlast := List.append_inj_right' hsame rfl
    have hstem := Component.normal.inj (List.cons.inj hlast).1
    rw [List.append_inj_left' hsame rfl, hstem]

/-! ## One source -/

/-- The plan with one more source, in the terms of its places. -/
def planAt (config : Config) (plan : EmitPlan) (source : DiscoveredSource) : EmitPlan :=
  let runtimePath := placed config source.path "py"
  let stubPath := placed config source.path "pyi"
  let key := moduleKey config source.path
  match source.kind with
  | .typePython =>
    { plan with
      artifacts := plan.artifacts ++ [{
        sourcePath := source.path
        runtimePath := some runtimePath
        stubPath := if config.emitPyi then some stubPath else none }] }
  | .python =>
    match plan.pairedByModule.lookup key with
    | some index =>
      plan.change index fun artifact =>
        { artifact with sourcePath := source.path, runtimePath := some runtimePath }
    | none =>
      plan.push key
        { sourcePath := source.path, runtimePath := some runtimePath, stubPath := none }
  | .stub =>
    match plan.pairedByModule.lookup key with
    | some index => plan.change index fun artifact => { artifact with stubPath := some stubPath }
    | none =>
      plan.push key { sourcePath := source.path, runtimePath := none, stubPath := some stubPath }

theorem withExtension_append {relative : PathBuf} {extension : String}
    (h : relative ≠ []) (path : PathBuf) :
    PathBuf.withExtension (path ++ relative) extension
      = path ++ PathBuf.withExtension relative extension := by
  rcases List.eq_nil_or_concat relative with hnil | ⟨before, last, rfl⟩
  · exact absurd hnil h
  · rw [List.concat_eq_append, ← List.append_assoc]
    cases last <;>
      simp [PathBuf.withExtension, PathBuf.fileStem, PathBuf.fileName, List.append_assoc]

/-- Where the code puts a source is its place. -/
theorem planSource_eq {relative : PathBuf} (hdisc : Discovered config source)
    (h : relativeModulePath config source.path = .ok relative) (plan : EmitPlan) :
    planSource config plan (planned source) relative = planAt config plan source := by
  rcases hdisc.located with ⟨directory, stem, hlocated⟩
  have hshape := h
  rw [hlocated.path_eq] at hshape
  rcases relativeModulePath_ok (hdisc.curDir_not_mem hlocated) hshape with ⟨hrelative, hnormal, -⟩
  have hne : relative ≠ [] := by simp [hrelative]
  have hafter : ∀ ext, PathBuf.withExtension
      (PathBuf.join (config.resolveRelativePath config.outDir) relative) ext
        = placed config source.path ext := by
    intro ext
    rw [join_of_isNormal hnormal, withExtension_append hne, placed, h]
  have hwithNormal : ∀ ext, (PathBuf.withExtension relative ext).all Component.isNormal = true := by
    intro ext
    rw [hrelative, List.all_append, Bool.and_eq_true] at hnormal
    rw [hrelative, PathBuf.withExtension_of hlocated.nonempty (dot_not_mem_suffix _),
      List.all_append, hnormal.1]
    rfl
  have hbefore : ∀ ext, PathBuf.join (config.resolveRelativePath config.outDir)
      (PathBuf.withExtension relative ext) = placed config source.path ext := by
    intro ext
    rw [join_of_isNormal (hwithNormal ext), placed, h]
  have hkey : PathBuf.withExtension relative "" = moduleKey config source.path := by
    rw [moduleKey, h]
  rw [planSource, planAt]
  simp only [hafter, hbefore, hkey, planned] <;> rfl

/-- The whole plan, in the terms of the places. -/
theorem planFrom_eq (sources : List DiscoveredSource)
    (hdisc : ∀ source ∈ sources, Discovered config source)
    (h : ∀ source ∈ sources, ∃ relative, relativeModulePath config source.path = .ok relative)
    (plan : EmitPlan) :
    planFrom config plan (sources.map planned) = .ok (sources.foldl (planAt config) plan) := by
  induction sources generalizing plan with
  | nil => rfl
  | cons source rest ih =>
    rcases h source List.mem_cons_self with ⟨relative, hrelative⟩
    have hrest := ih (fun s hs => hdisc s (List.mem_cons_of_mem _ hs))
      (fun s hs => h s (List.mem_cons_of_mem _ hs))
    rw [List.map_cons, planFrom, show (planned source).sourcePath = source.path from rfl,
      hrelative, List.foldl_cons, ← hrest,
      ← planSource_eq (hdisc source List.mem_cons_self) hrelative]
    rfl

variable {plan : EmitPlan}

/-- A plan that is made has a path for every source. -/
theorem relative_of_planFrom (sources : List DiscoveredSource) {final : EmitPlan}
    (h : planFrom config plan (sources.map planned) = .ok final) :
    ∀ source ∈ sources, ∃ relative, relativeModulePath config source.path = .ok relative := by
  induction sources generalizing plan with
  | nil => exact fun _ hmem => absurd hmem List.not_mem_nil
  | cons source rest ih =>
    rw [List.map_cons, planFrom] at h
    rcases hrelative : relativeModulePath config (planned source).sourcePath with _ | relative
    · rw [hrelative] at h
      cases h
    · rw [hrelative] at h
      intro s hs
      rcases List.mem_cons.1 hs with rfl | hrest
      · exact ⟨relative, hrelative⟩
      · exact ih h s hrest

/-! ## Soundness -/

/-- An artifact has the places of a source. -/
structure FromSource (config : Config) (source : DiscoveredSource) (artifact : EmitArtifact) :
    Prop where
  sourcePath : artifact.sourcePath = source.path
  runtimePath : ∀ path ∈ artifact.runtimePath, path = placed config source.path "py"
  stubPath : ∀ path ∈ artifact.stubPath, path = placed config source.path "pyi"

structure Sound (config : Config) (done : List DiscoveredSource) (plan : EmitPlan) : Prop where
  artifact : ∀ artifact ∈ plan.artifacts, ∃ source ∈ done, FromSource config source artifact
  paired : ∀ key index, plan.pairedByModule.lookup key = some index →
    ∃ artifact, plan.artifacts[index]? = some artifact
      ∧ moduleKey config artifact.sourcePath = key

/-- The artifact of a source that stands alone. -/
def freshArtifact (config : Config) (source : DiscoveredSource) : EmitArtifact where
  sourcePath := source.path
  runtimePath := if source.kind = .stub then none else some (placed config source.path "py")
  stubPath :=
    if source.kind = .stub || (source.kind = .typePython && config.emitPyi) then
      some (placed config source.path "pyi")
    else none

/-- The artifact of the other file of a pair, with the source's own file. -/
def renewedArtifact (config : Config) (source : DiscoveredSource) (artifact : EmitArtifact) :
    EmitArtifact :=
  if source.kind = .stub then { artifact with stubPath := some (placed config source.path "pyi") }
  else
    { artifact with
      sourcePath := source.path
      runtimePath := some (placed config source.path "py") }

/-- What one source can do to a plan. -/
inductive PlanStep (config : Config) (plan : EmitPlan) (source : DiscoveredSource) :
    EmitPlan → Prop
  | alone (hkind : source.kind = .typePython) : PlanStep config plan source
      { plan with artifacts := plan.artifacts ++ [freshArtifact config source] }
  | opens (hkind : source.kind ≠ .typePython)
      (hnone : plan.pairedByModule.lookup (moduleKey config source.path) = none) :
      PlanStep config plan source
        (plan.push (moduleKey config source.path) (freshArtifact config source))
  | joins (hkind : source.kind ≠ .typePython) (before : List EmitArtifact)
      (artifact : EmitArtifact) (after : List EmitArtifact)
      (hartifacts : plan.artifacts = before ++ artifact :: after)
      (hkey : moduleKey config artifact.sourcePath = moduleKey config source.path) :
      PlanStep config plan source
        { plan with artifacts := before ++ renewedArtifact config source artifact :: after }

variable {done : List DiscoveredSource}

theorem planStep_of_some {index : Nat} (hsound : Sound config done plan)
    (hkind : source.kind ≠ .typePython)
    (hlookup : plan.pairedByModule.lookup (moduleKey config source.path) = some index) :
    PlanStep config plan source (plan.change index (renewedArtifact config source)) := by
  rcases hsound.paired _ index hlookup with ⟨artifact, hat, hkey⟩
  rcases List.getElem?_eq_some_iff.1 hat with ⟨hlt, hget⟩
  rcases List.exists_of_modify (renewedArtifact config source) hlt with
    ⟨before, found, after, hshape, hlength, hmodify⟩
  have hfound : found = artifact := by
    have hsome : plan.artifacts[index]? = some found := by
      rw [hshape, ← hlength, List.getElem?_append_right (Nat.le_refl _), Nat.sub_self]
      rfl
    exact Option.some.inj (hsome.symm.trans hat)
  rw [EmitPlan.change, hmodify, hfound]
  rw [hfound] at hshape
  exact .joins hkind before artifact after hshape hkey

theorem planAt_step (source : DiscoveredSource) (hsound : Sound config done plan) :
    PlanStep config plan source (planAt config plan source) := by
  cases hkind : source.kind with
  | typePython =>
    have hplan : planAt config plan source
        = { plan with artifacts := plan.artifacts ++ [freshArtifact config source] } := by
      simp only [planAt, freshArtifact, hkind]
      cases config.emitPyi <;> rfl
    rw [hplan]
    exact .alone hkind
  | python =>
    have hne : source.kind ≠ .typePython := by simp [hkind]
    cases hlookup : plan.pairedByModule.lookup (moduleKey config source.path) with
    | none =>
      have hplan : planAt config plan source
          = plan.push (moduleKey config source.path) (freshArtifact config source) := by
        simp [planAt, freshArtifact, hkind, hlookup]
      rw [hplan]
      exact .opens hne hlookup
    | some index =>
      have hplan : planAt config plan source
          = plan.change index (renewedArtifact config source) := by
        simp only [planAt, hkind, hlookup]
        congr 1
        funext artifact
        simp [renewedArtifact, hkind]
      rw [hplan]
      exact planStep_of_some hsound hne hlookup
  | stub =>
    have hne : source.kind ≠ .typePython := by simp [hkind]
    cases hlookup : plan.pairedByModule.lookup (moduleKey config source.path) with
    | none =>
      have hplan : planAt config plan source
          = plan.push (moduleKey config source.path) (freshArtifact config source) := by
        simp [planAt, freshArtifact, hkind, hlookup]
      rw [hplan]
      exact .opens hne hlookup
    | some index =>
      have hplan : planAt config plan source
          = plan.change index (renewedArtifact config source) := by
        simp only [planAt, hkind, hlookup]
        congr 1
        funext artifact
        simp [renewedArtifact, hkind]
      rw [hplan]
      exact planStep_of_some hsound hne hlookup

theorem freshArtifact_fromSource (config : Config) (source : DiscoveredSource) :
    FromSource config source (freshArtifact config source) where
  sourcePath := rfl
  runtimePath := by
    intro path hpath
    rw [freshArtifact] at hpath
    split at hpath
    · cases hpath
    · exact (Option.some.inj hpath).symm
  stubPath := by
    intro path hpath
    rw [freshArtifact] at hpath
    dsimp only at hpath
    split at hpath
    · exact (Option.some.inj hpath).symm
    · cases hpath

/-- Sources with one key have one place for each kind of file. -/
def SameFiles (config : Config) (source other : DiscoveredSource) : Prop :=
  moduleKey config source.path = moduleKey config other.path →
    ∀ ext ∈ ["py", "pyi"], placed config source.path ext = placed config other.path ext

theorem Sited.sameFiles (h : Sited config source directory stem)
    (hother : Sited config other otherDirectory otherStem) : SameFiles config source other := by
  intro hkey ext hext
  rw [List.mem_pair] at hext
  rcases hext with rfl | rfl
  · exact (h.placed_eq_iff hother (by decide) (by decide) (by decide) (by decide)).2 ⟨hkey, rfl⟩
  · exact (h.placed_eq_iff hother (by decide) (by decide) (by decide) (by decide)).2 ⟨hkey, rfl⟩

variable {artifact : EmitArtifact}

/-- A renewed artifact is that of the source or of the other file of the pair. -/
theorem renewedArtifact_fromSource (hsame : SameFiles config source other)
    (hfrom : FromSource config other artifact)
    (hkey : moduleKey config artifact.sourcePath = moduleKey config source.path) :
    FromSource config (if source.kind = .stub then other else source)
      (renewedArtifact config source artifact) := by
  rw [hfrom.sourcePath] at hkey
  have hplaces := hsame hkey.symm
  rw [renewedArtifact]
  split
  · refine ⟨hfrom.sourcePath, hfrom.runtimePath, ?_⟩
    intro path hpath
    rw [← Option.some.inj hpath]
    exact hplaces "pyi" (by simp)
  · refine ⟨rfl, ?_, ?_⟩
    · intro path hpath
      exact (Option.some.inj hpath).symm
    · intro path hpath
      rw [hplaces "pyi" (by simp)]
      exact hfrom.stubPath path hpath

theorem moduleKey_renewedArtifact
    (hkey : moduleKey config artifact.sourcePath = moduleKey config source.path) :
    moduleKey config (renewedArtifact config source artifact).sourcePath
      = moduleKey config artifact.sourcePath := by
  rw [renewedArtifact]
  split
  · rfl
  · exact hkey.symm

/-- A step keeps a plan sound. -/
theorem Sound.step {next : EmitPlan} (h : Sound config done plan)
    (hsame : ∀ other ∈ done, SameFiles config source other)
    (hstep : PlanStep config plan source next) : Sound config (done ++ [source]) next := by
  have hkept : ∀ artifact ∈ plan.artifacts,
      ∃ s ∈ done ++ [source], FromSource config s artifact := by
    intro artifact hmem
    rcases h.artifact artifact hmem with ⟨s, hs, hfrom⟩
    exact ⟨s, List.mem_append_left _ hs, hfrom⟩
  have hfresh : ∃ s ∈ done ++ [source], FromSource config s (freshArtifact config source) :=
    ⟨source, by simp, freshArtifact_fromSource config source⟩
  have hpairedAppend : ∀ key index, plan.pairedByModule.lookup key = some index →
      ∃ artifact, (plan.artifacts ++ [freshArtifact config source])[index]? = some artifact
        ∧ moduleKey config artifact.sourcePath = key := by
    intro key index hlookup
    rcases h.paired key index hlookup with ⟨artifact, hat, hkey⟩
    refine ⟨artifact, ?_, hkey⟩
    rw [List.getElem?_append_left (List.getElem?_eq_some_iff.1 hat).1]
    exact hat
  cases hstep with
  | alone hkind =>
    constructor
    · intro artifact hmem
      rcases List.mem_append.1 hmem with hold | hnew
      · exact hkept artifact hold
      · rw [List.mem_singleton.1 hnew]
        exact hfresh
    · exact hpairedAppend
  | opens hkind hnone =>
    constructor
    · intro artifact hmem
      rcases List.mem_append.1 hmem with hold | hnew
      · exact hkept artifact hold
      · rw [List.mem_singleton.1 hnew]
        exact hfresh
    · intro key index hlookup
      simp only [EmitPlan.push, List.lookup_cons] at hlookup
      split at hlookup
      · rename_i hsameKey
        have hindex := Option.some.inj hlookup
        subst hindex
        refine ⟨freshArtifact config source, ?_, (beq_iff_eq.1 hsameKey).symm⟩
        simp [EmitPlan.push]
      · exact hpairedAppend key index hlookup
  | joins hkind before artifact after hartifacts hkey =>
    have hmid : artifact ∈ plan.artifacts := by simp [hartifacts]
    constructor
    · intro other hmem
      rw [List.mem_append, List.mem_cons] at hmem
      rcases hmem with hold | rfl | hold
      · exact hkept other (by simp [hartifacts, hold])
      · rcases h.artifact artifact hmid with ⟨s, hs, hfrom⟩
        refine ⟨_, ?_, renewedArtifact_fromSource (hsame s hs) hfrom hkey⟩
        split
        · exact List.mem_append_left _ hs
        · simp
      · exact hkept other (by simp [hartifacts, hold])
    · intro key index hlookup
      rcases h.paired key index hlookup with ⟨found, hat, hfound⟩
      rw [hartifacts] at hat
      -- only the artifact in the middle changes, and it keeps its key
      rcases Nat.lt_trichotomy index before.length with hlt | heq | hgt
      · refine ⟨found, ?_, hfound⟩
        rw [List.getElem?_append_left hlt] at hat ⊢
        exact hat
      · rw [heq, List.getElem?_append_right (Nat.le_refl _), Nat.sub_self] at hat
        have hsameArtifact : artifact = found := Option.some.inj hat
        refine ⟨renewedArtifact config source artifact, ?_, ?_⟩
        · dsimp only
          rw [heq, List.getElem?_append_right (Nat.le_refl _), Nat.sub_self]
          rfl
        · rw [moduleKey_renewedArtifact hkey, hsameArtifact, hfound]
      · refine ⟨found, ?_, hfound⟩
        rw [List.getElem?_append_right (Nat.le_of_lt hgt)] at hat ⊢
        have hpos : index - before.length = (index - before.length - 1) + 1 := by omega
        rw [hpos, List.getElem?_cons_succ] at hat ⊢
        exact hat

/-- Every plan of placed sources is sound. -/
theorem sound_foldl (rest : List DiscoveredSource) (h : Sound config done plan)
    (hsame : ∀ source ∈ rest, ∀ other ∈ done ++ rest, SameFiles config source other) :
    Sound config (done ++ rest) (rest.foldl (planAt config) plan) := by
  induction rest generalizing done plan with
  | nil =>
    rw [List.append_nil]
    exact h
  | cons source rest ih =>
    have hfirst := hsame source List.mem_cons_self
    have hstep := h.step (fun other hmem => hfirst other (List.mem_append_left _ hmem))
      (planAt_step source h)
    have hrest := ih hstep fun s hs other hmem =>
      hsame s (List.mem_cons_of_mem _ hs) other (by simpa using hmem)
    rwa [List.append_assoc, List.singleton_append] at hrest

/-! ## Sources that lie alike -/

/-- Files that may be one artifact: a Python file and the stub beside it. -/
inductive Partners : DiscoveredSource → DiscoveredSource → Prop
  | stubOf {source other : DiscoveredSource} (hsource : source.kind = .python)
      (hother : other.kind = .stub)
      (hbeside : PathBuf.withExtension source.path "pyi" = other.path) : Partners source other
  | pythonOf {source other : DiscoveredSource} (hsource : source.kind = .stub)
      (hother : other.kind = .python)
      (hbeside : PathBuf.withExtension other.path "pyi" = source.path) : Partners source other

/-- When the sources lie alike, one key means one module, so the sources are partners. -/
theorem partners_of_sameKey (hdisc : ∀ source ∈ sources, Discovered config source)
    (hcollisions : detectModuleCollisions sources (sourceRoots config) = [])
    (hlies : ∀ source ∈ sources, LiesAlike config source) (hsource : source ∈ sources)
    (hother : other ∈ sources) (hne : source ≠ other)
    (hkey : moduleKey config source.path = moduleKey config other.path) :
    Partners source other := by
  rcases (hdisc source hsource).located with ⟨directory, stem, hlocated⟩
  rcases (hdisc other hother).located with ⟨otherDirectory, otherStem, hotherLocated⟩
  have hcurDir := (hdisc source hsource).curDir_not_mem hlocated
  have hotherCurDir := (hdisc other hother).curDir_not_mem hotherLocated
  rcases hlocated.planned hcurDir (hlies source hsource) with ⟨relative, hrelative⟩
  rcases hotherLocated.planned hotherCurDir (hlies other hother) with
    ⟨otherRelative, hotherRelative⟩
  have hout := (hlocated.outDirectory_iff hcurDir hrelative).2 (hlies source hsource)
  have hotherOut :=
    (hotherLocated.outDirectory_iff hotherCurDir hotherRelative).2 (hlies other hother)
  rw [(hlocated.places hcurDir hrelative).1, hout,
    (hotherLocated.places hotherCurDir hotherRelative).1, hotherOut] at hkey
  have hdirectory : directory = otherDirectory := List.append_inj_left' hkey rfl
  have hstem : stem = otherStem :=
    Component.normal.inj (List.cons.inj (List.append_inj_right' hkey rfl)).1
  subst hdirectory
  subst hstem
  have hmodule : source.logicalModule = other.logicalModule := by
    rw [(hlocated.logicalModule (hdisc source hsource)).1,
      (hotherLocated.logicalModule (hdisc other hother)).1]
  have hbeside : ∀ {python stub : DiscoveredSource}, Located python directory stem →
      Located stub directory stem → stub.kind = .stub → python.root = stub.root →
      PathBuf.withExtension python.path "pyi" = stub.path := by
    intro python stub hpython hstub hkind hroot
    rw [hpython.path_eq, hstub.path_eq, hroot,
      PathBuf.withExtension_of hpython.nonempty (dot_not_mem_suffix _), hkind]
    rfl
  rcases pair_of_sameModule hcollisions hsource hother hne hmodule with
    ⟨⟨hpython, hstub⟩ | ⟨hstub, hpython⟩, hroot⟩
  · exact .stubOf hpython hstub (hbeside hlocated hotherLocated hstub hroot)
  · exact .pythonOf hstub hpython (hbeside hotherLocated hlocated hstub hroot.symm)

theorem isOrigin_freshArtifact (config : Config) (source : DiscoveredSource) :
    IsOrigin config source (freshArtifact config source) := by
  cases hkind : source.kind with
  | typePython => simp [IsOrigin, freshArtifact, hkind]
  | python => simp [IsOrigin, freshArtifact, hkind]
  | stub => simp [IsOrigin, freshArtifact, hkind]

/-- The artifact of a partner becomes the source's too. -/
theorem isOrigin_renewedArtifact (hpartners : Partners source other)
    (hfrom : FromSource config other artifact) :
    IsOrigin config source (renewedArtifact config source artifact) := by
  cases hpartners with
  | stubOf hsource hother hbeside => simp [IsOrigin, renewedArtifact, hsource]
  | pythonOf hsource hother hbeside =>
    simp [IsOrigin, renewedArtifact, hsource, hfrom.sourcePath, hbeside]

/-- What was the artifact of a partner stays it. -/
theorem isOrigin_renewedArtifact_partner (hpartners : Partners source other)
    (horigin : IsOrigin config other artifact) :
    IsOrigin config other (renewedArtifact config source artifact) := by
  cases hpartners with
  | stubOf hsource hother hbeside =>
    simp only [IsOrigin, hother] at horigin
    simp [IsOrigin, renewedArtifact, hsource, hother, hbeside, horigin.2]
  | pythonOf hsource hother hbeside =>
    simp only [IsOrigin, hother] at horigin
    simp [IsOrigin, renewedArtifact, hsource, hother, horigin]

/-- An artifact has the key of the sources it is the artifact of. -/
theorem IsOrigin.key (horigin : IsOrigin config source artifact)
    (hfrom : FromSource config other artifact) (hsited : Sited config source directory stem)
    (hotherSited : Sited config other otherDirectory otherStem) :
    moduleKey config artifact.sourcePath = moduleKey config source.path := by
  have hsame : artifact.sourcePath = source.path →
      moduleKey config artifact.sourcePath = moduleKey config source.path := fun h => by rw [h]
  cases hkind : source.kind with
  | typePython =>
    simp only [IsOrigin, hkind] at horigin
    exact hsame horigin.1
  | python =>
    simp only [IsOrigin, hkind] at horigin
    exact hsame horigin.1
  | stub =>
    simp only [IsOrigin, hkind] at horigin
    rcases horigin.1 with hpath | hbeside
    · exact hsame hpath
    · -- the stub stands beside the file of the artifact
      have hpath := hsited.path
      rw [hkind, ← hbeside, hfrom.sourcePath, hotherSited.withExtension] at hpath
      have hdirectory := List.append_inj_left' hpath rfl
      have hname := Component.normal.inj (List.cons.inj (List.append_inj_right' hpath rfl)).1
      have hsplit := congrArg PathBuf.splitName hname
      rw [PathBuf.splitName_of hotherSited.nonempty (by decide),
        PathBuf.splitName_of hsited.nonempty (dot_not_mem_suffix _)] at hsplit
      rw [hfrom.sourcePath, hotherSited.key, hsited.key, hdirectory, (Prod.mk.inj hsplit).1]

structure KeptApart (config : Config) (done : List DiscoveredSource) (plan : EmitPlan) : Prop where
  sound : Sound config done plan
  origin : ∀ source ∈ done, ∃ artifact ∈ plan.artifacts, IsOrigin config source artifact
  keys : (plan.artifacts.map fun artifact => moduleKey config artifact.sourcePath).Nodup
  known : ∀ source ∈ done, source.kind ≠ .typePython →
    (plan.pairedByModule.lookup (moduleKey config source.path)).isSome

/-- The keys stay apart when a source that has none of them is added. -/
theorem KeptApart.keys_fresh (h : KeptApart config done plan)
    (hnew : ∀ other ∈ done, moduleKey config source.path ≠ moduleKey config other.path) :
    ((plan.artifacts ++ [freshArtifact config source]).map fun artifact =>
      moduleKey config artifact.sourcePath).Nodup := by
  rw [List.map_append, List.nodup_append]
  refine ⟨h.keys, List.nodup_singleton _, ?_⟩
  intro key hkey otherKey hother hsame
  rcases List.mem_map.1 hkey with ⟨artifact, hartifact, rfl⟩
  rcases h.sound.artifact artifact hartifact with ⟨other, hmem, hfrom⟩
  rw [List.map_singleton, List.mem_singleton] at hother
  apply hnew other hmem
  rw [← hfrom.sourcePath, hsame, hother]
  rfl

/-- A step keeps the sources apart. -/
theorem KeptApart.step {next : EmitPlan} (h : KeptApart config done plan)
    (hsited : ∀ s ∈ done ++ [source], ∃ directory stem, Sited config s directory stem)
    (hpartners : ∀ other ∈ done,
      moduleKey config source.path = moduleKey config other.path → Partners source other)
    (hstep : PlanStep config plan source next) : KeptApart config (done ++ [source]) next := by
  rcases hsited source (by simp) with ⟨directory, stem, hsource⟩
  have hsame : ∀ other ∈ done, SameFiles config source other := by
    intro other hmem
    rcases hsited other (List.mem_append_left _ hmem) with ⟨_, _, hother⟩
    exact hsource.sameFiles hother
  have hsound := h.sound.step hsame hstep
  have horiginAppend : ∀ s ∈ done ++ [source],
      ∃ artifact ∈ plan.artifacts ++ [freshArtifact config source], IsOrigin config s artifact := by
    intro s hs
    rcases List.mem_append.1 hs with hold | hnew
    · rcases h.origin s hold with ⟨artifact, hmem, horigin⟩
      exact ⟨artifact, List.mem_append_left _ hmem, horigin⟩
    · rw [List.mem_singleton.1 hnew]
      exact ⟨freshArtifact config source, by simp, isOrigin_freshArtifact config source⟩
  cases hstep with
  | alone hkind =>
    refine ⟨hsound, horiginAppend, ?_, ?_⟩
    · apply h.keys_fresh
      intro other hmem hkey
      -- a TypePython source has no partner
      cases hpartners other hmem hkey with
      | stubOf hpython => simp [hkind] at hpython
      | pythonOf hstub => simp [hkind] at hstub
    · intro s hs hnot
      rcases List.mem_append.1 hs with hold | hnew
      · exact h.known s hold hnot
      · rw [List.mem_singleton.1 hnew] at hnot
        exact absurd hkind hnot
  | opens hkind hnone =>
    refine ⟨hsound, horiginAppend, ?_, ?_⟩
    · apply h.keys_fresh
      intro other hmem hkey
      -- a partner would be known
      have hnot : other.kind ≠ .typePython := by
        cases hpartners other hmem hkey with
        | stubOf hpython hstub => simp [hstub]
        | pythonOf hstub hpython => simp [hpython]
      have hknown := h.known other hmem hnot
      rw [← hkey, hnone] at hknown
      cases hknown
    · intro s hs hnot
      simp only [EmitPlan.push, List.lookup_cons]
      split
      · rfl
      · rename_i hother
        rcases List.mem_append.1 hs with hold | hnew
        · exact h.known s hold hnot
        · rw [List.mem_singleton.1 hnew, beq_self_eq_true] at hother
          cases hother
  | joins hkind before artifact after hartifacts hkey =>
    have hmid : artifact ∈ plan.artifacts := by simp [hartifacts]
    rcases h.sound.artifact artifact hmid with ⟨partner, hpartner, hfrom⟩
    have hkeys := h.keys
    rw [hartifacts, List.map_append, List.map_cons] at hkeys
    refine ⟨hsound, ?_, ?_, ?_⟩
    · intro s hs
      rcases List.mem_append.1 hs with hold | hnew
      · rcases h.origin s hold with ⟨found, hmem, horigin⟩
        rw [hartifacts, List.mem_append, List.mem_cons] at hmem
        rcases hmem with hfirst | rfl | hlast
        · exact ⟨found, by simp [hfirst], horigin⟩
        · -- the changed artifact is that of partners only
          rcases hsited s (List.mem_append_left _ hold) with ⟨_, _, hs⟩
          rcases hsited partner (List.mem_append_left _ hpartner) with ⟨_, _, hpartnerSited⟩
          have hkeyOf := horigin.key hfrom hs hpartnerSited
          have hpartnersOf := hpartners s hold (hkey.symm.trans hkeyOf)
          exact ⟨renewedArtifact config source found, by simp,
            isOrigin_renewedArtifact_partner hpartnersOf horigin⟩
        · exact ⟨found, by simp [hlast], horigin⟩
      · rw [List.mem_singleton.1 hnew]
        rw [hfrom.sourcePath] at hkey
        exact ⟨renewedArtifact config source artifact, by simp,
          isOrigin_renewedArtifact (hpartners partner hpartner hkey.symm) hfrom⟩
    · dsimp only
      rw [List.map_append, List.map_cons, moduleKey_renewedArtifact hkey]
      exact hkeys
    · intro s hs hnot
      rcases List.mem_append.1 hs with hold | hnew
      · exact h.known s hold hnot
      · have hsomePartner : partner.kind ≠ .typePython := by
          rw [hfrom.sourcePath] at hkey
          cases hpartners partner hpartner hkey.symm with
          | stubOf hpython hstub => simp [hstub]
          | pythonOf hstub hpython => simp [hpython]
        have hknown := h.known partner hpartner hsomePartner
        rw [List.mem_singleton.1 hnew, ← hkey, hfrom.sourcePath]
        exact hknown

/-- All steps keep the sources apart. -/
theorem apart_foldl (rest : List DiscoveredSource) (h : KeptApart config done plan)
    (hsited : ∀ s ∈ done ++ rest, ∃ directory stem, Sited config s directory stem)
    (hnodup : (done ++ rest).Nodup)
    (hpartners : ∀ source ∈ done ++ rest, ∀ other ∈ done ++ rest, source ≠ other →
      moduleKey config source.path = moduleKey config other.path → Partners source other) :
    KeptApart config (done ++ rest) (rest.foldl (planAt config) plan) := by
  induction rest generalizing done plan with
  | nil =>
    rw [List.append_nil]
    exact h
  | cons source rest ih =>
    have hsplit : done ++ source :: rest = (done ++ [source]) ++ rest := by simp
    have hnew : source ∉ done := by
      intro hmem
      exact (List.nodup_append.1 hnodup).2.2 source hmem source List.mem_cons_self rfl
    have hstep := h.step
      (fun s hs => hsited s (by rw [hsplit]; exact List.mem_append_left _ hs))
      (fun other hmem => hpartners source (by simp) other (List.mem_append_left _ hmem)
        (fun hsame => hnew (hsame ▸ hmem)))
      (planAt_step source h.sound)
    rw [hsplit] at hsited hnodup hpartners ⊢
    exact ih hstep hsited hnodup hpartners

/-- Artifacts with different keys have different files. -/
theorem KeptApart.distinct (h : KeptApart config sources plan)
    (hsited : ∀ s ∈ sources, ∃ directory stem, Sited config s directory stem) :
    (plan.artifacts.flatMap outputs).Nodup := by
  have hplaced : ∀ artifact ∈ plan.artifacts, ∀ output ∈ outputs artifact, ∃ source ∈ sources,
      artifact.sourcePath = source.path
        ∧ ∃ ext ∈ ["py", "pyi"], output = placed config source.path ext := by
    intro artifact hmem output houtput
    rcases h.sound.artifact artifact hmem with ⟨source, hsource, hfrom⟩
    refine ⟨source, hsource, hfrom.sourcePath, ?_⟩
    rcases List.mem_append.1 houtput with hruntime | hstub
    · exact ⟨"py", by simp, hfrom.runtimePath output (Option.mem_toList.1 hruntime)⟩
    · exact ⟨"pyi", by simp, hfrom.stubPath output (Option.mem_toList.1 hstub)⟩
  have hnoDot : ∀ ext ∈ ["py", "pyi"], ext ≠ "" ∧ '.' ∉ ext.toList := by decide
  rw [List.nodup_flatMap]
  constructor
  · intro artifact hmem
    rcases h.sound.artifact artifact hmem with ⟨source, hsource, hfrom⟩
    rcases hsited source hsource with ⟨directory, stem, hsite⟩
    rw [outputs, List.nodup_append]
    refine ⟨?_, ?_, ?_⟩
    · cases artifact.runtimePath <;> simp
    · cases artifact.stubPath <;> simp
    · intro runtime hruntime stub hstub hsame
      rw [hfrom.runtimePath runtime (Option.mem_toList.1 hruntime),
        hfrom.stubPath stub (Option.mem_toList.1 hstub)] at hsame
      have hext := ((hsite.placed_eq_iff hsite (by decide) (by decide) (by decide)
        (by decide)).1 hsame).2
      exact absurd hext (by decide)
  · apply (List.pairwise_map.1 h.keys).imp_of_mem
    intro artifact other hmem hotherMem hne output houtput hotherOutput
    rcases hplaced artifact hmem output houtput with ⟨source, hsource, hpath, ext, hext, hplace⟩
    rcases hplaced other hotherMem output hotherOutput with
      ⟨otherSource, hotherSource, hotherPath, otherExt, hotherExt, hotherPlace⟩
    rcases hsited source hsource with ⟨_, _, hsite⟩
    rcases hsited otherSource hotherSource with ⟨_, _, hotherSite⟩
    apply hne
    rw [hpath, hotherPath]
    exact ((hsite.placed_eq_iff hotherSite (hnoDot ext hext).1 (hnoDot _ hotherExt).1
      (hnoDot ext hext).2 (hnoDot _ hotherExt).2).1 (hplace.symm.trans hotherPlace)).1

/-- A file of an artifact spells the module of a source of the artifact when the source lies
alike. -/
theorem spells_iff {output : PathBuf} (hdisc : Discovered config source)
    (hplanned : ∃ relative, relativeModulePath config source.path = .ok relative)
    (hsited : ∃ directory stem, Sited config other directory stem)
    (horigin : IsOrigin config source artifact) (hfrom : FromSource config other artifact)
    (houtput : output ∈ outputs artifact) :
    Spells config output source.logicalModule ↔ LiesAlike config source := by
  rcases hplanned with ⟨relative, hrelative⟩
  rcases hdisc.located with ⟨directory, stem, hlocated⟩
  rcases hlocated.places (hdisc.curDir_not_mem hlocated) hrelative with ⟨hkey, hplaced⟩
  have hsite : Sited config source (source.root ++ directory) stem :=
    ⟨hlocated.nonempty, hlocated.path_eq, hkey, hplaced⟩
  rcases hsited with ⟨otherDirectory, otherStem, hotherSite⟩
  have hkeys := horigin.key hfrom hsite hotherSite
  rw [hfrom.sourcePath] at hkeys
  have hsame := hotherSite.sameFiles hsite hkeys
  have hplace : ∃ ext ∈ ["py", "pyi"], output = placed config source.path ext := by
    rcases List.mem_append.1 houtput with hruntime | hstub
    · refine ⟨"py", by simp, ?_⟩
      rw [← hsame "py" (by simp)]
      exact hfrom.runtimePath output (Option.mem_toList.1 hruntime)
    · refine ⟨"pyi", by simp, ?_⟩
      rw [← hsame "pyi" (by simp)]
      exact hfrom.stubPath output (Option.mem_toList.1 hstub)
  have hnoDot : ∀ ext ∈ ["py", "pyi"], ext ≠ "" ∧ '.' ∉ ext.toList := by decide
  rcases hplace with ⟨ext, hext, rfl⟩
  rw [hplaced ext (hnoDot ext hext).1, ← hlocated.spelled_iff hdisc hrelative (hnoDot ext hext).2]
  constructor
  · rintro ⟨below, hbelow, hspelled⟩
    rw [List.append_cancel_left hbelow]
    exact hspelled
  · intro hspelled
    exact ⟨_, rfl, hspelled⟩

theorem IsOrigin.outputs_ne_nil (h : IsOrigin config source artifact) :
    ∃ output, output ∈ outputs artifact := by
  have hruntime : artifact.runtimePath.isSome → ∃ output, output ∈ outputs artifact := by
    intro hsome
    rcases Option.isSome_iff_exists.1 hsome with ⟨output, houtput⟩
    exact ⟨output, List.mem_append_left _ (Option.mem_toList.2 houtput)⟩
  have hstub : artifact.stubPath.isSome → ∃ output, output ∈ outputs artifact := by
    intro hsome
    rcases Option.isSome_iff_exists.1 hsome with ⟨output, houtput⟩
    exact ⟨output, List.mem_append_right _ (Option.mem_toList.2 houtput)⟩
  unfold IsOrigin at h
  split at h
  · exact hruntime h.2.1
  · exact hruntime h.2
  · exact hstub h.2

theorem sound_nil (config : Config) : Sound config [] {} where
  artifact := fun _ hmem => absurd hmem List.not_mem_nil
  paired := fun _ _ hlookup => by cases hlookup

theorem apart_nil (config : Config) : KeptApart config [] {} where
  sound := sound_nil config
  origin := fun _ hmem => absurd hmem List.not_mem_nil
  keys := List.nodup_nil
  known := fun _ hmem => absurd hmem List.not_mem_nil

/-- The plan keeps the modules apart when, and only when, every source lies alike. -/
theorem planEmits_keepsApart_iff {config : Config} {sources : List DiscoveredSource}
    (hdisc : ∀ source ∈ sources, Discovered config source) (hset : sources.Nodup)
    (hcollisions : detectModuleCollisions sources (sourceRoots config) = []) :
    (∃ artifacts, planEmitsForSources config (sources.map planned) = .ok artifacts
        ∧ KeepsApart config sources artifacts)
      ↔ ∀ source ∈ sources, LiesAlike config source := by
  constructor
  · rintro ⟨artifacts, hplan, hkeeps⟩ source hsource
    rcases hfrom : planFrom config {} (sources.map planned) with _ | final
    · rw [planEmitsForSources, hfrom] at hplan
      cases hplan
    · have hplanned := relative_of_planFrom sources hfrom
      have hsited : ∀ s ∈ sources, ∃ directory stem, Sited config s directory stem :=
        fun s hs => (hdisc s hs).sited (hplanned s hs)
      rw [planEmitsForSources, planFrom_eq sources hdisc hplanned] at hplan
      have hartifacts := Except.ok.inj hplan
      have hsound := sound_foldl sources (sound_nil config) fun s hs other hother => by
        rcases hsited s hs with ⟨_, _, hsite⟩
        rcases hsited other hother with ⟨_, _, hotherSite⟩
        exact hsite.sameFiles hotherSite
      rcases hkeeps.origin source hsource with ⟨artifact, hmem, horigin⟩
      rcases horigin.outputs_ne_nil with ⟨output, houtput⟩
      rcases hsound.artifact artifact (by rw [hartifacts]; exact hmem) with
        ⟨other, hother, hfromOther⟩
      exact (spells_iff (hdisc source hsource) (hplanned source hsource) (hsited other hother)
        horigin hfromOther houtput).1 (hkeeps.spelled artifact hmem source hsource horigin _ houtput)
  · intro hlies
    have hplanned : ∀ source ∈ sources,
        ∃ relative, relativeModulePath config source.path = .ok relative := by
      intro source hsource
      rcases (hdisc source hsource).located with ⟨directory, stem, hlocated⟩
      exact hlocated.planned ((hdisc source hsource).curDir_not_mem hlocated) (hlies source hsource)
    have hsited : ∀ s ∈ sources, ∃ directory stem, Sited config s directory stem :=
      fun s hs => (hdisc s hs).sited (hplanned s hs)
    have hapart := apart_foldl sources (apart_nil config) hsited hset
      fun source hsource other hother hne => partners_of_sameKey hdisc hcollisions hlies hsource
        hother hne
    refine ⟨_, by rw [planEmitsForSources, planFrom_eq sources hdisc hplanned]; rfl, ?_⟩
    have hspelled : ∀ artifact ∈ (sources.foldl (planAt config) {}).artifacts, ∀ source ∈ sources,
        IsOrigin config source artifact →
          ∀ output ∈ outputs artifact, Spells config output source.logicalModule := by
      intro artifact hmem source hsource horigin output houtput
      rcases hapart.sound.artifact artifact hmem with ⟨other, hother, hfrom⟩
      exact (spells_iff (hdisc source hsource) (hplanned source hsource) (hsited other hother)
        horigin hfrom houtput).2 (hlies source hsource)
    refine ⟨hapart.origin, ?_, hapart.distinct hsited, hspelled⟩
    intro artifact hmem
    -- the artifact of its source is the only one with its key
    rcases hapart.sound.artifact artifact hmem with ⟨source, hsource, hfrom⟩
    rcases hapart.origin source hsource with ⟨found, hfound, horigin⟩
    rcases hapart.sound.artifact found hfound with ⟨other, hother, hfromOther⟩
    rcases hsited source hsource with ⟨_, _, hsite⟩
    rcases hsited other hother with ⟨_, _, hotherSite⟩
    have hkey := horigin.key hfromOther hsite hotherSite
    rw [← hfrom.sourcePath] at hkey
    rw [← List.inj_on_of_nodup_map hapart.keys hfound hmem hkey]
    exact ⟨source, hsource, horigin⟩

/-! ## Two roots -/

/-- `src` and `lib` are source roots, and `src` is the root of the project. -/
def twoRoots : Config where
  configDir := [.rootDir, .normal "work"]
  src := [[.normal "src"], [.normal "lib"]]
  rootDir := [.normal "src"]
  outDir := [.normal "out"]
  emitPyi := true

def fileOf (root : String) (names : List String) (kind : SourceKind) (logicalModule : String) :
    DiscoveredSource where
  path := [.rootDir, .normal "work", .normal root] ++ names.map .normal
  root := [.rootDir, .normal "work", .normal root]
  kind := kind
  logicalModule := logicalModule

/-- Packages of the root outside of the project's. -/
def packagesOutside : List DiscoveredSource :=
  [fileOf "lib" ["a", "x.py"] .python "a.x", fileOf "lib" ["b", "x.py"] .python "b.x"]

/-- Both files go to `out/x.py`, and the second one takes the artifact of the first. -/
theorem packagesOutside_not_keptApart :
    (∀ source ∈ packagesOutside, Discovered twoRoots source) ∧ packagesOutside.Nodup
      ∧ detectModuleCollisions packagesOutside (sourceRoots twoRoots) = []
      ∧ ¬ ∃ artifacts, planEmitsForSources twoRoots (packagesOutside.map planned) = .ok artifacts
        ∧ KeepsApart twoRoots packagesOutside artifacts := by
  refine ⟨?_, by decide +kernel, ?_, ?_⟩
  · intro source hsource
    rcases List.mem_pair.1 hsource with rfl | rfl
    · exact ⟨by decide +kernel, ⟨[.normal "a"], "x.py", by decide +kernel, by decide +kernel⟩,
        by decide +kernel, by decide +kernel⟩
    · exact ⟨by decide +kernel, ⟨[.normal "b"], "x.py", by decide +kernel, by decide +kernel⟩,
        by decide +kernel, by decide +kernel⟩
  · apply List.eq_nil_of_length_eq_zero
    decide +kernel
  · rintro ⟨artifacts, hplan, hkeeps⟩
    have hpaths : (planEmitsForSources twoRoots (packagesOutside.map planned)).toOption.map
        (List.map EmitArtifact.sourcePath)
          = some [[.rootDir, .normal "work", .normal "lib", .normal "b", .normal "x.py"]] := by
      decide +kernel
    rw [hplan] at hpaths
    have hsources := Option.some.inj hpaths
    rcases hkeeps.origin _ List.mem_cons_self with ⟨artifact, hmem, horigin⟩
    have hpath := List.mem_map_of_mem (f := EmitArtifact.sourcePath) hmem
    rw [hsources, List.mem_singleton, horigin.1] at hpath
    exact absurd hpath (by decide)

/-- A Python file with its stub below the root of the project, and a module at the top of the
other one. -/
def filesAlike : List DiscoveredSource :=
  [fileOf "src" ["a", "x.py"] .python "a.x", fileOf "src" ["a", "x.pyi"] .stub "a.x",
    fileOf "lib" ["y.tpy"] .typePython "y"]

theorem filesAlike_keptApart :
    ∃ artifacts, planEmitsForSources twoRoots (filesAlike.map planned) = .ok artifacts
      ∧ KeepsApart twoRoots filesAlike artifacts := by
  apply (planEmits_keepsApart_iff ?_ ?_ ?_).2
  · decide +kernel
  · intro source hsource
    simp only [filesAlike, List.mem_cons, List.not_mem_nil, or_false] at hsource
    rcases hsource with rfl | rfl | rfl
    · exact ⟨by decide +kernel, ⟨[.normal "a"], "x.py", by decide +kernel, by decide +kernel⟩,
        by decide +kernel, by decide +kernel⟩
    · exact ⟨by decide +kernel, ⟨[.normal "a"], "x.pyi", by decide +kernel, by decide +kernel⟩,
        by decide +kernel, by decide +kernel⟩
    · exact ⟨by decide +kernel, ⟨[], "y.tpy", by decide +kernel, by decide +kernel⟩,
        by decide +kernel, by decide +kernel⟩
  · decide +kernel
  · apply List.eq_nil_of_length_eq_zero
    decide +kernel

end TypePython.Emit
