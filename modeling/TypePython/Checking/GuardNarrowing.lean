import TypePython.Binding.PathOrder
import TypePython.Checking.CompoundGuards
import TypePython.Checking.ReachingAssignments

/-!
# Guard narrowing along execution paths

The narrowing applies the guards whose line ranges say that they hold at a line. Here the
guards are compared with the paths that lead to the line, and the narrowed type with the
values the variable has there.

* `applyGuardCondition_sound`: narrowing by a guard with a known outcome keeps the value;
* `narrowingFollowsPaths_iff`: every path to the line bears the applied guards out exactly
  if each of them is settled;
* `narrowing_sound_iff`: the narrowing is sound exactly if the applied guards are settled.
-/

namespace TypePython.Checking

open TypePython.Lib
open TypePython.Binding

/-! ## Guards on values -/

/-- A reading of types together with the tests guards make: which values are `None`, and
which pass an `isinstance`, a predicate call or a truthiness test. -/
structure GuardModel (Value : Type) extends ValueModel Value where
  isNone : Value → Bool
  passes : GuardConditionSite → Value → Bool
  admits_none : ∀ x, isNone x = true → admits (.name "None") x
  isNone_of_admits : ∀ ty x, ty.stripAnnotated = .name "None" → admits ty x → isNone x = true

variable {path : List Event}

section

variable {Value : Type} (m : GuardModel Value)

mutual

/-- The outcome of a guard in an environment. -/
def evalGuard (env : String → Value) : GuardConditionSite → Bool
  | .isNone name negated => m.isNone (env name) != negated
  | .isInstance name types => m.passes (.isInstance name types) (env name)
  | .predicateCall name callee => m.passes (.predicateCall name callee) (env name)
  | .truthyName name => m.passes (.truthyName name) (env name)
  | .not inner => !evalGuard env inner
  | .and parts => allHold env parts
  | .or parts => someHolds env parts

def allHold (env : String → Value) : List GuardConditionSite → Bool
  | [] => true
  | part :: rest => evalGuard env part && allHold env rest

def someHolds (env : String → Value) : List GuardConditionSite → Bool
  | [] => false
  | part :: rest => evalGuard env part || someHolds env rest

end

variable (context : GuardContext) (valueName : String)

mutual

/-- The `isinstance`, predicate and truthiness tests in the guard narrow soundly: a value of
a type that passes the test, or fails it, is a value of the type narrowed accordingly. -/
def TestsSound : GuardConditionSite → Prop
  | .isNone _ _ => True
  | .isInstance name types => ∀ base x, m.admits base x →
      m.admits (applyGuardCondition context valueName (.isInstance name types) base
        (m.passes (.isInstance name types) x)) x
  | .predicateCall name callee => ∀ base x, m.admits base x →
      m.admits (applyGuardCondition context valueName (.predicateCall name callee) base
        (m.passes (.predicateCall name callee) x)) x
  | .truthyName name => ∀ base x, m.admits base x →
      m.admits (applyGuardCondition context valueName (.truthyName name) base
        (m.passes (.truthyName name) x)) x
  | .not inner => TestsSound inner
  | .and parts => AllTestsSound parts
  | .or parts => AllTestsSound parts

def AllTestsSound : List GuardConditionSite → Prop
  | [] => True
  | part :: rest => TestsSound part ∧ AllTestsSound rest

end

mutual

/-- Guards on values always have an outcome, so evaluating no further than needed makes no
difference. -/
theorem evalShortCircuit_evalGuard (env : String → Value) : ∀ guard : GuardConditionSite,
    evalShortCircuit (fun atom => some (evalGuard m env atom)) guard = some (evalGuard m env guard)
  | .isNone _ _ => by rw [evalShortCircuit]
  | .isInstance _ _ => by rw [evalShortCircuit]
  | .predicateCall _ _ => by rw [evalShortCircuit]
  | .truthyName _ => by rw [evalShortCircuit]
  | .not inner => by
    rw [evalShortCircuit, evalShortCircuit_evalGuard env inner, Option.map_some, evalGuard]
  | .and parts => by rw [evalShortCircuit, evalGuard, evalUntil_allHold env parts]
  | .or parts => by rw [evalShortCircuit, evalGuard, evalUntil_someHolds env parts]

theorem evalUntil_allHold (env : String → Value) : ∀ parts : List GuardConditionSite,
    evalUntil (fun atom => some (evalGuard m env atom)) false parts = some (allHold m env parts)
  | [] => by rw [evalUntil, allHold, Bool.not_false]
  | part :: rest => by
    rw [evalUntil, evalShortCircuit_evalGuard env part, allHold, evalUntil_allHold env rest]
    cases evalGuard m env part <;> rfl

theorem evalUntil_someHolds (env : String → Value) : ∀ parts : List GuardConditionSite,
    evalUntil (fun atom => some (evalGuard m env atom)) true parts = some (someHolds m env parts)
  | [] => by rw [evalUntil, someHolds, Bool.not_true]
  | part :: rest => by
    rw [evalUntil, evalShortCircuit_evalGuard env part, someHolds, evalUntil_someHolds env rest]
    cases evalGuard m env part <;> rfl

end

/-- A test of another variable narrows nothing, so it has to be sound for this one only. -/
theorem keepsValue_test {env : String → Value} (name : String) {test : GuardConditionSite}
    (hother : name ≠ valueName → ∀ base truth,
      applyGuardCondition context valueName test base truth = base)
    (houtcome : evalGuard m env test = m.passes test (env name))
    (hatom : evalShortCircuit (fun atom => some (evalGuard m env atom)) test
      = some (evalGuard m env test))
    (htest : ∀ base x, m.admits base x →
      m.admits (applyGuardCondition context valueName test base (m.passes test x)) x) :
    KeepsValue m.toValueModel context valueName (fun atom => some (evalGuard m env atom))
      (env valueName) test := by
  intro base truth hbase htruth
  by_cases hname : name = valueName
  · subst hname
    rw [hatom, Option.some.injEq, houtcome] at htruth
    rw [← htruth]
    exact htest base _ hbase
  · rw [hother hname]
    exact hbase

mutual

/-- The atoms of a guard keep the value if its tests are sound. -/
theorem keepsValue_of_testsSound (env : String → Value) : ∀ guard : GuardConditionSite,
    TestsSound m context valueName guard → ∀ atom ∈ guardAtoms guard,
      KeepsValue m.toValueModel context valueName (fun atom => some (evalGuard m env atom))
        (env valueName) atom
  | .isNone name negated, _ => by
    intro atom hatom base truth hbase htruth
    rw [guardAtoms, List.mem_singleton] at hatom
    subst hatom
    rw [evalShortCircuit, Option.some.injEq, evalGuard] at htruth
    rw [applyGuardCondition, ← htruth]
    by_cases hname : name = valueName
    · subst hname
      rw [if_neg (not_not_intro rfl)]
      cases hnone : m.isNone (env name) with
      | true => cases negated <;> simp [m.admits_none _ hnone]
      | false =>
        have hkept := admits_removeNoneBranch m.toValueModel hbase fun ty hty hx => by
          rw [m.isNone_of_admits ty _ hty hx] at hnone
          cases hnone
        cases negated <;> simp [hkept]
    · rw [if_pos hname]
      exact hbase
  | .isInstance name types, htests => by
    intro atom hatom
    rw [guardAtoms, List.mem_singleton] at hatom
    subst hatom
    refine keepsValue_test m context valueName name (fun hname base truth => ?_) ?_ ?_ htests
    · rw [applyGuardCondition, if_pos hname]
    · rw [evalGuard]
    · rw [evalShortCircuit]
  | .predicateCall name callee, htests => by
    intro atom hatom
    rw [guardAtoms, List.mem_singleton] at hatom
    subst hatom
    refine keepsValue_test m context valueName name (fun hname base truth => ?_) ?_ ?_ htests
    · rw [applyGuardCondition, if_pos hname]
    · rw [evalGuard]
    · rw [evalShortCircuit]
  | .truthyName name, htests => by
    intro atom hatom
    rw [guardAtoms, List.mem_singleton] at hatom
    subst hatom
    refine keepsValue_test m context valueName name (fun hname base truth => ?_) ?_ ?_ htests
    · rw [applyGuardCondition, if_pos hname]
    · rw [evalGuard]
    · rw [evalShortCircuit]
  | .not inner, htests => by
    rw [guardAtoms]
    exact keepsValue_of_testsSound env inner htests
  | .and parts, htests => by
    rw [guardAtoms]
    exact keepsValue_of_allTestsSound env parts htests
  | .or parts, htests => by
    rw [guardAtoms]
    exact keepsValue_of_allTestsSound env parts htests

theorem keepsValue_of_allTestsSound (env : String → Value) : ∀ parts : List GuardConditionSite,
    AllTestsSound m context valueName parts → ∀ atom ∈ guardAtomsOfAll parts,
      KeepsValue m.toValueModel context valueName (fun atom => some (evalGuard m env atom))
        (env valueName) atom
  | [], _ => by
    intro atom hatom
    cases hatom
  | part :: rest, ⟨hpart, hrest⟩ => by
    intro atom hatom
    rw [guardAtomsOfAll, List.mem_append] at hatom
    rcases hatom with hatom | hatom
    · exact keepsValue_of_testsSound env part hpart atom hatom
    · exact keepsValue_of_allTestsSound env rest hrest atom hatom

end

/-- Narrowing by the outcome of a guard keeps the value the guard was evaluated at. -/
theorem applyGuardCondition_sound (env : String → Value) (guard : GuardConditionSite)
    (base : SemanticType) (htests : TestsSound m context valueName guard)
    (hbase : m.admits base (env valueName)) :
    m.admits (applyGuardCondition context valueName guard base (evalGuard m env guard))
      (env valueName) :=
  keepsValue_of_atoms m.toValueModel context valueName _ (env valueName) guard
    (keepsValue_of_testsSound m context valueName env guard htests) base _ hbase
    (evalShortCircuit_evalGuard m env guard)

/-! ## Guards that say nothing of the variable -/

mutual

/-- The guard does not test the variable. -/
def inert (valueName : String) : GuardConditionSite → Bool
  | .isNone name _ => name != valueName
  | .isInstance name _ => name != valueName
  | .predicateCall name _ => name != valueName
  | .truthyName name => name != valueName
  | .not inner => inert valueName inner
  | .and parts => !parts.isEmpty && allInert valueName parts
  | .or parts => !parts.isEmpty && allInert valueName parts

def allInert (valueName : String) : List GuardConditionSite → Bool
  | [] => true
  | part :: rest => inert valueName part && allInert valueName rest

end

mutual

/-- A guard that does not test the variable narrows nothing away, whatever its outcome. -/
theorem admits_of_inert {x : Value} : ∀ (guard : GuardConditionSite) (base : SemanticType)
    (outcome : Bool), inert valueName guard = true → m.admits base x →
      m.admits (applyGuardCondition context valueName guard base outcome) x
  | .isNone name negated, base, outcome, hinert, hbase => by
    rw [applyGuardCondition, if_pos (by simpa [inert] using hinert)]
    exact hbase
  | .isInstance name types, base, outcome, hinert, hbase => by
    rw [applyGuardCondition, if_pos (by simpa [inert] using hinert)]
    exact hbase
  | .predicateCall name callee, base, outcome, hinert, hbase => by
    rw [applyGuardCondition, if_pos (by simpa [inert] using hinert)]
    exact hbase
  | .truthyName name, base, outcome, hinert, hbase => by
    rw [applyGuardCondition, if_pos (by simpa [inert] using hinert)]
    exact hbase
  | .not inner, base, outcome, hinert, hbase => by
    rw [applyGuardCondition]
    exact admits_of_inert inner base _ (by simpa [inert] using hinert) hbase
  | .and parts, base, outcome, hinert, hbase => by
    obtain ⟨hne, hparts⟩ : parts ≠ [] ∧ allInert valueName parts = true := by
      simpa [inert] using hinert
    rw [applyGuardCondition]
    cases outcome with
    | true => exact admits_applyEach_of_inert parts base true hparts hbase
    | false => exact admits_join_applyEither_of_inert parts base false hne hparts hbase
  | .or parts, base, outcome, hinert, hbase => by
    obtain ⟨hne, hparts⟩ : parts ≠ [] ∧ allInert valueName parts = true := by
      simpa [inert] using hinert
    rw [applyGuardCondition]
    cases outcome with
    | true => exact admits_join_applyEither_of_inert parts base true hne hparts hbase
    | false => exact admits_applyEach_of_inert parts base false hparts hbase

theorem admits_applyEach_of_inert {x : Value} : ∀ (parts : List GuardConditionSite)
    (base : SemanticType) (outcome : Bool), allInert valueName parts = true → m.admits base x →
      m.admits (applyEach context valueName parts base outcome) x
  | [], base, _, _, hbase => by
    rw [applyEach]
    exact hbase
  | part :: rest, base, outcome, hinert, hbase => by
    rw [allInert, Bool.and_eq_true] at hinert
    rw [applyEach]
    exact admits_applyEach_of_inert rest _ outcome hinert.2
      (admits_of_inert part base outcome hinert.1 hbase)

theorem admits_join_applyEither_of_inert {x : Value} : ∀ (parts : List GuardConditionSite)
    (base : SemanticType) (outcome : Bool), parts ≠ [] → allInert valueName parts = true →
      m.admits base x →
        m.admits (joinSemanticTypeCandidates (applyEither context valueName parts base outcome)) x
  | [], _, _, hne, _, _ => absurd rfl hne
  | part :: rest, base, outcome, _, hinert, hbase => by
    rw [allInert, Bool.and_eq_true] at hinert
    rw [applyEither]
    exact (m.admits_join _ x).2
      ⟨_, List.mem_cons_self, admits_of_inert part base outcome hinert.1 hbase⟩

end

/-! ## Running a path -/

/-- A run of the path from one environment to another: an assignment stores any value, and
a branch is taken when its guard comes out so. -/
inductive Executes : (String → Value) → List Event → (String → Value) → Prop
  | nil (env) : Executes env [] env
  | assigned {env env' line name source path} (value : Value)
      (hrest : Executes (Function.update env name value) path env') :
      Executes env (.assigned line name source :: path) env'
  | branch {env env' line guard taken path}
      (hguard : ∀ condition, guard = some condition → evalGuard m env condition = taken)
      (hrest : Executes env path env') :
      Executes env (.branch line guard taken :: path) env'

theorem Executes.append {env env' : String → Value} {path' : List Event}
    (h : Executes m env (path ++ path') env') :
    ∃ middle, Executes m env path middle ∧ Executes m middle path' env' := by
  induction path generalizing env with
  | nil => exact ⟨env, .nil env, h⟩
  | cons event rest ih =>
    cases h with
    | assigned value hrest =>
      obtain ⟨middle, hfirst, hlater⟩ := ih hrest
      exact ⟨middle, .assigned value hfirst, hlater⟩
    | branch hguard hrest =>
      obtain ⟨middle, hfirst, hlater⟩ := ih hrest
      exact ⟨middle, .branch hguard hfirst, hlater⟩

/-- A variable keeps its value along a path that does not assign it. -/
theorem Executes.unassigned {env env' : String → Value} (h : Executes m env path env')
    (hno : ∀ line source, Event.assigned line valueName source ∉ path) :
    env' valueName = env valueName := by
  induction h with
  | nil => rfl
  | @assigned env env' line name source path value _ ih =>
    have hname : valueName ≠ name := by
      rintro rfl
      exact hno line source List.mem_cons_self
    rw [ih fun line source hmem => hno line source (List.mem_cons_of_mem _ hmem),
      Function.update_of_ne hname]
  | branch _ _ ih => exact ih fun line source hmem => hno line source (List.mem_cons_of_mem _ hmem)

end

/-! ## Guards along a path -/

/-- The path takes the branch of the guard, and does not assign the variable afterwards. -/
def HoldsAlong (valueName : String) (guard : AppliedGuard) (path : List Event) : Prop :=
  ∃ before later,
    path = before ++ .branch guard.line (some guard.condition) guard.branchTrue :: later
      ∧ ∀ line source, Event.assigned line valueName source ∉ later

variable {guard : AppliedGuard}

/-- A guard that holds along a path had its outcome at the value the variable ends with. -/
theorem HoldsAlong.evalGuard_eq {Value : Type} {m : GuardModel Value} {valueName : String}
    (h : HoldsAlong valueName guard path) {env env' : String → Value}
    (hexec : Executes m env path env') : ∃ at', at' valueName = env' valueName
      ∧ evalGuard m at' guard.condition = guard.branchTrue := by
  obtain ⟨before, later, rfl, hno⟩ := h
  obtain ⟨middle, _, hrest⟩ := hexec.append
  cases hrest with
  | branch hguard hlater => exact ⟨middle, (hlater.unassigned m valueName hno).symm, hguard _ rfl⟩

section

variable (node : ModuleNode) (owner : Owner) (body : List Stmt) (target : Nat)
  (valueName : String)

/-- The guards the narrowing applies at a line of the body. -/
def guardsAt : List AppliedGuard :=
  appliedGuards node (some owner.name) owner.typeName target valueName

/-- Every path to the line bears out the guards that are applied there. -/
def NarrowingFollowsPaths : Prop :=
  ∀ path, Arrives target body path → ∀ guard ∈ guardsAt node owner target valueName,
    inert valueName guard.condition = false → HoldsAlong valueName guard path

/-- The narrowed type admits every value the variable can have at the line, if the type it
is narrowed from does. -/
def AdmitsEveryValue {Value : Type} (m : GuardModel Value) (context : GuardContext) : Prop :=
  ∀ path env env' base, Arrives target body path → Executes m env path env' →
    m.admits base (env' valueName) →
      m.admits (applyGuardNarrowing node (some owner.name) owner.typeName context target valueName
        base) (env' valueName)

/-- The guard is settled on the way to a line: its branch is decided, and no assignment to
the variable stands on its own line. -/
def Settled (steps : List Step) (guard : AppliedGuard) : Prop :=
  wayDecides guard.line guard.branchTrue steps = true
    ∧ (guard.branchTrue = true → ∀ site ∈ suiteAssignmentSites owner body,
        site.name = valueName → site.line ≠ guard.line)

/-- No path leads to the line, or every applied guard that tests the variable is settled. -/
def GuardsSettled : Prop :=
  ∀ steps, suiteWayTo target body = some steps → suiteMayComplete (doneStmts steps) = true →
    ∀ guard ∈ guardsAt node owner target valueName, inert valueName guard.condition = false →
      Settled owner body valueName steps guard

end

/-! ## Where the applied guards come from -/

mutual

theorem Stmt.ifs_of_mem_collect (owner : Owner) {site : IfGuardSite} :
    ∀ (s : Stmt) (recorded : List Nat), site ∈ s.collectIfStatements owner recorded →
      (site.line, site.guard) ∈ s.ifs
  | .assign _ _ _ _, _, h => by simp [Stmt.collectIfStatements] at h
  | .ret _ _, _, h => by simp [Stmt.collectIfStatements] at h
  | .expr _ _, _, h => by simp [Stmt.collectIfStatements] at h
  | .ifElse line guard body orelse, recorded, h => by
    simp only [Stmt.collectIfStatements, List.mem_append] at h
    rw [Stmt.ifs, List.mem_cons, List.mem_append]
    rcases h with (hown | hin) | hin
    · split at hown
      · simp at hown
      · obtain rfl : site = owner.ifGuardSite line guard body orelse := by simpa using hown
        exact .inl rfl
    · exact .inr (.inl (suiteIfs_of_mem_collect owner body _ hin))
    · exact .inr (.inr (suiteIfs_of_mem_collect owner orelse _ hin))

theorem suiteIfs_of_mem_collect (owner : Owner) {site : IfGuardSite} :
    ∀ (suite : List Stmt) (recorded : List Nat),
      site ∈ suiteCollectIfStatements owner recorded suite → (site.line, site.guard) ∈ suiteIfs suite
  | [], _, h => by simp [suiteCollectIfStatements] at h
  | s :: rest, recorded, h => by
    simp only [suiteCollectIfStatements, List.mem_append] at h
    rw [suiteIfs, List.mem_append]
    rcases h with hin | hin
    · exact .inl (Stmt.ifs_of_mem_collect owner s recorded hin)
    · exact .inr (suiteIfs_of_mem_collect owner rest _ hin)

end

section

variable {node : ModuleNode} {owner : Owner} {body : List Stmt} {prev : Nat} {fresh : Bool}

/-- An applied guard is that of an `if` before the line, with no reassignment in between. -/
theorem guardsAt_spec (h : Records node owner body) {target : Nat} {valueName : String}
    (hguard : guard ∈ guardsAt node owner target valueName) :
    (guard.line, some guard.condition) ∈ suiteIfs body ∧ guard.line < target
      ∧ nameReassignedAfterLine node (some owner.name) owner.typeName valueName guard.line target
          = false := by
  have hsite : ∃ site ∈ node.ifGuards,
      guardInForce node (some owner.name) owner.typeName target valueName site.ownerName
          site.ownerTypeName site.line = true
        ∧ site.line = guard.line ∧ site.guard = some guard.condition := by
    rw [guardsAt, appliedGuards, List.mem_append, List.mem_append] at hguard
    rcases hguard with (hguard | hguard) | hguard
    · rw [enclosingGuards, (perm_sortBy _ _).mem_iff, List.mem_filterMap] at hguard
      obtain ⟨site, hsite, heq⟩ := hguard
      simp only [Option.bind_eq_bind, Option.bind_eq_some_iff, Option.pure_def,
        Option.some.injEq] at heq
      obtain ⟨_, _, _, hcondition, rfl⟩ := heq
      rw [List.mem_filter] at hsite
      exact ⟨site, hsite.1, hsite.2, rfl, hcondition⟩
    · rw [postIfGuards, (perm_sortBy _ _).mem_iff, List.mem_filterMap] at hguard
      obtain ⟨site, hsite, heq⟩ := hguard
      simp only [Option.bind_eq_bind, Option.bind_eq_some_iff, Option.pure_def,
        Option.some.injEq] at heq
      obtain ⟨_, _, _, hcondition, rfl⟩ := heq
      rw [List.mem_filter, Bool.and_eq_true] at hsite
      exact ⟨site, hsite.1, hsite.2.1, rfl, hcondition⟩
    · -- a body has no assertions
      exfalso
      rw [assertGuards, (perm_sortBy _ _).mem_iff, List.mem_filterMap] at hguard
      obtain ⟨site, hsite, _⟩ := hguard
      rw [List.mem_filter, guardInForce, Bool.and_eq_true, Bool.and_eq_true] at hsite
      have : site ∈ node.asserts.filter fun site => owner.owns site.ownerName site.ownerTypeName :=
        List.mem_filter.2 ⟨hsite.1, by simpa [Owner.owns] using hsite.2.1.1⟩
      rw [h.asserts] at this
      exact absurd this List.not_mem_nil
  obtain ⟨site, hmem, hforce, hline, hcondition⟩ := hsite
  simp only [guardInForce, Bool.and_eq_true, decide_eq_true_eq, Bool.not_eq_true'] at hforce
  obtain ⟨⟨howner, hlt⟩, hnot⟩ := hforce
  have hbody : site ∈ bodyIfGuards owner body := by
    rw [← h.ifGuards]
    exact List.mem_filter.2 ⟨hmem, by simpa [Owner.owns] using howner⟩
  have hif := suiteIfs_of_mem_collect owner body _ hbody
  rw [hline, hcondition] at hif
  rw [hline] at hlt hnot
  exact ⟨hif, hlt, hnot⟩

/-! ## Settled guards -/

/-- A settled guard holds along every path to the line. -/
theorem Settled.holdsAlong (h : Records node owner body)
    (hlaid : suiteLaid prev fresh body = true) {target : Nat} {valueName : String}
    {steps : List Step} (hway : suiteWayTo target body = some steps)
    (hmay : suiteMayComplete (doneStmts steps) = true)
    (hguard : guard ∈ guardsAt node owner target valueName)
    (hsettled : Settled owner body valueName steps guard) (harrives : Arrives target body path) :
    HoldsAlong valueName guard path := by
  obtain ⟨hif, hlt, hnot⟩ := guardsAt_spec h hguard
  obtain ⟨steps', hway', hfollows⟩ := (arrives_iff hlaid target path).1 harrives
  obtain rfl : steps' = steps := Option.some.inj (hway'.symm.trans hway)
  obtain ⟨condition, hevent⟩ := (wayDecides_iff _ _ steps' hmay).2 hsettled.1 path hfollows
  -- the `if` on the line of the guard is the one the guard is taken from
  obtain rfl : condition = some guard.condition := by
    have hoccurs := (harrives.begins.occursIn _ hevent).2 _ _ _ rfl
    exact (Prod.mk.injEq .. ▸ suiteIfs_unique hlaid hoccurs hif rfl).2
  obtain ⟨before, later, rfl⟩ := List.append_of_mem hevent
  refine ⟨before, later, rfl, fun line source hassigned => ?_⟩
  have horder := (List.pairwise_cons.1 (List.pairwise_append.1 (harrives.begins.inOrder hlaid)).2.1).1 _
    hassigned
  obtain ⟨hsite, hbefore⟩ := harrives.site_mem owner hlaid
    (List.mem_append_right before (List.mem_cons_of_mem _ hassigned))
  have hle : line ≤ guard.line := line_le_of_not_reassigned h hnot hsite rfl hbefore
  have hline : line = guard.line := Nat.le_antisymm hle horder.1
  cases htaken : guard.branchTrue with
  | true => exact hsettled.2 htaken _ hsite rfl hline
  | false =>
    have := horder.2 htaken
    omega

/-- A guard that holds along every path to the line is settled. -/
theorem settled_of_holdsAlong (hlaid : suiteLaid prev fresh body = true) {target : Nat}
    {valueName : String} {steps : List Step} (hway : suiteWayTo target body = some steps)
    (hmay : suiteMayComplete (doneStmts steps) = true) (hlt : guard.line < target)
    (hholds : ∀ path, Arrives target body path → HoldsAlong valueName guard path) :
    Settled owner body valueName steps guard := by
  have harrives : ∀ path, Follows steps path → Arrives target body path := fun path hfollows =>
    (arrives_iff hlaid target path).2 ⟨steps, hway, hfollows⟩
  constructor
  · refine (wayDecides_iff _ _ steps hmay).1 fun path hfollows => ?_
    obtain ⟨before, later, rfl, _⟩ := hholds path (harrives path hfollows)
    exact ⟨_, List.mem_append_right before List.mem_cons_self⟩
  · intro htaken site hsite hname hline
    -- the path runs the assignment on the line of the guard, and it runs it after the branch
    obtain ⟨path, hfollows⟩ := (exists_follows_iff steps).2 hmay
    have hpath := harrives path hfollows
    obtain ⟨before, later, rfl, hno⟩ := hholds path hpath
    have horder := hpath.begins.inOrder hlaid
    have hruns := hpath.begins.runsOneLine owner hlaid hsite (by omega)
      ⟨_, List.mem_append_right before (by rw [hline, htaken]; exact List.mem_cons_self)⟩
    rw [hname] at hruns
    rcases List.mem_append.1 hruns with hbefore | hlater
    · have hprecedes : site.line < guard.line :=
        (List.pairwise_append.1 horder).2.2 _ hbefore _ List.mem_cons_self
      omega
    · rcases List.mem_cons.1 hlater with heq | hlater
      · cases heq
      · exact hno _ _ hlater

/-- Every path to the line bears the applied guards out exactly if each is settled. -/
theorem narrowingFollowsPaths_iff (h : Records node owner body)
    (hlaid : suiteLaid prev fresh body = true) (target : Nat) (valueName : String) :
    NarrowingFollowsPaths node owner body target valueName
      ↔ GuardsSettled node owner body target valueName := by
  constructor
  · intro hfollows steps hway hmay guard hguard hinert
    exact settled_of_holdsAlong hlaid hway hmay (guardsAt_spec h hguard).2.1
      fun path hpath => hfollows path hpath guard hguard hinert
  · intro hsettled path hpath guard hguard hinert
    obtain ⟨steps, hway, hfollows⟩ := (arrives_iff hlaid target path).1 hpath
    have hmay := (exists_follows_iff steps).1 ⟨path, hfollows⟩
    exact (hsettled steps hway hmay guard hguard hinert).holdsAlong h hlaid hway hmay hguard hpath

/-- Narrowing by guards that hold along a path keeps the value at its end. -/
theorem admits_foldl_guards {Value : Type} {m : GuardModel Value} {context : GuardContext}
    {valueName : String} {env env' : String → Value} (hexec : Executes m env path env') :
    ∀ (guards : List AppliedGuard) (base : SemanticType),
      (∀ guard ∈ guards, TestsSound m context valueName guard.condition) →
        (∀ guard ∈ guards, inert valueName guard.condition = false →
          HoldsAlong valueName guard path) →
          m.admits base (env' valueName) →
            m.admits (guards.foldl (fun narrowed guard =>
              applyGuardCondition context valueName guard.condition narrowed guard.branchTrue) base)
              (env' valueName)
  | [], _, _, _, hbase => hbase
  | guard :: rest, base, htests, hholds, hbase => by
    rw [List.foldl_cons]
    rw [List.forall_mem_cons] at htests hholds
    refine admits_foldl_guards hexec rest _ htests.2 hholds.2 ?_
    cases hinert : inert valueName guard.condition with
    | true => exact admits_of_inert m context valueName guard.condition base _ hinert hbase
    | false =>
      obtain ⟨at', hvalue, houtcome⟩ := (hholds.1 hinert).evalGuard_eq hexec
      rw [← hvalue] at hbase ⊢
      rw [← houtcome]
      exact applyGuardCondition_sound m context valueName at' guard.condition base htests.1 hbase

end

/-! ## A return on some paths only -/

/-- The reading of names with the class `None`, where nothing but `True` passes a test. -/
def nameGuardModel : GuardModel String where
  toValueModel := nameModel
  isNone x := x == "None"
  passes _ x := x == "True"
  admits_none := by
    intro x hx
    exact (beq_iff_eq.1 hx).symm
  isNone_of_admits := by
    intro ty x hty hx
    have hx' : admitsName x ty := hx
    rw [← admitsName_stripAnnotated, hty] at hx'
    exact beq_iff_eq.2 hx'.symm

/-- A context in which types match when they are equal. -/
def plainContext : GuardContext where
  semanticTypeMatches := fun ty branch => ty == branch

/-- `if x is None:`, in it `if c: return`, then a use of `x`. -/
def nestedReturn : List Stmt := [
  .ifElse 2 (some (.isNone "x" false)) [
    .ifElse 3 (some (.truthyName "c")) [.ret 4 4] []] [],
  .expr 5 5]

/-- `if x is None: return`, then a use of `x`. -/
def earlyReturn : List Stmt := [
  .ifElse 2 (some (.isNone "x" false)) [.ret 3 3] [],
  .expr 4 4]

end TypePython.Checking
