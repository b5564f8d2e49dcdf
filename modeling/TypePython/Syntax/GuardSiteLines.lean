import TypePython.Lib.FirstOfKeys
import TypePython.Syntax.GuardSites

/-!
# Guard sites and their lines

A collector of guard sites leaves a node out when a statement is recorded for its line. What is
recorded depends on the lines alone (`perm_recorded_iff`), so the sites are those of the tree
exactly when the lines are kept apart (`guardSites_recorded_iff`).
-/

namespace TypePython.Syntax

open TypePython.Lib
open TypePython.Lib.Text

/-! ## Sites -/

/-- The lines of the `unsafe` blocks, which stand in the tree as `if` statements. -/
def unsafeLines (statements : List ExtensionStatement) : List Nat :=
  statements.filterMap fun statement =>
    match statement with
    | .unsafeBlock line => some line
    | _ => none

/-- The records of the `if` statements of a tree. -/
def expectedIfs (unsafeAt : List Nat) (suite : List Stmt) : List IfStatement :=
  ((visits {} suite).filter fun visit => visit.line ∉ unsafeAt).filterMap ifOfVisit

def expectedAsserts (suite : List Stmt) : List AssertStatement :=
  (visits {} suite).filterMap assertOfVisit

def ifOfStatement : SyntaxStatement → Option IfStatement
  | .ifStmt statement => some statement
  | _ => none

def assertOfStatement : SyntaxStatement → Option AssertStatement
  | .assertStmt statement => some statement
  | _ => none

/-- The recorded guard sites are those of the tree, one for one. -/
structure RecordsGuards (unsafeAt : List Nat) (suite : List Stmt)
    (statements : List SyntaxStatement) : Prop where
  ifs : (statements.filterMap ifOfStatement).Perm (expectedIfs unsafeAt suite)
  asserts : (statements.filterMap assertOfStatement).Perm (expectedAsserts suite)

/-! ## Lines that are taken -/

section Taken

variable (extensions : List Nat) (suite : List Stmt)

/-- A statement that is recorded before the `if` statements are stands on the line. -/
def TakenBeforeIfs (line : Nat) : Prop :=
  line ∈ extensions
    ∨ (∃ stmt ∈ suite, stmt.line = line ∧ stmt.line ∉ extensions ∧ statementsOfTopLevel stmt ≠ [])
    ∨ (∃ visit ∈ visits { nestedFirst := true } suite,
        visit.line = line ∧ (extractReturnStatement visit).isSome)
    ∨ ∃ visit ∈ visits { keepsOwner := false } suite,
        visit.line = line ∧ (extractYieldStatement visit).isSome

def Visit.isIf (visit : Visit) : Bool := (ifOfVisit visit).isSome

def Visit.isAssert (visit : Visit) : Bool := (assertOfVisit visit).isSome

/-- Before the `assert` statements, those of the `if` statements and of the declarations in selected
branches are taken too. -/
def TakenBeforeAsserts (options : ParseOptions) (line : Nat) : Prop :=
  TakenBeforeIfs extensions suite line
    ∨ (∃ visit ∈ visits {} suite, visit.line = line ∧ visit.isIf)
    ∨ ∃ stmt ∈ guardedOfSuite options false suite, stmt.line = line
        ∧ (extractAstBackedStatement stmt.line stmt).any isGuardedDeclaration

instance : DecidablePred (TakenBeforeIfs extensions suite) := fun _ =>
  inferInstanceAs (Decidable (_ ∨ _ ∨ _ ∨ _))

instance (options : ParseOptions) : DecidablePred (TakenBeforeAsserts extensions suite options) :=
  fun _ => inferInstanceAs (Decidable (_ ∨ _ ∨ _))

end Taken

/-- The lines of the guard sites are kept apart from those of other statements. A site of the module
itself is always recorded; it only must not stand on the line of an extension statement. -/
structure GuardsApart (options : ParseOptions) (statements : List ExtensionStatement)
    (suite : List Stmt) : Prop where
  topIfs : ∀ visit ∈ visits {} suite, visit.topLevel → visit.isIf →
    (visit.line ∈ (retainedStatements options suite statements).map statementLine
      ↔ visit.line ∈ unsafeLines statements)
  nestedIfs : ∀ visit ∈ visits {} suite, ¬visit.topLevel → visit.isIf →
    (TakenBeforeIfs ((retainedStatements options suite statements).map statementLine) suite
        visit.line
      ↔ visit.line ∈ unsafeLines statements)
  ifLines : (((visits {} suite).filter fun visit =>
    !visit.topLevel && visit.isIf && visit.line ∉ unsafeLines statements).map Visit.line).Nodup
  topAsserts : ∀ visit ∈ visits {} suite, visit.topLevel → visit.isAssert →
    visit.line ∉ (retainedStatements options suite statements).map statementLine
  nestedAsserts : ∀ visit ∈ visits {} suite, ¬visit.topLevel → visit.isAssert →
    ¬ TakenBeforeAsserts ((retainedStatements options suite statements).map statementLine) suite
        options visit.line
  assertLines : (((visits {} suite).filter fun visit =>
    !visit.topLevel && visit.isAssert).map Visit.line).Nodup

/-! ## What is recorded depends on the lines -/

section Recorded

variable {ρ : Type} {record : Visit → Option ρ} {lineOf : ρ → Nat}

theorem map_filterMap_record (hline : ∀ visit made, record visit = some made → lineOf made = visit.line)
    {items : List Visit} (hsome : ∀ visit ∈ items, (record visit).isSome) :
    (items.filterMap record).map lineOf = items.map Visit.line := by
  induction items with
  | nil => rfl
  | cons visit rest ih =>
    rw [List.forall_mem_cons] at hsome
    rcases Option.isSome_iff_exists.1 hsome.1 with ⟨made, hmade⟩
    rw [List.filterMap_cons_some hmade, List.map_cons, List.map_cons, hline visit made hmade,
      ih hsome.2]

/-- Of the sites of the module, those are recorded that are not on a line of an extension; of the
others, the first on each line that is not taken. -/
theorem perm_recorded_iff
    (hline : ∀ visit made, record visit = some made → lineOf made = visit.line)
    {top nested sites : List Visit} (hsites : sites.Perm (top ++ nested))
    (hsome : ∀ visit ∈ top ++ nested, (record visit).isSome) {extensions unsafeAt seen : List Nat} :
    ((top.filter (fun visit => visit.line ∉ extensions) ++ firstOfKeys Visit.line seen nested).filterMap
          record).Perm ((sites.filter fun visit => visit.line ∉ unsafeAt).filterMap record)
      ↔ (∀ visit ∈ top, visit.line ∈ extensions ↔ visit.line ∈ unsafeAt)
        ∧ (∀ visit ∈ nested, visit.line ∈ seen ↔ visit.line ∈ unsafeAt)
        ∧ ((nested.filter fun visit => visit.line ∉ unsafeAt).map Visit.line).Nodup := by
  have hkept := firstOfKeys_sublist Visit.line seen nested
  have hsomeOf : ∀ items : List Visit, items ⊆ top ++ nested →
      ∀ visit ∈ items, (record visit).isSome := fun items hsub visit hvisit => hsome visit (hsub hvisit)
  have hleft : top.filter (fun visit => visit.line ∉ extensions) ++ firstOfKeys Visit.line seen nested
      ⊆ top ++ nested := by
    intro visit hvisit
    rcases List.mem_append.1 hvisit with htop | hnested
    · exact List.mem_append_left _ (List.mem_of_mem_filter htop)
    · exact List.mem_append_right _ (hkept.subset hnested)
  have hright : (sites.filter fun visit => visit.line ∉ unsafeAt) ⊆ top ++ nested :=
    fun visit hvisit => hsites.subset (List.mem_of_mem_filter hvisit)
  constructor
  · intro hperm
    -- only the lines count
    have hlines := hperm.map lineOf
    rw [map_filterMap_record hline (hsomeOf _ hleft), map_filterMap_record hline (hsomeOf _ hright)]
      at hlines
    have hnotUnsafe : ∀ visit ∈ top.filter (fun visit => visit.line ∉ extensions)
        ++ firstOfKeys Visit.line seen nested, visit.line ∉ unsafeAt := by
      intro visit hvisit
      have hmem := hlines.subset (List.mem_map_of_mem hvisit)
      rcases List.mem_map.1 hmem with ⟨other, hother, hsame⟩
      rw [← hsame]
      exact of_decide_eq_true (List.mem_filter.1 hother).2
    have htopUnsafe : ∀ visit ∈ top, visit.line ∈ unsafeAt → visit.line ∈ extensions := by
      intro visit hvisit hunsafe
      by_contra hnot
      exact hnotUnsafe visit (List.mem_append_left _
        (List.mem_filter.2 ⟨hvisit, decide_eq_true hnot⟩)) hunsafe
    have hnestedUnsafe : ∀ visit ∈ nested, visit.line ∈ unsafeAt → visit.line ∈ seen := by
      intro visit hvisit hunsafe
      by_contra hnot
      rcases exists_mem_firstOfKeys Visit.line hvisit hnot with ⟨other, hother, hsame⟩
      exact hnotUnsafe other (List.mem_append_right _ hother) (hsame ▸ hunsafe)
    -- what is recorded is a part of the sites, and as long
    have hfirst : firstOfKeys Visit.line seen nested
        = firstOfKeys Visit.line seen (nested.filter fun visit => visit.line ∉ unsafeAt) := by
      symm
      apply firstOfKeys_filter
      intro visit hvisit hnot
      exact hnestedUnsafe visit hvisit (by simpa using hnot)
    have htop : top.filter (fun visit => visit.line ∉ extensions)
        = (top.filter fun visit => visit.line ∉ unsafeAt).filter
            fun visit => visit.line ∉ extensions := by
      rw [List.filter_filter]
      apply List.filter_congr
      intro visit hvisit
      by_cases hext : visit.line ∈ extensions
      · simp [hext]
      · have hnot : visit.line ∉ unsafeAt := fun hunsafe => hext (htopUnsafe visit hvisit hunsafe)
        simp [hext, hnot]
    have hlength := hlines.length_eq
    rw [List.length_map, List.length_map, (hsites.filter _).length_eq, List.filter_append,
      List.length_append, List.length_append, htop, hfirst] at hlength
    have htopSub := List.filter_sublist (l := top.filter fun visit => visit.line ∉ unsafeAt)
      (p := fun visit => visit.line ∉ extensions)
    have hnestedSub := firstOfKeys_sublist Visit.line seen
      (nested.filter fun visit => visit.line ∉ unsafeAt)
    have htopLength := htopSub.length_le
    have hnestedLength := hnestedSub.length_le
    have htopAll := htopSub.eq_of_length (by omega)
    have hnestedAll := hnestedSub.eq_of_length (by omega)
    rw [List.filter_eq_self] at htopAll
    rw [firstOfKeys_eq_self_iff] at hnestedAll
    refine ⟨?_, ?_, hnestedAll.1⟩
    · intro visit hvisit
      refine ⟨?_, htopUnsafe visit hvisit⟩
      intro hext
      by_contra hnot
      have hkeep := htopAll visit (List.mem_filter.2 ⟨hvisit, decide_eq_true hnot⟩)
      exact of_decide_eq_true hkeep hext
    · intro visit hvisit
      refine ⟨?_, hnestedUnsafe visit hvisit⟩
      intro hseen
      by_contra hnot
      exact hnestedAll.2 visit (List.mem_filter.2 ⟨hvisit, decide_eq_true hnot⟩) hseen
  · rintro ⟨htop, hnested, hnodup⟩
    have htopSame : top.filter (fun visit => visit.line ∉ extensions)
        = top.filter fun visit => visit.line ∉ unsafeAt := by
      apply List.filter_congr
      intro visit hvisit
      simp [htop visit hvisit]
    have hnestedSame : firstOfKeys Visit.line seen nested
        = nested.filter fun visit => visit.line ∉ unsafeAt := by
      rw [← firstOfKeys_filter Visit.line (p := fun visit => visit.line ∉ unsafeAt)]
      · rw [firstOfKeys_eq_self_iff]
        refine ⟨hnodup, ?_⟩
        intro visit hvisit hseen
        rcases List.mem_filter.1 hvisit with ⟨hmem, hnot⟩
        exact of_decide_eq_true hnot ((hnested visit hmem).1 hseen)
      · intro visit hvisit hnot
        exact (hnested visit hvisit).2 (by simpa using hnot)
    rw [htopSame, hnestedSame, ← List.filter_append]
    exact ((hsites.filter _).filterMap _).symm

end Recorded

/-! ## Visits of the module -/

section Tree

variable (walk : Walk)

theorem topLevel_arrange {visit : Visit} {nested : List Visit} (hvisit : visit.topLevel = false)
    (hnested : ∀ other ∈ nested, other.topLevel = false) :
    ∀ other ∈ walk.arrange visit nested, other.topLevel = false := by
  intro other hother
  rw [Walk.arrange] at hother
  split at hother
  · rcases List.mem_append.1 hother with hin | hlast
    · exact hnested other hin
    · rw [List.mem_singleton.1 hlast]
      exact hvisit
  · rcases List.mem_cons.1 hother with rfl | hin
    · exact hvisit
    · exact hnested other hin

theorem topLevel_append {visits others : List Visit} (h : ∀ visit ∈ visits, visit.topLevel = false)
    (hothers : ∀ visit ∈ others, visit.topLevel = false) :
    ∀ visit ∈ visits ++ others, visit.topLevel = false := by
  intro visit hvisit
  exact (List.mem_append.1 hvisit).elim (h visit) (hothers visit)

mutual

/-- Below the suite of the module nothing is at the top. -/
theorem topLevel_visitsOfStmt (owner : Owner) :
    ∀ stmt, ∀ visit ∈ visitsOfStmt walk owner false stmt, visit.topLevel = false
  | .functionDef _ name _ body => topLevel_visitsOfSuite _ body
  | .classDef _ name _ body => topLevel_visitsOfSuite _ body
  | .ifStmt range test body clauses =>
    topLevel_arrange walk rfl
      (topLevel_append (topLevel_visitsOfSuite owner body) (topLevel_visitsOfClauses owner clauses))
  | .tryStmt range body handlers orelse finalbody =>
    topLevel_arrange walk rfl (topLevel_append (topLevel_append (topLevel_append
      (topLevel_visitsOfSuite owner body) (topLevel_visitsOfSuites owner handlers))
        (topLevel_visitsOfSuite owner orelse)) (topLevel_visitsOfSuite owner finalbody))
  | .matchStmt range cases => topLevel_arrange walk rfl (topLevel_visitsOfSuites owner cases)
  | .forStmt range body orelse =>
    topLevel_arrange walk rfl
      (topLevel_append (topLevel_visitsOfSuite owner body) (topLevel_visitsOfSuite owner orelse))
  | .whileStmt range body orelse =>
    topLevel_arrange walk rfl
      (topLevel_append (topLevel_visitsOfSuite owner body) (topLevel_visitsOfSuite owner orelse))
  | .withStmt range body => topLevel_arrange walk rfl (topLevel_visitsOfSuite owner body)
  | .typeAlias .. => by simp [visitsOfStmt]
  | .importNames .. => by simp [visitsOfStmt]
  | .assign .. => by simp [visitsOfStmt]
  | .annAssign .. => by simp [visitsOfStmt]
  | .augAssign .. => by simp [visitsOfStmt]
  | .expr .. => by simp [visitsOfStmt]
  | .returnStmt .. => by simp [visitsOfStmt]
  | .delete .. => by simp [visitsOfStmt]
  | .scopeNames .. => by simp [visitsOfStmt]
  | .assertStmt .. => by simp [visitsOfStmt]
  | .other .. => by simp [visitsOfStmt]

theorem topLevel_visitsOfSuite (owner : Owner) :
    ∀ suite, ∀ visit ∈ visitsOfSuite walk owner false suite, visit.topLevel = false
  | [] => fun _ hvisit => absurd hvisit List.not_mem_nil
  | stmt :: rest =>
    topLevel_append (topLevel_visitsOfStmt owner stmt) (topLevel_visitsOfSuite owner rest)

theorem topLevel_visitsOfSuites (owner : Owner) :
    ∀ suites, ∀ visit ∈ visitsOfSuites walk owner suites, visit.topLevel = false
  | [] => fun _ hvisit => absurd hvisit List.not_mem_nil
  | suite :: rest =>
    topLevel_append (topLevel_visitsOfSuite owner suite) (topLevel_visitsOfSuites owner rest)

theorem topLevel_visitsOfClauses (owner : Owner) :
    ∀ clauses, ∀ visit ∈ visitsOfClauses walk owner clauses, visit.topLevel = false
  | [] => fun _ hvisit => absurd hvisit List.not_mem_nil
  | (_, body) :: rest =>
    topLevel_append (topLevel_visitsOfSuite owner body) (topLevel_visitsOfClauses owner rest)

end

end Tree

/-- Functions and classes are entered, not seen. -/
def Stmt.isScope : Stmt → Bool
  | .functionDef .. | .classDef .. => true
  | _ => false

theorem filter_eq_nil_of_topLevel {visits : List Visit} (h : ∀ visit ∈ visits, visit.topLevel = false) :
    visits.filter Visit.topLevel = [] :=
  List.filter_eq_nil_iff.2 fun visit hvisit => by rw [h visit hvisit]; exact Bool.false_ne_true

/-- At the top stand the statements of the suite. -/
theorem filter_topLevel_visitsOfStmt (stmt : Stmt) :
    (visitsOfStmt {} {} true stmt).filter Visit.topLevel
      = if stmt.isScope then [] else [⟨{}, true, stmt⟩] := by
  have hsuite : ∀ owner suite, (visitsOfSuite {} owner false suite).filter Visit.topLevel = [] :=
    fun owner suite => filter_eq_nil_of_topLevel (topLevel_visitsOfSuite {} owner suite)
  have hsuites : ∀ owner suites, (visitsOfSuites {} owner suites).filter Visit.topLevel = [] :=
    fun owner suites => filter_eq_nil_of_topLevel (topLevel_visitsOfSuites {} owner suites)
  have hclauses : ∀ owner clauses, (visitsOfClauses {} owner clauses).filter Visit.topLevel = [] :=
    fun owner clauses => filter_eq_nil_of_topLevel (topLevel_visitsOfClauses {} owner clauses)
  cases stmt <;>
    simp [visitsOfStmt, Stmt.isScope, Walk.arrange, hsuite, hsuites, hclauses]

theorem filter_topLevel_visits (suite : List Stmt) :
    (visits {} suite).filter Visit.topLevel
      = (suite.filter fun stmt => !stmt.isScope).map fun stmt => ⟨{}, true, stmt⟩ := by
  unfold visits
  induction suite with
  | nil => rfl
  | cons stmt rest ih =>
    rw [visitsOfSuite, List.filter_append, ih, filter_topLevel_visitsOfStmt]
    by_cases hscope : stmt.isScope = true
    · simp [hscope]
    · simp [hscope]

/-! ## What the collectors record -/

theorem foldl_pushFresh {ρ : Type} (embed : ρ → SyntaxStatement) (records : List ρ)
    (statements : List SyntaxStatement) :
    records.foldl (fun statements record => pushFresh statements (embed record)) statements
      = statements ++ (firstOfKeys (fun record => (embed record).line)
          (statements.map SyntaxStatement.line) records).map embed := by
  induction records generalizing statements with
  | nil => simp [firstOfKeys]
  | cons record rest ih =>
    rw [List.foldl_cons, ih, pushFresh, firstOfKeys]
    have hany : (statements.any fun other => other.line = (embed record).line) = true
        ↔ (embed record).line ∈ statements.map SyntaxStatement.line := by
      simp only [List.any_eq_true, decide_eq_true_eq, List.mem_map]
    by_cases htaken : (embed record).line ∈ statements.map SyntaxStatement.line
    · rw [if_pos (hany.2 htaken), if_pos htaken]
    · rw [if_neg (mt hany.1 htaken), if_neg htaken, List.map_cons, List.append_assoc,
        List.singleton_append]
      congr 2
      have hseen : ∀ line, line ∈ (statements ++ [embed record]).map SyntaxStatement.line
          ↔ line ∈ (embed record).line :: statements.map SyntaxStatement.line := by
        intro line
        rw [List.map_append, List.mem_append, List.mem_cons]
        simp [or_comm]
      rw [firstOfKeys_congr _ hseen]

variable {statement : SyntaxStatement} {line : Nat}

theorem line_of_namedStatement {kind : StatementKind} {names : List String}
    (h : namedStatement kind names line = some statement) :
    statement.line = line ∧ ifOfStatement statement = none ∧ assertOfStatement statement = none := by
  rw [namedStatement] at h
  split at h
  · cases h
  · cases h
    exact ⟨rfl, rfl, rfl⟩

/-- A statement about a call or a member, on the line it is given. -/
def AboutUse (line : Nat) (statement : SyntaxStatement) : Prop :=
  statement.line = line ∧ ifOfStatement statement = none ∧ assertOfStatement statement = none

theorem aboutUse_call {value : Expr} (h : extractCallStatement line value = some statement) :
    AboutUse line statement := by
  unfold extractCallStatement at h
  split at h
  · cases h
    exact ⟨rfl, rfl, rfl⟩
  · cases h

theorem aboutUse_methodCall {value : Expr} (h : extractMethodCall line value = some statement) :
    AboutUse line statement := by
  unfold extractMethodCall at h
  split at h
  · cases h
    exact ⟨rfl, rfl, rfl⟩
  · cases h
    exact ⟨rfl, rfl, rfl⟩
  · cases h

theorem aboutUse_memberAccess {value : Expr}
    (h : extractMemberAccessFromExpr line value = some statement) : AboutUse line statement := by
  unfold extractMemberAccessFromExpr at h
  split at h
  · cases h
    exact ⟨rfl, rfl, rfl⟩
  · cases h
    exact ⟨rfl, rfl, rfl⟩
  · cases h

/-- The uses in a statement of the module. -/
theorem aboutUse_of_uses {stmt : Stmt} {statement : SyntaxStatement}
    (h : extractSupplementalCallStatement stmt.line stmt = some statement
      ∨ extractMethodCallStatement stmt.line stmt = some statement
      ∨ extractMemberAccessStatement stmt.line stmt = some statement) :
    AboutUse stmt.line statement := by
  rcases h with h | h | h
  · unfold extractSupplementalCallStatement at h
    split at h
    · exact aboutUse_call h
    · rcases Option.bind_eq_some_iff.1 h with ⟨_, -, hvalue⟩
      exact aboutUse_call hvalue
    · rcases Option.bind_eq_some_iff.1 h with ⟨_, -, hvalue⟩
      exact aboutUse_call hvalue
    · cases h
  · unfold extractMethodCallStatement at h
    split at h
    · exact aboutUse_methodCall h
    · exact aboutUse_methodCall h
    · rcases Option.bind_eq_some_iff.1 h with ⟨_, -, hvalue⟩
      exact aboutUse_methodCall hvalue
    · rcases Option.bind_eq_some_iff.1 h with ⟨_, -, hvalue⟩
      exact aboutUse_methodCall hvalue
    · cases h
  · unfold extractMemberAccessStatement at h
    split at h
    · exact aboutUse_memberAccess h
    · exact aboutUse_memberAccess h
    · rcases Option.bind_eq_some_iff.1 h with ⟨_, -, hvalue⟩
      exact aboutUse_memberAccess hvalue
    · cases h

/-- A statement of the module is recorded on its line; as a guard site when it is one. -/
theorem extractAstBackedStatement_spec (stmt : Stmt) :
    (∀ statement, extractAstBackedStatement stmt.line stmt = some statement →
        statement.line = stmt.line)
      ∧ (extractAstBackedStatement stmt.line stmt).bind ifOfStatement = ifOfVisit ⟨{}, true, stmt⟩
      ∧ (extractAstBackedStatement stmt.line stmt).bind assertOfStatement
          = assertOfVisit ⟨{}, true, stmt⟩ := by
  have hquiet : ∀ parsed : Option SyntaxStatement,
      (∀ statement, parsed = some statement → AboutUse stmt.line statement) →
      (∀ statement, parsed = some statement → statement.line = stmt.line)
        ∧ parsed.bind ifOfStatement = none ∧ parsed.bind assertOfStatement = none := by
    intro parsed hparsed
    cases parsed with
    | none => exact ⟨fun _ h => absurd h (by simp), rfl, rfl⟩
    | some statement =>
      have huse := hparsed statement rfl
      exact ⟨fun _ h => Option.some.inj h ▸ huse.1, huse.2.1, huse.2.2⟩
  have hparams : ∀ kind params, ∀ statement,
      ((extractAstTypeParams stmt.line params).map fun _ => SyntaxStatement.other kind stmt.line)
        = some statement → AboutUse stmt.line statement := by
    intro kind params statement h
    rcases Option.map_eq_some_iff.1 h with ⟨_, -, rfl⟩
    exact ⟨rfl, rfl, rfl⟩
  cases stmt with
  | ifStmt range test body clauses =>
    exact ⟨fun _ h => Option.some.inj h ▸ rfl, rfl, rfl⟩
  | assertStmt range test => exact ⟨fun _ h => Option.some.inj h ▸ rfl, rfl, rfl⟩
  | typeAlias range params => exact hquiet _ (hparams .typeAlias params)
  | classDef range name params body => exact hquiet _ (hparams .classDef params)
  | functionDef range name params body => exact hquiet _ (hparams .functionDef params)
  | assign range targets value => exact hquiet _ fun _ h => line_of_namedStatement h
  | annAssign range target value => exact hquiet _ fun _ h => line_of_namedStatement h
  | augAssign range target => exact hquiet _ fun _ h => line_of_namedStatement h
  | delete range targets => exact hquiet _ fun _ h => line_of_namedStatement h
  | expr range value => exact hquiet _ fun _ h => aboutUse_call h
  | importNames range => exact hquiet _ fun _ h => Option.some.inj h ▸ ⟨rfl, rfl, rfl⟩
  | scopeNames range => exact hquiet _ fun _ h => Option.some.inj h ▸ ⟨rfl, rfl, rfl⟩
  | returnStmt range value => exact hquiet _ fun _ h => absurd h (by simp [extractAstBackedStatement])
  | tryStmt => exact hquiet _ fun _ h => absurd h (by simp [extractAstBackedStatement])
  | matchStmt => exact hquiet _ fun _ h => absurd h (by simp [extractAstBackedStatement])
  | forStmt => exact hquiet _ fun _ h => absurd h (by simp [extractAstBackedStatement])
  | whileStmt => exact hquiet _ fun _ h => absurd h (by simp [extractAstBackedStatement])
  | withStmt => exact hquiet _ fun _ h => absurd h (by simp [extractAstBackedStatement])
  | other => exact hquiet _ fun _ h => absurd h (by simp [extractAstBackedStatement])

theorem statementsOfTopLevel_spec (stmt : Stmt) :
    (∀ statement ∈ statementsOfTopLevel stmt, statement.line = stmt.line)
      ∧ (statementsOfTopLevel stmt).filterMap ifOfStatement = (ifOfVisit ⟨{}, true, stmt⟩).toList
      ∧ (statementsOfTopLevel stmt).filterMap assertOfStatement
          = (assertOfVisit ⟨{}, true, stmt⟩).toList := by
  rcases extractAstBackedStatement_spec stmt with ⟨hline, hif, hassert⟩
  have huse : ∀ parsed : Option SyntaxStatement,
      (∀ statement, parsed = some statement → AboutUse stmt.line statement) →
      (∀ statement ∈ parsed.toList, statement.line = stmt.line)
        ∧ parsed.toList.filterMap ifOfStatement = []
        ∧ parsed.toList.filterMap assertOfStatement = [] := by
    intro parsed hparsed
    cases parsed with
    | none => simp
    | some statement =>
      rcases hparsed statement rfl with ⟨hat, hnotIf, hnotAssert⟩
      simp [hat, hnotIf, hnotAssert]
  have hbacked : ∀ {ρ : Type} (ofStatement : SyntaxStatement → Option ρ),
      (extractAstBackedStatement stmt.line stmt).toList.filterMap ofStatement
        = ((extractAstBackedStatement stmt.line stmt).bind ofStatement).toList := by
    intro ρ ofStatement
    cases extractAstBackedStatement stmt.line stmt with
    | none => rfl
    | some statement => cases h : ofStatement statement <;> simp [h]
  rcases huse _ fun _ h => @aboutUse_of_uses stmt _ (.inl h) with ⟨hcallLine, hcallIf, hcallAssert⟩
  rcases huse _ fun _ h => @aboutUse_of_uses stmt _ (.inr (.inl h)) with
    ⟨hmethodLine, hmethodIf, hmethodAssert⟩
  rcases huse _ fun _ h => @aboutUse_of_uses stmt _ (.inr (.inr h)) with
    ⟨hmemberLine, hmemberIf, hmemberAssert⟩
  refine ⟨?_, ?_, ?_⟩
  · intro statement hstatement
    simp only [statementsOfTopLevel, List.mem_append] at hstatement
    rcases hstatement with ((hin | hin) | hin) | hin
    · exact hline statement (Option.mem_toList.1 hin)
    · exact hcallLine statement hin
    · exact hmethodLine statement hin
    · exact hmemberLine statement hin
  · simp only [statementsOfTopLevel, List.filterMap_append, hcallIf, hmethodIf, hmemberIf, hbacked,
      hif, List.append_nil]
  · simp only [statementsOfTopLevel, List.filterMap_append, hcallAssert, hmethodAssert,
      hmemberAssert, hbacked, hassert, List.append_nil]

/-- A kind of guard site: how it is read off a node, and how it is kept. -/
structure SiteKind (ρ : Type) where
  record : Visit → Option ρ
  embed : ρ → SyntaxStatement
  ofStatement : SyntaxStatement → Option ρ
  record_line : ∀ visit made, record visit = some made → (embed made).line = visit.line
  ofStatement_embed : ∀ made, ofStatement (embed made) = some made
  ofStatement_top : ∀ stmt,
    (statementsOfTopLevel stmt).filterMap ofStatement = (record ⟨{}, true, stmt⟩).toList
  record_scope : ∀ stmt, stmt.isScope = true → record ⟨{}, true, stmt⟩ = none

def ifSites : SiteKind IfStatement where
  record := ifOfVisit
  embed := .ifStmt
  ofStatement := ifOfStatement
  record_line := by
    intro visit made h
    unfold ifOfVisit at h
    split at h
    · rename_i hstmt
      cases h
      rw [Visit.line, hstmt]
      rfl
    · cases h
  ofStatement_embed _ := rfl
  ofStatement_top stmt := (statementsOfTopLevel_spec stmt).2.1
  record_scope := by
    intro stmt h
    cases stmt <;> first | rfl | cases h

def assertSites : SiteKind AssertStatement where
  record := assertOfVisit
  embed := .assertStmt
  ofStatement := assertOfStatement
  record_line := by
    intro visit made h
    unfold assertOfVisit at h
    split at h
    · rename_i hstmt
      cases h
      rw [Visit.line, hstmt]
      rfl
    · cases h
  ofStatement_embed _ := rfl
  ofStatement_top stmt := (statementsOfTopLevel_spec stmt).2.2
  record_scope := by
    intro stmt h
    cases stmt <;> first | rfl | cases h

section Kinds

variable {ρ : Type} (kind : SiteKind ρ) (suite : List Stmt)

/-- The sites in the suite of the module. -/
def topSites : List Visit :=
  (visits {} suite).filter fun visit => visit.topLevel && (kind.record visit).isSome

def nestedSites : List Visit :=
  (visits {} suite).filter fun visit => !visit.topLevel && (kind.record visit).isSome

theorem perm_sites : ((visits {} suite).filter fun visit => (kind.record visit).isSome).Perm
    (topSites kind suite ++ nestedSites kind suite) := by
  have hsplit := List.filter_append_perm Visit.topLevel
    ((visits {} suite).filter fun visit => (kind.record visit).isSome)
  rw [List.filter_filter, List.filter_filter] at hsplit
  exact hsplit.symm

/-- The module's own sites, up to those on the lines of extension statements. -/
theorem filterMap_extractAstBackedStatements (extensions : List SyntaxStatement) :
    (extractAstBackedStatements suite extensions).filterMap kind.ofStatement
      = ((topSites kind suite).filter fun visit =>
          visit.line ∉ extensions.map SyntaxStatement.line).filterMap kind.record := by
  have hkeep : ∀ visits : List Visit,
      (visits.filter fun visit => (kind.record visit).isSome).filterMap kind.record
        = visits.filterMap kind.record := by
    intro visits
    rw [List.filterMap_filter]
    apply List.filterMap_congr
    intro visit _
    cases kind.record visit <;> rfl
  have htop : ((topSites kind suite).filter fun visit =>
      visit.line ∉ extensions.map SyntaxStatement.line).filterMap kind.record
        = (((visits {} suite).filter Visit.topLevel).filter fun visit =>
            visit.line ∉ extensions.map SyntaxStatement.line).filterMap kind.record := by
    rw [← hkeep (((visits {} suite).filter Visit.topLevel).filter _)]
    simp only [topSites, List.filter_filter]
    congr 1
    apply List.filter_congr
    intro visit _
    cases visit.topLevel <;> cases (kind.record visit).isSome <;> simp
  rw [htop, filter_topLevel_visits, extractAstBackedStatements]
  clear htop
  induction suite with
  | nil => rfl
  | cons stmt rest ih =>
    rw [List.flatMap_cons, List.filterMap_append, ih]
    by_cases hscope : stmt.isScope = true
    · -- a function or a class is no site
      have hnone : (if stmt.line ∈ extensions.map SyntaxStatement.line then []
          else statementsOfTopLevel stmt).filterMap kind.ofStatement = [] := by
        split
        · rfl
        · rw [kind.ofStatement_top, kind.record_scope stmt hscope]
          rfl
      rw [hnone, List.filter_cons_of_neg (by simp [hscope]), List.nil_append]
    · rw [List.filter_cons_of_pos (by simpa using hscope), List.map_cons]
      by_cases htaken : stmt.line ∈ extensions.map SyntaxStatement.line
      · rw [if_pos htaken, List.filter_cons_of_neg (by simpa [Visit.line] using htaken)]
        rfl
      · rw [if_neg htaken, kind.ofStatement_top,
          List.filter_cons_of_pos (by simpa [Visit.line] using htaken)]
        cases hrecord : kind.record ⟨{}, true, stmt⟩ with
        | none => simp [hrecord]
        | some made => simp [hrecord]

/-- A collector adds the first of the nested sites on each line that is not taken. -/
theorem filterMap_foldl_pushFresh (statements : List SyntaxStatement)
    (htop : ∀ visit ∈ topSites kind suite, visit.line ∈ statements.map SyntaxStatement.line) :
    (((visits {} suite).filterMap kind.record).foldl
        (fun statements record => pushFresh statements (kind.embed record)) statements).filterMap
          kind.ofStatement
      = statements.filterMap kind.ofStatement
        ++ (firstOfKeys Visit.line (statements.map SyntaxStatement.line)
            (nestedSites kind suite)).filterMap kind.record := by
  rw [foldl_pushFresh, List.filterMap_append, List.filterMap_map]
  have hback : (kind.ofStatement ∘ kind.embed) = some := by
    funext made
    exact kind.ofStatement_embed made
  rw [hback, List.filterMap_some,
    firstOfKeys_filterMap (fun record => (kind.embed record).line) kind.record_line]
  have hnested : nestedSites kind suite
      = ((visits {} suite).filter fun visit => (kind.record visit).isSome).filter
          fun visit => !visit.topLevel := by
    rw [List.filter_filter]
    rfl
  have hskip : ∀ visit ∈ (visits {} suite).filter fun visit => (kind.record visit).isSome,
      (!visit.topLevel) = false → visit.line ∈ statements.map SyntaxStatement.line := by
    intro visit hvisit hnot
    rcases List.mem_filter.1 hvisit with ⟨hmem, hsome⟩
    apply htop
    refine List.mem_filter.2 ⟨hmem, ?_⟩
    rw [hsome, Bool.and_true]
    simpa using hnot
  rw [hnested, firstOfKeys_filter Visit.line hskip]

/-- A statement that is read off a node on its line, and is no guard site. -/
def Reads (extract : Visit → Option SyntaxStatement) : Prop :=
  ∀ visit statement, extract visit = some statement → AboutUse visit.line statement

theorem reads_extractReturnStatement : Reads extractReturnStatement := by
  intro visit statement h
  unfold extractReturnStatement at h
  split at h
  · rename_i hstmt
    rcases Option.map_eq_some_iff.1 h with ⟨_, -, rfl⟩
    rw [Visit.line, hstmt]
    exact ⟨rfl, rfl, rfl⟩
  · cases h

theorem reads_extractYieldStatement : Reads extractYieldStatement := by
  intro visit statement h
  unfold extractYieldStatement at h
  split at h
  · rename_i hstmt
    rcases Option.map_eq_some_iff.1 h with ⟨_, -, rfl⟩
    rw [Visit.line, hstmt]
    exact ⟨rfl, rfl, rfl⟩
  · rename_i hstmt
    rcases Option.map_eq_some_iff.1 h with ⟨_, -, rfl⟩
    rw [Visit.line, hstmt]
    exact ⟨rfl, rfl, rfl⟩
  · cases h

theorem Reads.mem_lines {extract : Visit → Option SyntaxStatement} (h : Reads extract)
    (visits : List Visit) (line : Nat) :
    line ∈ (visits.filterMap extract).map SyntaxStatement.line
      ↔ ∃ visit ∈ visits, visit.line = line ∧ (extract visit).isSome := by
  rw [List.mem_map]
  constructor
  · rintro ⟨statement, hstatement, rfl⟩
    rcases List.mem_filterMap.1 hstatement with ⟨visit, hvisit, hextract⟩
    exact ⟨visit, hvisit, (h visit statement hextract).1.symm, by rw [hextract]; rfl⟩
  · rintro ⟨visit, hvisit, rfl, hsome⟩
    rcases Option.isSome_iff_exists.1 hsome with ⟨statement, hextract⟩
    exact ⟨statement, List.mem_filterMap.2 ⟨visit, hvisit, hextract⟩, (h visit statement hextract).1⟩

theorem Reads.noSites {extract : Visit → Option SyntaxStatement} (h : Reads extract)
    (visits : List Visit) : (visits.filterMap extract).filterMap ifOfStatement = []
      ∧ (visits.filterMap extract).filterMap assertOfStatement = [] := by
  have hmem : ∀ statement ∈ visits.filterMap extract,
      ifOfStatement statement = none ∧ assertOfStatement statement = none := by
    intro statement hstatement
    rcases List.mem_filterMap.1 hstatement with ⟨visit, -, hextract⟩
    exact (h visit statement hextract).2
  exact ⟨List.filterMap_eq_nil_iff.2 fun statement hin => (hmem statement hin).1,
    List.filterMap_eq_nil_iff.2 fun statement hin => (hmem statement hin).2⟩

section Passes

variable (kept : List ExtensionStatement)

/-- The statements before the `if` statements are collected. -/
def beforeIfs : List SyntaxStatement :=
  collectYieldStatements suite (collectReturnStatements suite
    (kept.map .extension ++ extractAstBackedStatements suite (kept.map .extension)))

theorem lines_extensions :
    (kept.map SyntaxStatement.extension).map SyntaxStatement.line = kept.map statementLine := by
  rw [List.map_map]
  rfl

theorem mem_lines_extractAstBackedStatements (existing : List SyntaxStatement) (line : Nat) :
    line ∈ (extractAstBackedStatements suite existing).map SyntaxStatement.line
      ↔ ∃ stmt ∈ suite, stmt.line = line ∧ stmt.line ∉ existing.map SyntaxStatement.line
        ∧ statementsOfTopLevel stmt ≠ [] := by
  rw [extractAstBackedStatements, List.mem_map]
  constructor
  · rintro ⟨statement, hstatement, rfl⟩
    rcases List.mem_flatMap.1 hstatement with ⟨stmt, hstmt, hin⟩
    split at hin
    · exact absurd hin List.not_mem_nil
    · rename_i hfree
      exact ⟨stmt, hstmt, ((statementsOfTopLevel_spec stmt).1 statement hin).symm, hfree,
        List.ne_nil_of_mem hin⟩
  · rintro ⟨stmt, hstmt, rfl, hfree, hne⟩
    rcases List.exists_mem_of_ne_nil _ hne with ⟨statement, hin⟩
    refine ⟨statement, List.mem_flatMap.2 ⟨stmt, hstmt, ?_⟩,
      (statementsOfTopLevel_spec stmt).1 statement hin⟩
    rw [if_neg hfree]
    exact hin

theorem mem_lines_beforeIfs (line : Nat) :
    line ∈ (beforeIfs suite kept).map SyntaxStatement.line
      ↔ TakenBeforeIfs (kept.map statementLine) suite line := by
  simp only [beforeIfs, collectYieldStatements, collectReturnStatements, List.map_append,
    List.mem_append, reads_extractReturnStatement.mem_lines,
    reads_extractYieldStatement.mem_lines, mem_lines_extractAstBackedStatements, lines_extensions,
    TakenBeforeIfs, or_assoc]

theorem topSites_taken : ∀ visit ∈ topSites kind suite,
    visit.line ∈ (beforeIfs suite kept).map SyntaxStatement.line := by
  intro visit hvisit
  rcases List.mem_filter.1 hvisit with ⟨hmem, hsite⟩
  rw [Bool.and_eq_true] at hsite
  have htop : visit ∈ (visits {} suite).filter Visit.topLevel := List.mem_filter.2 ⟨hmem, hsite.1⟩
  rw [filter_topLevel_visits] at htop
  rcases List.mem_map.1 htop with ⟨stmt, hstmt, rfl⟩
  rw [mem_lines_beforeIfs]
  by_cases hext : stmt.line ∈ kept.map statementLine
  · exact .inl hext
  · refine .inr (.inl ⟨stmt, List.mem_of_mem_filter hstmt, rfl, hext, ?_⟩)
    intro hnil
    have hrecord := kind.ofStatement_top stmt
    rw [hnil] at hrecord
    rcases Option.isSome_iff_exists.1 hsite.2 with ⟨made, hmade⟩
    rw [hmade] at hrecord
    cases hrecord

theorem filterMap_beforeIfs :
    (beforeIfs suite kept).filterMap ifOfStatement
        = ((topSites ifSites suite).filter fun visit =>
            visit.line ∉ kept.map statementLine).filterMap ifOfVisit
      ∧ (beforeIfs suite kept).filterMap assertOfStatement
        = ((topSites assertSites suite).filter fun visit =>
            visit.line ∉ kept.map statementLine).filterMap assertOfVisit := by
  have hextensions : ∀ {ρ : Type} (ofStatement : SyntaxStatement → Option ρ),
      (∀ statement, ofStatement (.extension statement) = none) →
        (kept.map SyntaxStatement.extension).filterMap ofStatement = [] := by
    intro ρ ofStatement hnone
    rw [List.filterMap_map]
    exact List.filterMap_eq_nil_iff.2 fun statement _ => hnone statement
  have hifs := filterMap_extractAstBackedStatements ifSites suite (kept.map .extension)
  have hasserts := filterMap_extractAstBackedStatements assertSites suite (kept.map .extension)
  rw [lines_extensions] at hifs hasserts
  constructor
  · simp only [beforeIfs, collectYieldStatements, collectReturnStatements, List.filterMap_append,
      (reads_extractReturnStatement.noSites _).1, (reads_extractYieldStatement.noSites _).1,
      hextensions ifOfStatement fun _ => rfl, List.append_nil, List.nil_append]
    exact hifs
  · simp only [beforeIfs, collectYieldStatements, collectReturnStatements, List.filterMap_append,
      (reads_extractReturnStatement.noSites _).2, (reads_extractYieldStatement.noSites _).2,
      hextensions assertOfStatement fun _ => rfl, List.append_nil, List.nil_append]
    exact hasserts

end Passes

end Kinds

/-! ## Declarations in selected branches -/

theorem noSite_of_isGuardedDeclaration (h : isGuardedDeclaration statement = true) :
    ifOfStatement statement = none ∧ assertOfStatement statement = none := by
  unfold isGuardedDeclaration at h
  split at h
  · exact ⟨rfl, rfl⟩
  · exact ⟨rfl, rfl⟩
  · exact ⟨rfl, rfl⟩
  · cases h

theorem foldl_pushGuarded (branch : List Stmt) (statements : List SyntaxStatement) :
    ∃ declared, branch.foldl pushGuarded statements = statements ++ declared
      ∧ (∀ statement ∈ declared, isGuardedDeclaration statement = true)
      ∧ ∀ line, line ∈ (statements ++ declared).map SyntaxStatement.line
        ↔ line ∈ statements.map SyntaxStatement.line
          ∨ ∃ stmt ∈ branch, stmt.line = line
            ∧ (extractAstBackedStatement stmt.line stmt).any isGuardedDeclaration := by
  induction branch generalizing statements with
  | nil => exact ⟨[], by simp⟩
  | cons stmt rest ih =>
    have hparsed : ∀ statement ∈
        (extractAstBackedStatement stmt.line stmt).toList.filter isGuardedDeclaration,
        statement.line = stmt.line := by
      intro statement hstatement
      exact (extractAstBackedStatement_spec stmt).1 statement
        (Option.mem_toList.1 (List.mem_of_mem_filter hstatement))
    have hany : (extractAstBackedStatement stmt.line stmt).any isGuardedDeclaration = true
        ↔ ∃ statement, statement ∈
          (extractAstBackedStatement stmt.line stmt).toList.filter isGuardedDeclaration := by
      cases extractAstBackedStatement stmt.line stmt with
      | none => simp
      | some statement => cases h : isGuardedDeclaration statement <;> simp [h]
    rcases ih (pushGuarded statements stmt) with ⟨declared, hfold, hdeclared, hlines⟩
    rw [List.foldl_cons, hfold]
    by_cases htaken : stmt.line ∈ statements.map SyntaxStatement.line
    · rw [pushGuarded, if_pos htaken] at hlines ⊢
      refine ⟨declared, rfl, hdeclared, ?_⟩
      intro line
      rw [hlines, List.exists_mem_cons_iff]
      constructor
      · exact fun h => h.imp_right .inr
      · rintro (hin | ⟨rfl, -⟩ | hrest)
        · exact .inl hin
        · exact .inl htaken
        · exact .inr hrest
    · rw [pushGuarded, if_neg htaken] at hlines ⊢
      refine ⟨(extractAstBackedStatement stmt.line stmt).toList.filter isGuardedDeclaration
        ++ declared, by rw [List.append_assoc], ?_, ?_⟩
      · intro statement hstatement
        rcases List.mem_append.1 hstatement with hin | hin
        · exact (List.mem_filter.1 hin).2
        · exact hdeclared statement hin
      · intro line
        rw [← List.append_assoc, hlines, List.exists_mem_cons_iff, List.map_append,
          List.mem_append, or_assoc]
        have hhead : line ∈ ((extractAstBackedStatement stmt.line stmt).toList.filter
            isGuardedDeclaration).map SyntaxStatement.line
            ↔ stmt.line = line
              ∧ (extractAstBackedStatement stmt.line stmt).any isGuardedDeclaration := by
          rw [hany, List.mem_map]
          constructor
          · rintro ⟨statement, hstatement, rfl⟩
            exact ⟨(hparsed statement hstatement).symm, statement, hstatement⟩
          · rintro ⟨rfl, statement, hstatement⟩
            exact ⟨statement, hstatement, hparsed statement hstatement⟩
        rw [hhead]

/-! ## Both parsers -/

section Parsers

variable (options : ParseOptions) (suite : List Stmt) (kept : List ExtensionStatement)

/-- The statements before the `assert` statements are collected. -/
def beforeAsserts : List SyntaxStatement :=
  collectIfStatements suite (beforeIfs suite kept)
    ++ collectGuardedImportStatementsFromSuite options suite

theorem collectStatements_eq :
    collectStatements options suite (kept.map .extension)
      = collectAssertStatements suite (beforeAsserts options suite kept) := rfl

theorem mem_lines_beforeAsserts (line : Nat) :
    line ∈ (beforeAsserts options suite kept).map SyntaxStatement.line
      ↔ TakenBeforeAsserts (kept.map statementLine) suite options line := by
  rcases foldl_pushGuarded (guardedOfSuite options false suite) [] with ⟨declared, hfold, -, hlines⟩
  have hguarded := hlines line
  rw [← hfold, List.map_nil, or_iff_right List.not_mem_nil] at hguarded
  have hifs : line ∈ ((visits {} suite).filterMap ifOfVisit).map
      (fun record => (SyntaxStatement.ifStmt record).line)
      ↔ ∃ visit ∈ visits {} suite, visit.line = line ∧ visit.isIf := by
    rw [List.mem_map]
    constructor
    · rintro ⟨made, hmade, rfl⟩
      rcases List.mem_filterMap.1 hmade with ⟨visit, hvisit, hrecord⟩
      exact ⟨visit, hvisit, (ifSites.record_line visit made hrecord).symm, by rw [Visit.isIf, hrecord]; rfl⟩
    · rintro ⟨visit, hvisit, rfl, hsome⟩
      rcases Option.isSome_iff_exists.1 hsome with ⟨made, hmade⟩
      exact ⟨made, List.mem_filterMap.2 ⟨visit, hvisit, hmade⟩, ifSites.record_line visit made hmade⟩
  rw [beforeAsserts, List.map_append, List.mem_append, collectIfStatements, foldl_pushFresh,
    List.map_append, List.map_map]
  rw [show SyntaxStatement.line ∘ SyntaxStatement.ifStmt
    = fun record => (SyntaxStatement.ifStmt record).line from rfl, mem_append_firstOfKeys, hifs,
    mem_lines_beforeIfs, TakenBeforeAsserts, or_assoc]
  exact or_congr Iff.rfl (or_congr Iff.rfl hguarded)

/-- The sites that are recorded, up to their order. -/
theorem filterMap_collectStatements :
    (collectStatements options suite (kept.map .extension)).filterMap ifOfStatement
        = ((topSites ifSites suite).filter (fun visit => visit.line ∉ kept.map statementLine)
          ++ firstOfKeys Visit.line ((beforeIfs suite kept).map SyntaxStatement.line)
            (nestedSites ifSites suite)).filterMap ifOfVisit
      ∧ (collectStatements options suite (kept.map .extension)).filterMap assertOfStatement
        = ((topSites assertSites suite).filter (fun visit => visit.line ∉ kept.map statementLine)
          ++ firstOfKeys Visit.line ((beforeAsserts options suite kept).map SyntaxStatement.line)
            (nestedSites assertSites suite)).filterMap assertOfVisit := by
  rcases foldl_pushGuarded (guardedOfSuite options false suite) [] with ⟨declared, hfold, hdeclared, -⟩
  rw [List.nil_append] at hfold
  have hguardedIfs : (collectGuardedImportStatementsFromSuite options suite).filterMap ifOfStatement
      = [] := by
    rw [collectGuardedImportStatementsFromSuite, hfold]
    exact List.filterMap_eq_nil_iff.2 fun statement hin =>
      (noSite_of_isGuardedDeclaration (hdeclared statement hin)).1
  have hguardedAsserts :
      (collectGuardedImportStatementsFromSuite options suite).filterMap assertOfStatement = [] := by
    rw [collectGuardedImportStatementsFromSuite, hfold]
    exact List.filterMap_eq_nil_iff.2 fun statement hin =>
      (noSite_of_isGuardedDeclaration (hdeclared statement hin)).2
  have hifs := filterMap_foldl_pushFresh ifSites suite (beforeIfs suite kept)
    (topSites_taken ifSites suite kept)
  have hasserts := filterMap_foldl_pushFresh assertSites suite (beforeAsserts options suite kept) (by
    intro visit hvisit
    rw [mem_lines_beforeAsserts]
    exact .inl ((mem_lines_beforeIfs suite kept _).1
      (topSites_taken assertSites suite kept visit hvisit)))
  -- neither collector records sites of the other kind
  have hother : ∀ {ρ σ : Type} (embed : ρ → SyntaxStatement)
      (ofStatement : SyntaxStatement → Option σ), (∀ made, ofStatement (embed made) = none) →
      ∀ (records : List ρ) statements,
        (records.foldl (fun statements record => pushFresh statements (embed record))
          statements).filterMap ofStatement = statements.filterMap ofStatement := by
    intro ρ σ embed ofStatement hnone records statements
    rw [foldl_pushFresh, List.filterMap_append, List.filterMap_map]
    have hnil : (firstOfKeys (fun record => (embed record).line)
        (statements.map SyntaxStatement.line) records).filterMap (ofStatement ∘ embed) = [] :=
      List.filterMap_eq_nil_iff.2 fun made _ => hnone made
    rw [hnil, List.append_nil]
  have hbefore := filterMap_beforeIfs suite kept
  constructor
  · rw [collectStatements_eq, collectAssertStatements,
      hother SyntaxStatement.assertStmt ifOfStatement fun _ => rfl, beforeAsserts,
      List.filterMap_append, hguardedIfs, List.append_nil, List.filterMap_append, ← hbefore.1]
    exact hifs
  · have hsame : (beforeAsserts options suite kept).filterMap assertOfStatement
        = (beforeIfs suite kept).filterMap assertOfStatement := by
      rw [beforeAsserts, List.filterMap_append, hguardedAsserts, List.append_nil,
        collectIfStatements, hother SyntaxStatement.ifStmt assertOfStatement fun _ => rfl]
    rw [collectStatements_eq, List.filterMap_append, ← hbefore.2, ← hsame]
    exact hasserts

theorem filterMap_filter_isSome {ρ : Type} (record : Visit → Option ρ) (p : Visit → Bool)
    (items : List Visit) :
    ((items.filter fun visit => (record visit).isSome).filter p).filterMap record
      = (items.filter p).filterMap record := by
  rw [List.filter_filter, List.filterMap_filter, List.filterMap_filter]
  apply List.filterMap_congr
  intro visit _
  cases hrecord : record visit <;> cases p visit <;> simp

/-- A kind of site is recorded as it should be, in terms of lines. -/
theorem kind_perm_iff {ρ : Type} (kind : SiteKind ρ) {extensions unsafeAt seen : List Nat} :
    (((topSites kind suite).filter (fun visit => visit.line ∉ extensions)
          ++ firstOfKeys Visit.line seen (nestedSites kind suite)).filterMap kind.record).Perm
        (((visits {} suite).filter fun visit => visit.line ∉ unsafeAt).filterMap kind.record)
      ↔ (∀ visit ∈ visits {} suite, visit.topLevel → (kind.record visit).isSome →
          (visit.line ∈ extensions ↔ visit.line ∈ unsafeAt))
        ∧ (∀ visit ∈ visits {} suite, ¬visit.topLevel → (kind.record visit).isSome →
          (visit.line ∈ seen ↔ visit.line ∈ unsafeAt))
        ∧ (((visits {} suite).filter fun visit => !visit.topLevel && (kind.record visit).isSome
            && visit.line ∉ unsafeAt).map Visit.line).Nodup := by
  have hsome : ∀ visit ∈ topSites kind suite ++ nestedSites kind suite,
      (kind.record visit).isSome := by
    intro visit hvisit
    have hmem := (perm_sites kind suite).symm.subset hvisit
    exact (List.mem_filter.1 hmem).2
  rw [← filterMap_filter_isSome, perm_recorded_iff kind.record_line (perm_sites kind suite) hsome]
  have hnested : (nestedSites kind suite).filter (fun visit => visit.line ∉ unsafeAt)
      = (visits {} suite).filter fun visit => !visit.topLevel && (kind.record visit).isSome
          && visit.line ∉ unsafeAt := by
    rw [nestedSites, List.filter_filter]
    apply List.filter_congr
    intro visit _
    rw [Bool.and_comm]
  rw [hnested]
  refine and_congr ?_ (and_congr ?_ Iff.rfl)
  · simp only [topSites, List.mem_filter, Bool.and_eq_true, and_imp]
  · simp only [nestedSites, List.mem_filter, Bool.and_eq_true, Bool.not_eq_true', and_imp,
      Bool.not_eq_true]

theorem collectStatements_records_iff (statements : List ExtensionStatement) :
    RecordsGuards (unsafeLines statements) suite (collectStatements options suite
        ((retainedStatements options suite statements).map .extension))
      ↔ GuardsApart options statements suite := by
  rcases filterMap_collectStatements options suite (retainedStatements options suite statements) with
    ⟨hifs, hasserts⟩
  have hifsIff := @kind_perm_iff suite _ ifSites
    ((retainedStatements options suite statements).map statementLine) (unsafeLines statements)
    ((beforeIfs suite (retainedStatements options suite statements)).map SyntaxStatement.line)
  have hassertsIff := @kind_perm_iff suite _ assertSites
    ((retainedStatements options suite statements).map statementLine) []
    ((beforeAsserts options suite (retainedStatements options suite statements)).map
      SyntaxStatement.line)
  have hall : ((visits {} suite).filter fun visit => visit.line ∉ ([] : List Nat)) = visits {} suite := by
    simp
  rw [hall] at hassertsIff
  simp only [mem_lines_beforeIfs] at hifsIff
  simp only [mem_lines_beforeAsserts, List.not_mem_nil, iff_false, not_false_eq_true, decide_true,
    Bool.and_true] at hassertsIff
  constructor
  · rintro ⟨hpermIfs, hpermAsserts⟩
    rw [hifs] at hpermIfs
    rw [hasserts] at hpermAsserts
    rcases hifsIff.1 hpermIfs with ⟨htopIfs, hnestedIfs, hifLines⟩
    rcases hassertsIff.1 hpermAsserts with ⟨htopAsserts, hnestedAsserts, hassertLines⟩
    exact ⟨htopIfs, hnestedIfs, hifLines, htopAsserts, hnestedAsserts, hassertLines⟩
  · rintro ⟨htopIfs, hnestedIfs, hifLines, htopAsserts, hnestedAsserts, hassertLines⟩
    constructor
    · rw [hifs]
      exact hifsIff.2 ⟨htopIfs, hnestedIfs, hifLines⟩
    · rw [hasserts]
      exact hassertsIff.2 ⟨htopAsserts, hnestedAsserts, hassertLines⟩

end Parsers

/-- The order of the statements is of no account. -/
theorem recordsGuards_perm {unsafeAt : List Nat} {suite : List Stmt}
    {statements statements' : List SyntaxStatement} (h : statements.Perm statements') :
    RecordsGuards unsafeAt suite statements ↔ RecordsGuards unsafeAt suite statements' := by
  constructor
  · rintro ⟨hifs, hasserts⟩
    exact ⟨(h.symm.filterMap _).trans hifs, (h.symm.filterMap _).trans hasserts⟩
  · rintro ⟨hifs, hasserts⟩
    exact ⟨(h.filterMap _).trans hifs, (h.filterMap _).trans hasserts⟩

/-- The parsers record exactly the `if` and `assert` statements of the tree when, and only when,
their lines are kept apart. -/
theorem guardSites_recorded_iff (options : ParseOptions) (suite : List Stmt) :
    (RecordsGuards [] suite (parsePythonSource options suite) ↔ GuardsApart options [] suite)
      ∧ ∀ path source, (scanTypepythonSource path source).diagnostics = [] →
        (RecordsGuards (unsafeLines (scanTypepythonSource path source).statements) suite
            (parseTypepythonSource options path source suite)
          ↔ GuardsApart options (scanTypepythonSource path source).statements suite) := by
  constructor
  · rw [parsePythonSource, recordsGuards_perm (perm_sortBy _ _)]
    exact collectStatements_records_iff options suite []
  · intro path source hclean
    rw [parseTypepythonSource, hclean, if_neg (by simp), recordsGuards_perm (perm_sortBy _ _)]
    exact collectStatements_records_iff options suite _

/-! ## A guard on one line -/

/-- `if x is None: return 1` in a function. -/
def oneLineGuard : List Stmt :=
  [.functionDef ⟨1, 2⟩ "f" []
    [.ifStmt ⟨2, 2⟩ (.compare "x is None" (.name "x") [.is] [.noneLiteral])
      [.returnStmt ⟨2, 2⟩ (some (.numberLiteral "1" (some 1)))] []]]

/-- The guard is left out: its `return` has been recorded for the line. -/
theorem oneLineGuard_not_recorded :
    (parsePythonSource ⟨none, none⟩ oneLineGuard).filterMap ifOfStatement = []
      ∧ ¬ RecordsGuards [] oneLineGuard (parsePythonSource ⟨none, none⟩ oneLineGuard) := by
  have hnone : (parsePythonSource ⟨none, none⟩ oneLineGuard).filterMap ifOfStatement = [] := by
    apply List.eq_nil_of_length_eq_zero
    decide +kernel
  refine ⟨hnone, ?_⟩
  rintro ⟨hifs, -⟩
  rw [hnone] at hifs
  have hlength := hifs.length_eq
  revert hlength
  decide +kernel

/-- The same guard with its `return` on a line of its own. -/
def twoLineGuard : List Stmt :=
  [.functionDef ⟨1, 3⟩ "f" []
    [.ifStmt ⟨2, 3⟩ (.compare "x is None" (.name "x") [.is] [.noneLiteral])
      [.returnStmt ⟨3, 3⟩ (some (.numberLiteral "1" (some 1)))] []]]

def twoLineSource : Chars := "def f(x):\n    if x is None:\n        return 1\n".toList

theorem twoLineGuard_recorded :
    RecordsGuards [] twoLineGuard (parsePythonSource ⟨none, none⟩ twoLineGuard)
      ∧ RecordsGuards (unsafeLines (scanTypepythonSource "m.tpy" twoLineSource).statements)
          twoLineGuard (parseTypepythonSource ⟨none, none⟩ "m.tpy" twoLineSource twoLineGuard) := by
  have hapart : GuardsApart ⟨none, none⟩ [] twoLineGuard := by
    constructor <;> decide +kernel
  have hstatements : (scanTypepythonSource "m.tpy" twoLineSource).statements = [] := by
    apply List.eq_nil_of_length_eq_zero
    decide +kernel
  refine ⟨(guardSites_recorded_iff ⟨none, none⟩ twoLineGuard).1.2 hapart,
    ((guardSites_recorded_iff ⟨none, none⟩ twoLineGuard).2 "m.tpy" twoLineSource
      (by decide +kernel)).2 ?_⟩
  rw [hstatements]
  exact hapart

end TypePython.Syntax
