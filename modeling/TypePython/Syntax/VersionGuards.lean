import TypePython.Syntax.GuardSiteLines

/-!
# Branches that Python runs

Tests of `sys.version_info` and `sys.platform` are decided for a target of two version numbers and
a platform. Python compares all five elements of its `version_info`, and takes the first branch
whose test is true.

* `tupleSettled_iff`: when a comparison with a tuple has one answer for all versions of the target,
  and it is the one computed for the two numbers.
* `branchRuns_iff`: when Python takes the selected branch, whatever the version and the platform
  beyond the target.
* `recordedOnce_iff`: when the statements of the selected branch are all recorded.
-/

namespace TypePython.Syntax

open TypePython.Lib
open TypePython.Lib.Text

/-! ## Comparisons of Python -/

/-- A value that stands in a tuple: whole numbers and texts are ordered, each among themselves. -/
inductive PyValue where
  | int (value : Nat)
  | text (value : String)
  | object
deriving DecidableEq

/-- How two values are to each other: in some order, or different without an order. -/
inductive Difference where
  | ordered (order : Ordering)
  | mixed
deriving DecidableEq

def PyValue.difference : PyValue → PyValue → Difference
  | .int a, .int b => .ordered (compare a b)
  | .text a, .text b => .ordered (compare a b)
  | _, _ => .mixed

/-- Tuples are told apart by their first different elements, else by their lengths. -/
def tupleDifference : List PyValue → List PyValue → Difference
  | [], [] => .ordered .eq
  | [], _ :: _ => .ordered .lt
  | _ :: _, [] => .ordered .gt
  | a :: as, b :: bs =>
    match a.difference b with
    | .ordered .eq => tupleDifference as bs
    | difference => difference

/-- What an operator says of different values; an order that is not there is an error. -/
def CmpOp.answer : CmpOp → Difference → Option Bool
  | .eq, difference => some (difference = .ordered .eq)
  | .notEq, difference => some (difference ≠ .ordered .eq)
  | .lt, .ordered order => some order.isLT
  | .ltE, .ordered order => some order.isLE
  | .gt, .ordered order => some order.isGT
  | .gtE, .ordered order => some order.isGE
  | _, _ => none

/-! ## Runtimes -/

inductive ReleaseLevel where
  | alpha
  | beta
  | candidate
  | final
deriving DecidableEq

def ReleaseLevel.name : ReleaseLevel → String
  | .alpha => "alpha"
  | .beta => "beta"
  | .candidate => "candidate"
  | .final => "final"

/-- A Python that runs a module. The value of an expression that is no literal depends on the
module around it; evaluating it may fail. -/
structure PythonRuntime where
  version : ParsePythonVersion
  micro : Nat
  releaseLevel : ReleaseLevel
  serial : Nat
  platform : String
  value : Expr → Option PyValue
  truth : Expr → Option Bool

namespace PythonRuntime

/-- What stands after the two version numbers. -/
def tail (runtime : PythonRuntime) : List PyValue :=
  [.int runtime.micro, .text runtime.releaseLevel.name, .int runtime.serial]

def versionInfo (runtime : PythonRuntime) : List PyValue :=
  .int runtime.version.major :: .int runtime.version.minor :: runtime.tail

/-- The runtime is one of the target. -/
structure Suits (runtime : PythonRuntime) (options : ParseOptions) : Prop where
  version : ∀ target, options.targetPython = some target → runtime.version = target
  platform : ∀ target, options.targetPlatform = some target →
    runtime.platform = target.sysPlatformName

section

variable (literalValue : String → String) (runtime : PythonRuntime)

/-- The value of an element; `literalValue` is what Python reads of the text of a string. -/
def element : Expr → Option PyValue
  | .numberLiteral _ (some value) => some (.int value)
  | .stringLiteral text => some (.text (literalValue text))
  | expr => runtime.value expr

/-- Whether Python finds a test true. A tuple and a number are different, without an order. -/
def holds (test : Expr) : Option Bool :=
  match test with
  | .compare _ (.attribute _ (.name id) attr) [op] [comparator] =>
    if attr = "version_info" ∧ id = "sys" then
      match comparator with
      | .tuple _ elts =>
        (elts.mapM (runtime.element literalValue)).bind fun values =>
          op.answer (tupleDifference runtime.versionInfo values)
      | .numberLiteral _ _ => op.answer .mixed
      | _ => runtime.truth test
    else if attr = "platform" ∧ id = "sys" then
      match comparator with
      | .stringLiteral text =>
        op.answer (.ordered (compare runtime.platform (literalValue text)))
      | _ => runtime.truth test
    else runtime.truth test
  | _ => runtime.truth test

end

end PythonRuntime

/-! ## Branches -/

variable {clauses : List (Option Expr × List Stmt)} {test : Expr} {selection : Selection}

section Branches

variable (holds : Expr → Option Bool)

/-- The clause that is taken, the tests being evaluated one after the other. -/
def clauseTaken : Nat → List (Option Expr × List Stmt) → Option Selection
  | _, [] => some .nothing
  | index, (none, _) :: _ => some (.clause index)
  | index, (some test, _) :: rest =>
    (holds test).bind fun taken =>
      if taken then some (.clause index) else clauseTaken (index + 1) rest

attribute [grind =] clauseTaken

def branchTaken (test : Expr) (clauses : List (Option Expr × List Stmt)) : Option Selection :=
  (holds test).bind fun taken => if taken then some .body else clauseTaken holds 0 clauses

/-- The tests of clauses that are evaluated. -/
def consultedClauses : List (Option Expr × List Stmt) → List Expr
  | [] => []
  | (none, _) :: _ => []
  | (some test, _) :: rest =>
    test :: if holds test = some true then [] else consultedClauses rest

def consulted (test : Expr) (clauses : List (Option Expr × List Stmt)) : List Expr :=
  test :: if holds test = some true then [] else consultedClauses holds clauses

theorem selectedClause_eq (options : ParseOptions) (index : Nat)
    (clauses : List (Option Expr × List Stmt)) :
    selectedClause options index clauses
      = clauseTaken (evaluateGuardedImportExpr options) index clauses := by
  induction clauses generalizing index with
  | nil => rfl
  | cons clause rest ih =>
    rcases clause with ⟨_ | test, body⟩
    · rfl
    · simp only [selectedClause, clauseTaken, ih]

theorem selectedGuardedImportSuite_eq (options : ParseOptions) (test : Expr)
    (clauses : List (Option Expr × List Stmt)) :
    selectedGuardedImportSuite options test clauses
      = branchTaken (evaluateGuardedImportExpr options) test clauses := by
  simp only [selectedGuardedImportSuite, branchTaken, selectedClause_eq]

variable {holds} {holds' : Expr → Option Bool}

/-- A clause is taken from the index on. -/
theorem index_le_of_clauseTaken {start index : Nat}
    (h : clauseTaken holds start clauses = some (.clause index)) : start ≤ index := by
  induction clauses generalizing start with
  | nil => cases h
  | cons clause rest ih =>
    rcases clause with ⟨_ | test, body⟩
    · cases h
      exact le_rfl
    · rw [clauseTaken] at h
      rcases Option.bind_eq_some_iff.1 h with ⟨taken, -, hrest⟩
      split_ifs at hrest
      · cases hrest
        exact le_rfl
      · exact (Nat.le_succ start).trans (ih hrest)

theorem clauseTaken_ne_body {start : Nat} : clauseTaken holds start clauses ≠ some .body := by
  induction clauses generalizing start with
  | nil => exact nofun
  | cons clause rest ih =>
    rcases clause with ⟨_ | test, body⟩
    · exact nofun
    · intro h
      rw [clauseTaken] at h
      rcases Option.bind_eq_some_iff.1 h with ⟨taken, -, hrest⟩
      split_ifs at hrest
      · cases hrest
      · exact ih hrest

/-- The same clause is taken exactly if the tests that were evaluated have the same answers. -/
theorem clauseTaken_iff {clauses : List (Option Expr × List Stmt)} {start : Nat}
    {selection : Selection} (h : clauseTaken holds start clauses = some selection) :
    clauseTaken holds' start clauses = some selection
      ↔ ∀ test ∈ consultedClauses holds clauses, holds' test = holds test := by
  induction clauses generalizing start with
  | nil => exact iff_of_true h nofun
  | cons clause rest ih =>
    rcases clause with ⟨_ | test, body⟩
    · exact iff_of_true h nofun
    · rw [clauseTaken] at h ⊢
      rcases Option.bind_eq_some_iff.1 h with ⟨taken, htaken, hselected⟩
      rw [consultedClauses, List.forall_mem_cons, htaken]
      cases taken with
      | true =>
        rw [if_pos rfl] at hselected ⊢
        cases hselected
        constructor
        · intro hsame
          rcases Option.bind_eq_some_iff.1 hsame with ⟨taken', htaken', hselected'⟩
          refine ⟨?_, nofun⟩
          cases taken' with
          | true => exact htaken'
          | false =>
            -- a later clause has a greater index
            have hle := index_le_of_clauseTaken hselected'
            omega
        · intro hsame
          rw [hsame.1]
          rfl
      | false =>
        rw [if_neg Bool.false_ne_true] at hselected
        have hrest := ih hselected
        constructor
        · intro hsame
          rcases Option.bind_eq_some_iff.1 hsame with ⟨taken', htaken', hselected'⟩
          cases taken' with
          | true =>
            cases hselected'
            have hle := index_le_of_clauseTaken hselected
            omega
          | false => exact ⟨htaken', hrest.1 hselected'⟩
        · rintro ⟨hfirst, hothers⟩
          rw [hfirst]
          exact hrest.2 hothers

theorem branchTaken_iff (h : branchTaken holds test clauses = some selection) :
    branchTaken holds' test clauses = some selection
      ↔ ∀ test' ∈ consulted holds test clauses, holds' test' = holds test' := by
  unfold branchTaken at h ⊢
  rcases Option.bind_eq_some_iff.1 h with ⟨taken, htaken, hselected⟩
  rw [consulted, List.forall_mem_cons, htaken]
  cases taken with
  | true =>
    cases hselected
    constructor
    · intro hsame
      rcases Option.bind_eq_some_iff.1 hsame with ⟨taken', htaken', hselected'⟩
      refine ⟨?_, nofun⟩
      cases taken' with
      | true => exact htaken'
      | false => exact absurd hselected' clauseTaken_ne_body
    · intro hsame
      rw [hsame.1]
      rfl
  | false =>
    rw [if_neg Bool.false_ne_true] at hselected
    have hrest := @clauseTaken_iff holds holds' _ _ _ hselected
    constructor
    · intro hsame
      rcases Option.bind_eq_some_iff.1 hsame with ⟨taken', htaken', hselected'⟩
      cases taken' with
      | true =>
        cases hselected'
        exact absurd hselected clauseTaken_ne_body
      | false => exact ⟨htaken', hrest.1 hselected'⟩
    · rintro ⟨hfirst, hothers⟩
      rw [hfirst]
      exact hrest.2 hothers

/-- A test that is evaluated has an answer. -/
theorem isSome_of_consultedClauses {start : Nat}
    (h : clauseTaken holds start clauses = some selection) :
    ∀ test ∈ consultedClauses holds clauses, (holds test).isSome = true := by
  induction clauses generalizing start with
  | nil => exact nofun
  | cons clause rest ih =>
    rcases clause with ⟨_ | test, body⟩
    · exact nofun
    · rw [clauseTaken] at h
      rcases Option.bind_eq_some_iff.1 h with ⟨taken, htaken, hselected⟩
      rw [consultedClauses, List.forall_mem_cons, htaken]
      refine ⟨rfl, ?_⟩
      cases taken with
      | true => exact nofun
      | false =>
        rw [if_neg Bool.false_ne_true] at hselected
        exact ih hselected

theorem isSome_of_consulted (h : branchTaken holds test clauses = some selection) :
    ∀ test' ∈ consulted holds test clauses, (holds test').isSome = true := by
  unfold branchTaken at h
  rcases Option.bind_eq_some_iff.1 h with ⟨taken, htaken, hselected⟩
  rw [consulted, List.forall_mem_cons, htaken]
  refine ⟨rfl, ?_⟩
  cases taken with
  | true => exact nofun
  | false =>
    rw [if_neg Bool.false_ne_true] at hselected
    exact isSome_of_consultedClauses hselected

end Branches

/-! ## Tests that the target settles -/

def CmpOp.isEquality : CmpOp → Bool
  | .eq | .notEq => true
  | _ => false

/-- The operator does not tell a version from a greater one. -/
def CmpOp.boundsBelow : CmpOp → Bool
  | .lt | .gtE => true
  | _ => false

/-- What stands in the smallest version after the two numbers. -/
def smallestTail : List PyValue := [.int 0, .text "alpha", .int 0]

/-- No version that starts with the same two numbers is below. -/
def notAbove (rest : List PyValue) : Bool :=
  match tupleDifference smallestTail rest with
  | .ordered order => order.isGE
  | .mixed => false

/-- All versions of the target are to the tuple as the two numbers are to the first two elements,
a missing one and one over 255 being read as zero. -/
def TupleSettled (target : ParsePythonVersion) (op : CmpOp) : List PyValue → Prop
  | .int major :: rest =>
    target.major = major →
      match rest with
      | [] => op.boundsBelow = true ∨ target.minor ≠ 0
      | .int minor :: rest =>
        if target.minor = minor then op.boundsBelow = true ∧ notAbove rest = true
        else minor ≤ 255 ∨ op.answer (.ordered (compare target.minor minor))
          = op.answer (.ordered (compare target.minor 0))
      | _ :: _ => op.isEquality = true ∧ target.minor ≠ 0
  | _ => True

section Settled

variable (literalValue : String → String)

/-- The value of an element that needs no evaluation. -/
def literalElement : Expr → Option PyValue
  | .numberLiteral _ (some value) => some (.int value)
  | .stringLiteral text => some (.text (literalValue text))
  | _ => none

/-- A comparison with a version has one answer, the one for the two numbers. -/
def VersionSettled (target : ParsePythonVersion) (op : CmpOp) : Expr → Prop
  | .tuple _ elts => ∃ values, elts.mapM (literalElement literalValue) = some values
      ∧ TupleSettled target op values
  | .numberLiteral _ value => op.isEquality = true ∧ ∀ major, value = some major →
      target ≠ { major, minor := 0 }
  | _ => True

/-- The text between the quotes is the platform exactly when the string is. -/
def PlatformSettled (platform : String) : Expr → Prop
  | .stringLiteral text =>
    extractStringLiteralValue text = some platform ↔ literalValue text = platform
  | _ => True

def TestSettled (options : ParseOptions) : Expr → Prop
  | .compare _ (.attribute _ (.name _) attr) [op] [comparator] =>
    (attr = "version_info" → ∀ target, options.targetPython = some target →
      VersionSettled literalValue target op comparator)
    ∧ (attr = "platform" → ∀ target, options.targetPlatform = some target →
      PlatformSettled literalValue target.sysPlatformName comparator)
  | _ => True

end Settled

/-! ### Orders of versions -/

/-- Versions are compared by their major, then by their minor numbers. -/
def versionOrder (target expected : ParsePythonVersion) : Ordering :=
  (compare target.major expected.major).then (compare target.minor expected.minor)

theorem isLT_versionOrder (target expected : ParsePythonVersion) :
    (versionOrder target expected).isLT = target.lt expected := by
  unfold versionOrder ParsePythonVersion.lt
  rcases lt_trichotomy target.major expected.major with hlt | heq | hgt
  · rw [Nat.compare_eq_lt.2 hlt]
    simp [hlt, Ordering.then]
  · rw [heq, Nat.compare_eq_eq.2 rfl]
    rcases lt_trichotomy target.minor expected.minor with hlt' | heq' | hgt'
    · rw [Nat.compare_eq_lt.2 hlt']
      simp [hlt', Ordering.then]
    · rw [heq', Nat.compare_eq_eq.2 rfl]
      simp [Ordering.then]
    · rw [Nat.compare_eq_gt.2 hgt']
      simp [Ordering.then]
      omega
  · rw [Nat.compare_eq_gt.2 hgt]
    simp [Ordering.then]
    omega

theorem versionOrder_swap (target expected : ParsePythonVersion) :
    versionOrder expected target = (versionOrder target expected).swap := by
  unfold versionOrder
  rw [Ordering.swap_then, Nat.compare_swap, Nat.compare_swap]

theorem versionOrder_eq_eq {target expected : ParsePythonVersion} :
    versionOrder target expected = .eq ↔ target = expected := by
  unfold versionOrder
  rw [Ordering.then_eq_eq, Nat.compare_eq_eq, Nat.compare_eq_eq]
  cases target
  cases expected
  simp

/-- The comparison that is computed is that of the versions as tuples. -/
theorem compareVersions_eq (op : CmpOp) (target expected : ParsePythonVersion) :
    compareVersions op target expected = op.answer (.ordered (versionOrder target expected)) := by
  have hlt := isLT_versionOrder target expected
  have hgt := isLT_versionOrder expected target
  rw [versionOrder_swap target] at hgt
  have heq := @versionOrder_eq_eq target expected
  cases op <;> simp only [compareVersions, CmpOp.answer, Difference.ordered.injEq, heq,
    Option.some.injEq, ← hlt, ← hgt, ne_eq]
  all_goals cases versionOrder target expected <;> rfl

/-! ### Comparisons with tuples -/

theorem tupleDifference_int (a b : Nat) (as bs : List PyValue) :
    tupleDifference (.int a :: as) (.int b :: bs)
      = if a = b then tupleDifference as bs else .ordered (compare a b) := by
  rw [tupleDifference, PyValue.difference]
  by_cases hsame : a = b
  · rw [if_pos hsame, Nat.compare_eq_eq.2 hsame]
  · rw [if_neg hsame]
    rcases Nat.lt_or_gt_of_ne hsame with hlt | hgt
    · rw [Nat.compare_eq_lt.2 hlt]
    · rw [Nat.compare_eq_gt.2 hgt]

theorem alpha_le (level : ReleaseLevel) : (compare level.name "alpha").isGE = true := by
  cases level <;> decide

/-- No tail is below the smallest one. -/
theorem tail_of_notAbove {rest : List PyValue} (h : notAbove rest = true)
    (runtime : PythonRuntime) :
    ∃ order, tupleDifference runtime.tail rest = .ordered order ∧ order.isGE = true := by
  unfold notAbove smallestTail at h
  unfold PythonRuntime.tail
  rcases rest with _ | ⟨_ | _ | _, rest⟩
  · exact ⟨.gt, rfl, rfl⟩
  · rename_i micro
    rw [tupleDifference_int] at h ⊢
    by_cases hzero : 0 = micro
    · subst hzero
      rw [if_pos rfl] at h
      by_cases hmicro : runtime.micro = 0
      · rw [if_pos hmicro]
        rcases rest with _ | ⟨_ | level | _, rest⟩
        · exact ⟨.gt, rfl, rfl⟩
        · cases h
        · -- the levels are compared as texts
          rw [tupleDifference, PyValue.difference] at h ⊢
          have hlevel := alpha_le runtime.releaseLevel
          cases halpha : compare "alpha" level with
          | lt =>
            rw [halpha] at h
            cases h
          | eq =>
            rw [halpha] at h
            rw [Std.LawfulEqOrd.compare_eq_iff_eq.1 halpha] at hlevel
            cases hname : compare runtime.releaseLevel.name level with
            | lt =>
              rw [hname] at hlevel
              cases hlevel
            | gt => exact ⟨.gt, rfl, rfl⟩
            | eq =>
              simp only at h ⊢
              rcases rest with _ | ⟨_ | _ | _, rest⟩
              · exact ⟨.gt, rfl, rfl⟩
              · rename_i serial
                rw [tupleDifference_int] at h ⊢
                by_cases hserial : 0 = serial
                · subst hserial
                  rw [if_pos rfl] at h
                  have hrest : rest = [] := by
                    rcases rest with _ | ⟨value, rest⟩
                    · rfl
                    · cases h
                  subst hrest
                  by_cases hsame : runtime.serial = 0
                  · rw [if_pos hsame]
                    exact ⟨.eq, rfl, rfl⟩
                  · rw [if_neg hsame, Nat.compare_eq_gt.2 (Nat.pos_of_ne_zero hsame)]
                    exact ⟨.gt, rfl, rfl⟩
                · rw [if_neg hserial, Nat.compare_eq_lt.2 (by omega)] at h
                  cases h
              · cases h
              · cases h
          | gt =>
            have hgreater : compare runtime.releaseLevel.name level = .gt :=
              Std.TransCmp.gt_of_isGE_of_gt hlevel halpha
            rw [hgreater]
            exact ⟨.gt, rfl, rfl⟩
        · cases h
      · rw [if_neg hmicro, Nat.compare_eq_gt.2 (Nat.pos_of_ne_zero hmicro)]
        exact ⟨.gt, rfl, rfl⟩
    · rw [if_neg hzero, Nat.compare_eq_lt.2 (by omega)] at h
      cases h
  · cases h
  · cases h

/-- A later version is above the tuple, or has no order with it. -/
theorem exists_micro_above (rest : List PyValue) : ∃ micro : Nat,
    ∀ runtime : PythonRuntime, runtime.micro = micro →
      tupleDifference runtime.tail rest = .ordered .gt
        ∨ tupleDifference runtime.tail rest = .mixed := by
  rcases rest with _ | ⟨micro | text | _, rest⟩
  · exact ⟨0, fun runtime _ => .inl rfl⟩
  · refine ⟨micro + 1, fun runtime hmicro => .inl ?_⟩
    rw [PythonRuntime.tail, tupleDifference_int, hmicro, if_neg (by omega),
      Nat.compare_eq_gt.2 (Nat.lt_succ_self micro)]
  · exact ⟨0, fun runtime _ => .inr rfl⟩
  · exact ⟨0, fun runtime _ => .inr rfl⟩

/-- Operators that bound from below answer alike for equals and for what is above. -/
theorem answer_of_boundsBelow {op : CmpOp} (hop : op.boundsBelow = true) {order : Ordering}
    (horder : order.isGE = true) : op.answer (.ordered order) = op.answer (.ordered .eq) := by
  cases op <;> cases hop <;> cases order <;> first | rfl | cases horder

theorem boundsBelow_of_answer {op : CmpOp} {difference : Difference}
    (hanswered : (op.answer (.ordered .eq)).isSome = true)
    (hdifference : difference = .ordered .gt ∨ difference = .mixed)
    (h : op.answer difference = op.answer (.ordered .eq)) : op.boundsBelow = true := by
  rcases hdifference with rfl | rfl <;> cases op <;>
    first | rfl | exact absurd h (by decide) | exact absurd hanswered (by decide)

theorem isGE_of_answer {op : CmpOp} (hop : op.boundsBelow = true) {difference : Difference}
    (h : op.answer difference = op.answer (.ordered .eq)) :
    ∃ order, difference = .ordered order ∧ order.isGE = true := by
  cases difference with
  | mixed => cases op <;> cases hop <;> cases h
  | ordered order =>
    refine ⟨order, rfl, ?_⟩
    cases op <;> cases hop <;> cases order <;> first | rfl | exact absurd h (by decide)

theorem answer_mixed_iff {op : CmpOp} {order : Ordering}
    (hanswered : (op.answer (.ordered order)).isSome = true) :
    op.answer .mixed = op.answer (.ordered order) ↔ op.isEquality = true ∧ order ≠ .eq := by
  cases op <;> cases order <;>
    first | exact absurd hanswered (by decide) | decide

/-! ### Settled comparisons -/

section

variable {literalValue : String → String} {options : ParseOptions}

/-- A runtime of the target that can evaluate literals only. -/
def runtimeOf (options : ParseOptions) (micro : Nat) : PythonRuntime where
  version := options.targetPython.getD ⟨0, 0⟩
  micro := micro
  releaseLevel := .alpha
  serial := 0
  platform := (options.targetPlatform.map ParseTargetPlatform.sysPlatformName).getD ""
  value := fun _ => none
  truth := fun _ => none

theorem runtimeOf_suits (options : ParseOptions) (micro : Nat) :
    (runtimeOf options micro).Suits options where
  version := by
    intro target htarget
    rw [runtimeOf, htarget, Option.getD_some]
  platform := by
    intro target htarget
    rw [runtimeOf, htarget, Option.map_some, Option.getD_some]

/-- The runtime has no values but those of literals. -/
theorem element_runtimeOf (micro : Nat) (expr : Expr) :
    (runtimeOf options micro).element literalValue expr = literalElement literalValue expr := by
  unfold PythonRuntime.element literalElement
  split <;> rfl

theorem element_of_literal (runtime : PythonRuntime) {expr : Expr} {value : PyValue}
    (h : literalElement literalValue expr = some value) :
    runtime.element literalValue expr = some value := by
  unfold literalElement at h
  unfold PythonRuntime.element
  split at h
  · exact h
  · exact h
  · cases h

theorem mapM_element_of_literal (runtime : PythonRuntime) {elts : List Expr}
    {values : List PyValue} (h : elts.mapM (literalElement literalValue) = some values) :
    elts.mapM (runtime.element literalValue) = some values := by
  induction elts generalizing values with
  | nil => exact h
  | cons expr rest ih =>
    rw [List.mapM_cons] at h ⊢
    rcases Option.bind_eq_some_iff.1 h with ⟨value, hvalue, hrest⟩
    rcases Option.bind_eq_some_iff.1 hrest with ⟨others, hothers, hvalues⟩
    rw [element_of_literal runtime hvalue, ih hothers]
    exact hvalues

variable {target expected : ParsePythonVersion} {op : CmpOp} {values : List PyValue}

/-- How a comparison with the elements turns out, where the major numbers are the same. -/
theorem versionInfo_difference (runtime : PythonRuntime) (major : Nat) (rest : List PyValue) :
    tupleDifference runtime.versionInfo (.int major :: rest)
      = if runtime.version.major = major then
          tupleDifference (.int runtime.version.minor :: runtime.tail) rest
        else .ordered (compare runtime.version.major major) :=
  tupleDifference_int _ _ _ _

/-- The version that is computed, and the values of the elements. -/
structure ReadsTuple (expected : ParsePythonVersion) (values : List PyValue) : Prop where
  first : values.head? = some (.int expected.major)
  second : expected.minor = match values.tail with
    | .int minor :: _ => if minor ≤ 255 then minor else 0
    | _ => 0

theorem readsTuple_of_parse {text : String} {elts : List Expr}
    (hexpected : parseGuardedPythonVersion (.tuple text elts) = some expected)
    (hvalues : elts.mapM (literalElement literalValue) = some values) :
    ReadsTuple expected values := by
  unfold parseGuardedPythonVersion at hexpected
  split at hexpected
  · rename_i majorText major rest heq
    cases heq
    rw [Option.map_eq_some_iff] at hexpected
    rcases hexpected with ⟨component, hcomponent, rfl⟩
    rw [parseSmallPythonVersionComponent, Option.filter_eq_some_iff] at hcomponent
    obtain ⟨rfl, -⟩ := hcomponent
    rw [List.mapM_cons] at hvalues
    rcases Option.bind_eq_some_iff.1 hvalues with ⟨value, hvalue, hrest⟩
    rcases Option.bind_eq_some_iff.1 hrest with ⟨others, hothers, hcons⟩
    cases hvalue
    cases hcons
    refine ⟨rfl, ?_⟩
    rw [List.tail_cons]
    rcases rest with _ | ⟨expr, rest⟩
    · cases hothers
      rfl
    · rw [List.mapM_cons] at hothers
      rcases Option.bind_eq_some_iff.1 hothers with ⟨minor, hminor, hrest'⟩
      rcases Option.bind_eq_some_iff.1 hrest' with ⟨others', -, hcons'⟩
      cases hcons'
      unfold literalElement at hminor
      split at hminor
      · rename_i minorText number
        cases hminor
        simp only [parseSmallPythonVersionComponent, Option.filter_some, decide_eq_true_eq]
        split <;> rfl
      · cases hminor
        rfl
      · cases hminor
  · rename_i heq
    cases heq
  · cases hexpected

/-- All versions of the target are to the elements as the two numbers are, exactly if the tuple is
settled. -/
theorem tupleSettled_iff (hversion : options.targetPython = some target)
    (hminor : target.minor ≤ 255) (hreads : ReadsTuple expected values)
    (hanswered : (op.answer (.ordered (versionOrder target expected))).isSome = true) :
    (∀ runtime : PythonRuntime, runtime.Suits options →
      op.answer (tupleDifference runtime.versionInfo values)
        = op.answer (.ordered (versionOrder target expected)))
      ↔ TupleSettled target op values := by
  rcases values with _ | ⟨first, rest⟩
  · cases hreads.first
  cases Option.some.inj hreads.first
  unfold TupleSettled
  by_cases hmajor : target.major = expected.major
  · -- the minor numbers decide, or what follows them
    have horder : versionOrder target expected = compare target.minor expected.minor := by
      rw [versionOrder, Nat.compare_eq_eq.2 hmajor]
      rfl
    have hruntime : ∀ runtime : PythonRuntime, runtime.Suits options →
        tupleDifference runtime.versionInfo (.int expected.major :: rest)
          = tupleDifference (.int target.minor :: runtime.tail) rest := by
      intro runtime hsuits
      rw [versionInfo_difference, hsuits.version target hversion, if_pos hmajor]
    have hsuits := runtimeOf_suits options
    rw [horder] at hanswered ⊢
    have hsecond := hreads.second
    rw [List.tail_cons] at hsecond
    rcases rest with _ | ⟨minor | text | _, rest⟩
    · -- only the major number is given
      dsimp only at hsecond ⊢
      rw [hsecond] at hanswered ⊢
      have hgreater : ∀ runtime : PythonRuntime, runtime.Suits options →
          tupleDifference runtime.versionInfo [.int expected.major] = .ordered .gt :=
        fun runtime h => hruntime runtime h
      constructor
      · intro h _
        by_cases hzero : target.minor = 0
        · have hsame := h _ (hsuits 0)
          rw [hgreater _ (hsuits 0), hzero, Nat.compare_eq_eq.2 rfl] at hsame
          rw [hzero, Nat.compare_eq_eq.2 rfl] at hanswered
          exact .inl (boundsBelow_of_answer hanswered (.inl rfl) hsame)
        · exact .inr hzero
      · intro h runtime hsuit
        rw [hgreater runtime hsuit]
        by_cases hzero : target.minor = 0
        · rw [hzero, Nat.compare_eq_eq.2 rfl]
          exact answer_of_boundsBelow ((h hmajor).resolve_right fun hne => hne hzero) rfl
        · rw [Nat.compare_eq_gt.2 (Nat.pos_of_ne_zero hzero)]
    · -- a second number
      dsimp only at hsecond ⊢
      by_cases hsame : target.minor = minor
      · subst hsame
        rw [if_pos hminor] at hsecond
        have heq : compare target.minor expected.minor = .eq := Nat.compare_eq_eq.2 hsecond.symm
        rw [heq] at hanswered ⊢
        rw [if_pos rfl]
        have htail : ∀ runtime : PythonRuntime, runtime.Suits options →
            tupleDifference runtime.versionInfo (.int expected.major :: .int target.minor :: rest)
              = tupleDifference runtime.tail rest := by
          intro runtime hsuit
          rw [hruntime runtime hsuit, tupleDifference_int, if_pos rfl]
        constructor
        · intro h _
          rcases exists_micro_above rest with ⟨micro, habove⟩
          have hlate := h _ (hsuits micro)
          rw [htail _ (hsuits micro)] at hlate
          have hop := boundsBelow_of_answer hanswered (habove (runtimeOf options micro) rfl) hlate
          have hfirst := h _ (hsuits 0)
          rw [htail _ (hsuits 0)] at hfirst
          rcases isGE_of_answer hop hfirst with ⟨order, horder', hge⟩
          refine ⟨hop, ?_⟩
          have hsmallest : tupleDifference smallestTail rest = .ordered order := horder'
          rw [notAbove, hsmallest]
          exact hge
        · intro h runtime hsuit
          obtain ⟨hop, hnot⟩ := h hmajor
          rcases tail_of_notAbove hnot runtime with ⟨order, horder', hge⟩
          rw [htail runtime hsuit, horder']
          exact answer_of_boundsBelow hop hge
      · rw [if_neg hsame]
        have hdecided : ∀ runtime : PythonRuntime, runtime.Suits options →
            tupleDifference runtime.versionInfo (.int expected.major :: .int minor :: rest)
              = .ordered (compare target.minor minor) := by
          intro runtime hsuit
          rw [hruntime runtime hsuit, tupleDifference_int, if_neg hsame]
        constructor
        · intro h _
          by_cases hsmall : minor ≤ 255
          · exact .inl hsmall
          · rw [if_neg hsmall] at hsecond
            have hanswer := h _ (hsuits 0)
            rw [hdecided _ (hsuits 0), hsecond] at hanswer
            exact .inr hanswer
        · intro h runtime hsuit
          rw [hdecided runtime hsuit, hsecond]
          rcases h hmajor with hsmall | hanswer
          · rw [if_pos hsmall]
          · by_cases hsmall : minor ≤ 255
            · rw [if_pos hsmall]
            · rw [if_neg hsmall]
              exact hanswer
    all_goals
      -- a second element that is no number
      dsimp only at hsecond ⊢
      rw [hsecond] at hanswered ⊢
      have hmixed : ∀ runtime : PythonRuntime, runtime.Suits options →
          tupleDifference runtime.versionInfo (.int expected.major :: _ :: rest) = .mixed :=
        fun runtime h => hruntime runtime h
      have hzero : compare target.minor 0 ≠ .eq ↔ target.minor ≠ 0 :=
        not_congr Nat.compare_eq_eq
      constructor
      · intro h _
        have hanswer := h _ (hsuits 0)
        rw [hmixed _ (hsuits 0), answer_mixed_iff hanswered, hzero] at hanswer
        exact hanswer
      · intro h runtime hsuit
        rw [hmixed runtime hsuit, answer_mixed_iff hanswered, hzero]
        exact h hmajor
  · -- the major numbers decide
    refine iff_of_true (fun runtime hsuits => ?_) fun h => absurd h hmajor
    rw [versionInfo_difference, hsuits.version target hversion, if_neg hmajor, versionOrder]
    rcases Nat.lt_or_gt_of_ne hmajor with hlt | hgt
    · rw [Nat.compare_eq_lt.2 hlt]
      rfl
    · rw [Nat.compare_eq_gt.2 hgt]
      rfl

/-- The numbers of a target are bytes. -/
def ParseOptions.InRange (options : ParseOptions) : Prop :=
  ∀ target, options.targetPython = some target → target.minor ≤ 255

/-- A comparison with a version agrees with every runtime exactly if it is settled. -/
theorem versionSettled_iff {target expected : ParsePythonVersion} {op : CmpOp} {comparator : Expr}
    {text text' : String} (hversion : options.targetPython = some target)
    (hminor : target.minor ≤ 255) (hexpected : parseGuardedPythonVersion comparator = some expected)
    (hanswered : (op.answer (.ordered (versionOrder target expected))).isSome = true) :
    (∀ runtime : PythonRuntime, runtime.Suits options →
      runtime.holds literalValue
          (.compare text (.attribute text' (.name "sys") "version_info") [op] [comparator])
        = op.answer (.ordered (versionOrder target expected)))
      ↔ VersionSettled literalValue target op comparator := by
  unfold parseGuardedPythonVersion at hexpected
  split at hexpected
  · -- a tuple: its elements have to be literals
    rename_i tupleText majorText major rest
    have hparsed : parseGuardedPythonVersion
        (.tuple tupleText (.numberLiteral majorText major :: rest)) = some expected := hexpected
    simp only [PythonRuntime.holds, and_self, if_true, VersionSettled]
    constructor
    · intro h
      have hvalues : ∃ values, (Expr.numberLiteral majorText major :: rest).mapM
          (literalElement literalValue) = some values := by
        have hearly := h _ (runtimeOf_suits options 0)
        rw [funext (element_runtimeOf 0)] at hearly
        rw [← hearly] at hanswered
        rcases Option.isSome_iff_exists.1 hanswered with ⟨answer, hanswer⟩
        rcases Option.bind_eq_some_iff.1 hanswer with ⟨values, hvalues, -⟩
        exact ⟨values, hvalues⟩
      rcases hvalues with ⟨values, hvalues⟩
      refine ⟨values, hvalues,
        (tupleSettled_iff hversion hminor (readsTuple_of_parse hparsed hvalues) hanswered).1 ?_⟩
      intro runtime hsuits
      have hanswer := h runtime hsuits
      rw [mapM_element_of_literal runtime hvalues] at hanswer
      exact hanswer
    · rintro ⟨values, hvalues, hsettled⟩ runtime hsuits
      rw [mapM_element_of_literal runtime hvalues]
      exact (tupleSettled_iff hversion hminor (readsTuple_of_parse hparsed hvalues)
        hanswered).2 hsettled runtime hsuits
  · -- a number has no order with a tuple
    rename_i numberText value
    rcases Option.map_eq_some_iff.1 hexpected with ⟨major, hmajor, rfl⟩
    rw [parseSmallPythonVersionComponent, Option.filter_eq_some_iff] at hmajor
    obtain ⟨rfl, -⟩ := hmajor
    simp only [PythonRuntime.holds, and_self, if_true, VersionSettled, Option.some.injEq,
      forall_eq', answer_mixed_iff hanswered, ne_eq, versionOrder_eq_eq]
    exact ⟨fun h => h _ (runtimeOf_suits options 0), fun h _ _ => h⟩
  · cases hexpected

/-- A comparison with a text agrees with every runtime exactly if the text is read as it is. -/
theorem platformSettled_iff {target : ParseTargetPlatform} {op : CmpOp} {expected text text' : String}
    {literal : String} (hplatform : options.targetPlatform = some target)
    (hexpected : extractStringLiteralValue literal = some expected)
    (hop : op.isEquality = true) :
    (∀ runtime : PythonRuntime, runtime.Suits options →
      runtime.holds literalValue
          (.compare text (.attribute text' (.name "sys") "platform") [op] [.stringLiteral literal])
        = op.answer (.ordered (compare target.sysPlatformName expected)))
      ↔ PlatformSettled literalValue target.sysPlatformName (.stringLiteral literal) := by
  have hholds : ∀ runtime : PythonRuntime, runtime.Suits options →
      runtime.holds literalValue
          (.compare text (.attribute text' (.name "sys") "platform") [op] [.stringLiteral literal])
        = op.answer (.ordered (compare target.sysPlatformName (literalValue literal))) := by
    intro runtime hsuits
    unfold PythonRuntime.holds
    dsimp only
    rw [if_neg fun h => absurd h.1 (by decide), if_pos ⟨rfl, rfl⟩,
      hsuits.platform target hplatform]
  have hsame : op.answer (.ordered (compare target.sysPlatformName (literalValue literal)))
      = op.answer (.ordered (compare target.sysPlatformName expected))
      ↔ (expected = target.sysPlatformName ↔ literalValue literal = target.sysPlatformName) := by
    have heq : ∀ text, compare target.sysPlatformName text = .eq ↔ text = target.sysPlatformName :=
      fun text => Std.LawfulEqOrd.compare_eq_iff_eq.trans eq_comm
    cases op <;> cases hop <;>
      simp only [CmpOp.answer, Difference.ordered.injEq, heq, Option.some.injEq, decide_eq_decide,
        ne_eq, not_iff_not]
    all_goals exact iff_comm
  rw [PlatformSettled, hexpected, Option.some.injEq, ← hsame]
  constructor
  · intro h
    rw [← h _ (runtimeOf_suits options 0), hholds _ (runtimeOf_suits options 0)]
  · intro h runtime hsuits
    rw [hholds runtime hsuits, h]

/-- A test that is decided agrees with every runtime of the target exactly if it is settled. -/
theorem testSettled_iff (hrange : options.InRange) (hguard : isTypeCheckingGuardExpr test = false)
    (hdecided : (evaluateGuardedImportExpr options test).isSome = true) :
    (∀ runtime : PythonRuntime, runtime.Suits options →
      runtime.holds literalValue test = evaluateGuardedImportExpr options test)
      ↔ TestSettled literalValue options test := by
  have hevaluate : evaluateGuardedImportExpr options test
      = (evaluateVersionGuardExpr options test).or (evaluatePlatformGuardExpr options test) := by
    rw [evaluateGuardedImportExpr, hguard]
    rfl
  rw [hevaluate] at hdecided ⊢
  cases hversionGuard : evaluateVersionGuardExpr options test with
  | some answer =>
    rw [Option.some_or]
    unfold evaluateVersionGuardExpr at hversionGuard
    split at hversionGuard
    · rename_i text text' id attr op comparator
      rcases Option.bind_eq_some_iff.1 hversionGuard with ⟨target, hversion, hnames⟩
      split_ifs at hnames with hname
      rw [Bool.and_eq_true, decide_eq_true_eq, decide_eq_true_eq] at hname
      rcases hname with ⟨rfl, rfl⟩
      rcases Option.bind_eq_some_iff.1 hnames with ⟨expected, hexpected, hanswer⟩
      rw [compareVersions_eq] at hanswer
      have hanswered : (op.answer (.ordered (versionOrder target expected))).isSome = true := by
        rw [hanswer]
        rfl
      rw [← hanswer, versionSettled_iff hversion (hrange target hversion) hexpected hanswered,
        TestSettled]
      constructor
      · intro h
        refine ⟨fun _ target' hversion' => ?_, fun hattr => absurd hattr (by decide)⟩
        rw [hversion] at hversion'
        cases hversion'
        exact h
      · exact fun h => h.1 rfl target hversion
    · cases hversionGuard
  | none =>
    rw [hversionGuard, Option.none_or] at hdecided
    rcases Option.isSome_iff_exists.1 hdecided with ⟨answer, hplatformGuard⟩
    rw [Option.none_or, hplatformGuard]
    unfold evaluatePlatformGuardExpr at hplatformGuard
    split at hplatformGuard
    · rename_i text text' id attr op literal
      rcases Option.bind_eq_some_iff.1 hplatformGuard with ⟨target, hplatform, hnames⟩
      split_ifs at hnames with hname
      rw [Bool.and_eq_true, decide_eq_true_eq, decide_eq_true_eq] at hname
      rcases hname with ⟨rfl, rfl⟩
      rcases Option.bind_eq_some_iff.1 hnames with ⟨expected, hexpected, hanswer⟩
      have hop : op.isEquality = true
          ∧ some answer = op.answer (.ordered (compare target.sysPlatformName expected)) := by
        cases op <;> cases hanswer <;>
          simp only [CmpOp.isEquality, CmpOp.answer, Difference.ordered.injEq,
            Std.LawfulEqOrd.compare_eq_iff_eq, ne_eq, and_self]
      rw [hop.2, platformSettled_iff hplatform hexpected hop.1, TestSettled]
      constructor
      · intro h
        refine ⟨fun hattr => absurd hattr (by decide), fun _ target' hplatform' => ?_⟩
        rw [hplatform] at hplatform'
        cases hplatform'
        exact h
      · exact fun h => h.2 rfl target hplatform
    · cases hplatformGuard

/-- The tests of a chain. -/
def chainTests (test : Expr) (clauses : List (Option Expr × List Stmt)) : List Expr :=
  test :: clauses.filterMap Prod.fst

theorem consultedClauses_subset {holds : Expr → Option Bool}
    (clauses : List (Option Expr × List Stmt)) :
    ∀ test ∈ consultedClauses holds clauses, test ∈ clauses.filterMap Prod.fst := by
  induction clauses with
  | nil => exact nofun
  | cons clause rest ih =>
    rcases clause with ⟨_ | first, body⟩
    · exact nofun
    · intro test htest
      show test ∈ first :: rest.filterMap Prod.fst
      rw [List.mem_cons]
      rcases List.mem_cons.1 htest with rfl | hrest
      · exact .inl rfl
      · split_ifs at hrest
        · cases hrest
        · exact .inr (ih test hrest)

theorem consulted_subset {holds : Expr → Option Bool} (first : Expr)
    (clauses : List (Option Expr × List Stmt)) :
    ∀ test ∈ consulted holds first clauses, test ∈ chainTests first clauses := by
  intro test htest
  rcases List.mem_cons.1 htest with rfl | hrest
  · exact List.mem_cons_self
  · split_ifs at hrest
    · cases hrest
    · exact List.mem_cons_of_mem _ (consultedClauses_subset clauses test hrest)

/-- Every Python of the target takes the branch. -/
def BranchRuns (literalValue : String → String) (options : ParseOptions) (test : Expr)
    (clauses : List (Option Expr × List Stmt)) (selection : Selection) : Prop :=
  ∀ runtime : PythonRuntime, runtime.Suits options →
    branchTaken (runtime.holds literalValue) test clauses = some selection

/-- The tests that lead to a branch are settled. -/
def TestsSettled (literalValue : String → String) (options : ParseOptions) (test : Expr)
    (clauses : List (Option Expr × List Stmt)) : Prop :=
  ∀ test' ∈ consulted (evaluateGuardedImportExpr options) test clauses,
    TestSettled literalValue options test'

theorem branchRuns_iff (hrange : options.InRange)
    (hguards : ∀ test' ∈ chainTests test clauses, isTypeCheckingGuardExpr test' = false)
    (hselected : selectedGuardedImportSuite options test clauses = some selection) :
    BranchRuns literalValue options test clauses selection
      ↔ TestsSettled literalValue options test clauses := by
  rw [selectedGuardedImportSuite_eq] at hselected
  have hsettled : ∀ test' ∈ consulted (evaluateGuardedImportExpr options) test clauses,
      ((∀ runtime : PythonRuntime, runtime.Suits options →
        runtime.holds literalValue test' = evaluateGuardedImportExpr options test')
        ↔ TestSettled literalValue options test') := by
    intro test' htest
    exact testSettled_iff hrange (hguards test' (consulted_subset test clauses test' htest))
      (isSome_of_consulted hselected test' htest)
  constructor
  · intro h test' htest
    refine (hsettled test' htest).1 fun runtime hsuits => ?_
    exact (branchTaken_iff hselected).1 (h runtime hsuits) test' htest
  · intro h runtime hsuits
    refine (branchTaken_iff hselected).2 fun test' htest => ?_
    exact (hsettled test' htest).2 (h test' htest) runtime hsuits

end

/-! ## Recorded declarations -/

/-- The suite of a branch. -/
def Selection.suite (body : List Stmt) (clauses : List (Option Expr × List Stmt)) :
    Selection → List Stmt
  | .body => body
  | .clause index => (clauses[index]?.map Prod.snd).getD []
  | .nothing => []

def Stmt.isDeclaration : Stmt → Bool
  | .importNames _ | .classDef _ _ _ _ | .functionDef _ _ _ _ => true
  | _ => false

/-- Imports, classes and functions of a suite, those in branches that are selected included. -/
def declarations (options : ParseOptions) (suite : List Stmt) : List Stmt :=
  (guardedOfSuite options true suite).filter Stmt.isDeclaration

/-- What is recorded of some statements, after those that are there before. -/
def recordedAfter (before : List SyntaxStatement) (stmts : List Stmt) : List SyntaxStatement :=
  (stmts.foldl pushGuarded before).drop before.length

/-- Each declaration is recorded, and nothing else on its line. -/
def RecordedOnce (declared : List Stmt) (recorded : List SyntaxStatement) : Prop :=
  ∀ stmt ∈ declared,
    (∃ statement ∈ recorded, extractAstBackedStatement stmt.line stmt = some statement)
      ∧ recorded.countP (fun statement => statement.line = stmt.line)
        = declared.countP (fun other => other.line = stmt.line)

/-- Each declaration can be read and has its line for itself. -/
def AloneOnLines (before : List SyntaxStatement) (declared : List Stmt) : Prop :=
  ∀ stmt ∈ declared,
    (extractAstBackedStatement stmt.line stmt).isSome = true
      ∧ stmt.line ∉ before.map SyntaxStatement.line
      ∧ declared.countP (fun other => other.line = stmt.line) = 1

theorem isGuardedDeclaration_iff {stmt : Stmt} {statement : SyntaxStatement}
    (h : extractAstBackedStatement stmt.line stmt = some statement) :
    isGuardedDeclaration statement = stmt.isDeclaration := by
  have hnamed : ∀ kind names line, namedStatement kind names line = some statement →
      isGuardedDeclaration (.other kind line) = false → isGuardedDeclaration statement = false := by
    intro kind names line hnamed hkind
    unfold namedStatement at hnamed
    split_ifs at hnamed
    cases hnamed
    exact hkind
  unfold extractAstBackedStatement at h
  unfold Stmt.isDeclaration
  split at h
  · rcases Option.map_eq_some_iff.1 h with ⟨_, -, rfl⟩
    rfl
  · rcases Option.map_eq_some_iff.1 h with ⟨_, -, rfl⟩
    rfl
  · rcases Option.map_eq_some_iff.1 h with ⟨_, -, rfl⟩
    rfl
  · cases h
    rfl
  · exact hnamed _ _ _ h rfl
  · exact hnamed _ _ _ h rfl
  · exact hnamed _ _ _ h rfl
  · cases h
    rfl
  · cases h
    rfl
  · exact hnamed _ _ _ h rfl
  · cases h
    rfl
  · unfold extractCallStatement at h
    split at h
    · cases h
      rfl
    · cases h
  · cases h

/-- What is new stands on different lines, on none of those before, and comes from the
statements. -/
structure NewlyRecorded (before : List SyntaxStatement) (stmts : List Stmt)
    (recorded : List SyntaxStatement) : Prop where
  nodup : (recorded.map SyntaxStatement.line).Nodup
  fresh : ∀ statement ∈ recorded, statement.line ∉ before.map SyntaxStatement.line
  source : ∀ statement ∈ recorded, ∃ stmt ∈ stmts, stmt.isDeclaration = true
    ∧ extractAstBackedStatement stmt.line stmt = some statement
  taken : ∀ stmt ∈ stmts, stmt.isDeclaration = true →
    (extractAstBackedStatement stmt.line stmt).isSome = true →
    stmt.line ∉ before.map SyntaxStatement.line →
    stmt.line ∈ recorded.map SyntaxStatement.line

/-- One statement is recorded, or nothing changes. -/
theorem pushGuarded_cases (statements : List SyntaxStatement) (stmt : Stmt) :
    (∃ statement, extractAstBackedStatement stmt.line stmt = some statement
        ∧ stmt.isDeclaration = true ∧ stmt.line ∉ statements.map SyntaxStatement.line
        ∧ pushGuarded statements stmt = statements ++ [statement])
      ∨ pushGuarded statements stmt = statements
        ∧ (stmt.line ∈ statements.map SyntaxStatement.line
          ∨ (extractAstBackedStatement stmt.line stmt).isSome = false
          ∨ stmt.isDeclaration = false) := by
  unfold pushGuarded
  by_cases hline : stmt.line ∈ statements.map SyntaxStatement.line
  · exact .inr ⟨if_pos hline, .inl hline⟩
  · rw [if_neg hline]
    cases hextract : extractAstBackedStatement stmt.line stmt with
    | none => exact .inr ⟨by simp, .inr (.inl rfl)⟩
    | some statement =>
      have hkind := isGuardedDeclaration_iff hextract
      cases hdeclaration : stmt.isDeclaration with
      | true =>
        rw [hdeclaration] at hkind
        refine .inl ⟨statement, rfl, rfl, hline, ?_⟩
        rw [Option.toList_some, List.filter_cons_of_pos hkind, List.filter_nil]
      | false =>
        rw [hdeclaration] at hkind
        refine .inr ⟨?_, .inr (.inr rfl)⟩
        rw [Option.toList_some, List.filter_cons_of_neg (by simp [hkind]), List.filter_nil,
          List.append_nil]

theorem newlyRecorded_foldl (stmts : List Stmt) (before : List SyntaxStatement) :
    ∃ recorded, stmts.foldl pushGuarded before = before ++ recorded
      ∧ NewlyRecorded before stmts recorded := by
  induction stmts generalizing before with
  | nil => exact ⟨[], (List.append_nil before).symm, List.nodup_nil, nofun, nofun, nofun⟩
  | cons stmt rest ih =>
    rw [List.foldl_cons]
    rcases pushGuarded_cases before stmt with
      ⟨statement, hextract, hdeclaration, hline, hpush⟩ | ⟨hpush, hleft⟩
    · rcases ih (before ++ [statement]) with ⟨recorded, hfold, hnew⟩
      have hstatement : statement.line = stmt.line :=
        (extractAstBackedStatement_spec stmt).1 statement hextract
      have hlines : (before ++ [statement]).map SyntaxStatement.line
          = before.map SyntaxStatement.line ++ [stmt.line] := by
        rw [List.map_append, List.map_singleton, hstatement]
      have hother : ∀ line, line ∉ (before ++ [statement]).map SyntaxStatement.line
          ↔ line ∉ before.map SyntaxStatement.line ∧ line ≠ stmt.line := by
        intro line
        rw [hlines, List.mem_append, List.mem_singleton, not_or]
      refine ⟨statement :: recorded, by rw [hpush, hfold, List.append_assoc]; rfl, ?_, ?_, ?_, ?_⟩
      · rw [List.map_cons, List.nodup_cons, hstatement, List.mem_map]
        refine ⟨?_, hnew.nodup⟩
        rintro ⟨other, hin, hsame⟩
        exact ((hother _).1 (hnew.fresh other hin)).2 hsame
      · intro other hin
        rcases List.mem_cons.1 hin with rfl | hrest
        · rw [hstatement]
          exact hline
        · exact ((hother _).1 (hnew.fresh other hrest)).1
      · intro other hin
        rcases List.mem_cons.1 hin with rfl | hrest
        · exact ⟨stmt, List.mem_cons_self, hdeclaration, hextract⟩
        · rcases hnew.source other hrest with ⟨source, hsource, hread⟩
          exact ⟨source, List.mem_cons_of_mem _ hsource, hread⟩
      · intro other hin hkind hsome hfresh
        rw [List.map_cons, hstatement, List.mem_cons]
        by_cases hsame : other.line = stmt.line
        · exact .inl hsame
        · rcases List.mem_cons.1 hin with rfl | hrest
          · exact absurd rfl hsame
          · exact .inr (hnew.taken other hrest hkind hsome ((hother _).2 ⟨hfresh, hsame⟩))
    · rcases ih before with ⟨recorded, hfold, hnew⟩
      rw [hpush]
      refine ⟨recorded, hfold, hnew.nodup, hnew.fresh, ?_, ?_⟩
      · intro statement hin
        rcases hnew.source statement hin with ⟨source, hsource, hread⟩
        exact ⟨source, List.mem_cons_of_mem _ hsource, hread⟩
      · intro other hother hdeclaration hsome hfresh
        rcases List.mem_cons.1 hother with rfl | hrest
        · rcases hleft with hin | hnone | hno
          · exact absurd hin hfresh
          · rw [hnone] at hsome
            cases hsome
          · rw [hno] at hdeclaration
            cases hdeclaration
        · exact hnew.taken other hrest hdeclaration hsome hfresh

/-- A line that is there once is that of one declaration only. -/
theorem eq_of_countP_one {declared : List Stmt} {line : Nat} {stmt other : Stmt}
    (h : declared.countP (fun found => found.line = line) = 1) (hstmt : stmt ∈ declared)
    (hother : other ∈ declared) (hline : stmt.line = line) (hline' : other.line = line) :
    other = stmt := by
  rw [List.countP_eq_length_filter, List.length_eq_one_iff] at h
  rcases h with ⟨found, hfound⟩
  have hin : ∀ found' ∈ declared, found'.line = line → found' = found := by
    intro found' hfound' hsame
    have hmem : found' ∈ declared.filter fun found => found.line = line :=
      List.mem_filter.2 ⟨hfound', decide_eq_true hsame⟩
    rw [hfound] at hmem
    exact List.mem_singleton.1 hmem
  rw [hin stmt hstmt hline, hin other hother hline']

theorem countP_line_le_one {recorded : List SyntaxStatement}
    (h : (recorded.map SyntaxStatement.line).Nodup) (line : Nat) :
    recorded.countP (fun statement => statement.line = line) ≤ 1 := by
  have hcount := List.nodup_iff_count_le_one.1 h line
  rw [List.count, List.countP_map] at hcount
  exact hcount

/-- The declarations of a suite are recorded once exactly if they can be read and each has its line
for itself. -/
theorem recordedOnce_iff (stmts later : List Stmt) (before : List SyntaxStatement) :
    RecordedOnce (stmts.filter Stmt.isDeclaration) (recordedAfter before (stmts ++ later))
      ↔ AloneOnLines before (stmts.filter Stmt.isDeclaration) := by
  rcases newlyRecorded_foldl stmts before with ⟨first, hfirst, hnew⟩
  rcases newlyRecorded_foldl (stmts ++ later) before with ⟨recorded, hall, hnewAll⟩
  have hrecorded : recordedAfter before (stmts ++ later) = recorded := by
    rw [recordedAfter, hall, List.drop_left]
  have hsubset : ∀ statement ∈ first, statement ∈ recorded := by
    intro statement hin
    rcases newlyRecorded_foldl later (before ++ first) with ⟨rest, hrest, -⟩
    rw [List.foldl_append, hfirst, hrest, List.append_assoc] at hall
    rw [← List.append_cancel_left hall]
    exact List.mem_append_left _ hin
  rw [hrecorded]
  have hpositive : ∀ stmt ∈ stmts.filter Stmt.isDeclaration,
      0 < (stmts.filter Stmt.isDeclaration).countP fun other => other.line = stmt.line :=
    fun stmt hstmt => List.countP_pos_iff.2 ⟨stmt, hstmt, decide_eq_true rfl⟩
  constructor
  · intro h stmt hstmt
    obtain ⟨⟨statement, hin, hread⟩, hcount⟩ := h stmt hstmt
    refine ⟨by rw [hread]; rfl, ?_, ?_⟩
    · rw [← (extractAstBackedStatement_spec stmt).1 statement hread]
      exact hnewAll.fresh statement hin
    · have hle := countP_line_le_one hnewAll.nodup stmt.line
      have hpos := hpositive stmt hstmt
      omega
  · intro h stmt hstmt
    obtain ⟨hsome, hfresh, hcount⟩ := h stmt hstmt
    have hin := List.mem_filter.1 hstmt
    rcases List.mem_map.1 (hnew.taken stmt hin.1 hin.2 hsome hfresh) with
      ⟨statement, hstatement, hline⟩
    rcases hnew.source statement hstatement with ⟨source, hsource, hkind, hread⟩
    have hsame : source = stmt := by
      refine eq_of_countP_one hcount hstmt (List.mem_filter.2 ⟨hsource, hkind⟩) rfl ?_
      rw [← hline, (extractAstBackedStatement_spec source).1 statement hread]
    subst hsame
    refine ⟨⟨statement, hsubset statement hstatement, hread⟩, ?_⟩
    have hle := countP_line_le_one hnewAll.nodup source.line
    have hpos : 0 < recorded.countP fun statement => statement.line = source.line :=
      List.countP_pos_iff.2 ⟨statement, hsubset statement hstatement, decide_eq_true hline⟩
    omega

/-! ## Guarded branches that run -/

theorem guardedOfClause_eq (options : ParseOptions) (index : Nat)
    (clauses : List (Option Expr × List Stmt)) :
    guardedOfClause options index clauses
      = guardedOfSuite options true ((clauses[index]?.map Prod.snd).getD []) := by
  induction clauses generalizing index with
  | nil => rfl
  | cons clause rest ih =>
    cases index with
    | zero => rfl
    | succ index => exact ih index

/-- Of a chain with a selected branch, the statements of that branch count. -/
theorem guardedOfStmt_ifStmt {options : ParseOptions}
    (hselected : selectedGuardedImportSuite options test clauses = some selection)
    (selected : Bool) (range : Range) (body : List Stmt) :
    guardedOfStmt options selected (.ifStmt range test body clauses)
      = guardedOfSuite options true (selection.suite body clauses) := by
  unfold guardedOfStmt
  rw [hselected]
  cases selection with
  | body => rfl
  | clause index => exact guardedOfClause_eq options index clauses
  | nothing => rfl

/-- Every Python of the target takes the branch, and its declarations are recorded once when the
statements are collected. -/
def GuardedRun (literalValue : String → String) (options : ParseOptions) (range : Range)
    (test : Expr) (body : List Stmt) (clauses : List (Option Expr × List Stmt))
    (selection : Selection) (selected : Bool) (before : List SyntaxStatement) (later : List Stmt) :
    Prop :=
  BranchRuns literalValue options test clauses selection
    ∧ RecordedOnce (declarations options (selection.suite body clauses))
      (recordedAfter before
        (guardedOfStmt options selected (.ifStmt range test body clauses) ++ later))

/-- The selected branch is the one that runs, and its declarations are recorded once, exactly if the
tests that lead to it are settled and the declarations have their lines for themselves. -/
theorem guardedRun_iff (literalValue : String → String) (options : ParseOptions)
    (hrange : options.InRange) (range : Range) (test : Expr) (body : List Stmt)
    (clauses : List (Option Expr × List Stmt)) (selection : Selection)
    (hselected : selectedGuardedImportSuite options test clauses = some selection)
    (hguards : ∀ test' ∈ chainTests test clauses, isTypeCheckingGuardExpr test' = false)
    (selected : Bool) (before : List SyntaxStatement) (later : List Stmt) :
    GuardedRun literalValue options range test body clauses selection selected before later
      ↔ TestsSettled literalValue options test clauses
        ∧ AloneOnLines before (declarations options (selection.suite body clauses)) := by
  unfold GuardedRun
  rw [guardedOfStmt_ifStmt hselected]
  exact and_congr (branchRuns_iff hrange hguards hselected) (recordedOnce_iff _ later before)

/-- `sys.version_info` in some order to the version 3.11. -/
def versionTest (op : CmpOp) : Expr :=
  .compare "" (.attribute "sys.version_info" (.name "sys") "version_info") [op]
    [.tuple "(3, 11)" [.numberLiteral "3" (some 3), .numberLiteral "11" (some 11)]]

/-- One import in each branch. -/
def versionClauses : List (Option Expr × List Stmt) := [(none, [.importNames ⟨4, 4⟩])]

def versionTarget : ParseOptions := { targetPython := some ⟨3, 11⟩, targetPlatform := none }

theorem versionTarget_inRange : versionTarget.InRange := by
  intro target htarget
  cases htarget
  decide

theorem guardedRun_gtE :
    GuardedRun id versionTarget ⟨1, 4⟩ (versionTest .gtE) [.importNames ⟨2, 2⟩] versionClauses .body
      false [] [] := by
  refine (guardedRun_iff id versionTarget versionTarget_inRange ⟨1, 4⟩ (versionTest .gtE)
    [.importNames ⟨2, 2⟩] versionClauses .body (by decide) ?_ false [] []).2 ⟨?_, ?_⟩
  · intro test htest
    rcases List.mem_cons.1 htest with rfl | hrest
    · rfl
    · cases hrest
  · intro test htest
    rcases List.mem_cons.1 htest with rfl | hrest
    · refine ⟨fun _ target htarget => ?_, fun _ target htarget => nomatch htarget⟩
      cases htarget
      exact ⟨[.int 3, .int 11], rfl, fun _ => ⟨rfl, rfl⟩⟩
    · cases hrest
  · intro stmt hstmt
    cases List.mem_singleton.1 hstmt
    exact ⟨rfl, List.not_mem_nil, rfl⟩

/-- Every 3.11 is above `(3, 11)`; the other branch is taken for it. -/
theorem guardedRun_gt_fails :
    selectedGuardedImportSuite versionTarget (versionTest .gt) versionClauses = some (.clause 0)
      ∧ ¬ GuardedRun id versionTarget ⟨1, 4⟩ (versionTest .gt) [.importNames ⟨2, 2⟩] versionClauses
        (.clause 0) false [] [] := by
  refine ⟨by decide, fun h => ?_⟩
  have hbranch := h.1 (runtimeOf versionTarget 0) (runtimeOf_suits versionTarget 0)
  exact absurd hbranch (by decide)

end TypePython.Syntax
