import TypePython.Checking.Flow
import TypePython.Checking.ValueModel

/-!
# Compound guards

A guard built with `not`, `and` and `or` narrows as well as its atoms do. The parts of a
conjunction are evaluated until one is false and those of a disjunction until one is true, so
a value that decides the guard takes one of the short-circuit paths, and the narrowed type of
that path is among the types that are joined.

The argument works for whatever a type may keep of a value, as long as a union keeps what one
of its branches keeps (`ValueModel`): the values a type admits, or the branches it has.
-/

namespace TypePython.Checking

open TypePython.Binding

/-! ## Evaluation -/

section

variable (outcome : GuardConditionSite → Option Bool)

mutual

/-- A guard, evaluated from left to right as far as needed. An atom that raises an exception
has no outcome, and neither has the guard then. -/
def evalShortCircuit : GuardConditionSite → Option Bool
  | .not inner => (evalShortCircuit inner).map (!·)
  | .and parts => evalUntil false parts
  | .or parts => evalUntil true parts
  | .isNone name negated => outcome (.isNone name negated)
  | .isInstance name types => outcome (.isInstance name types)
  | .predicateCall name callee => outcome (.predicateCall name callee)
  | .truthyName name => outcome (.truthyName name)

/-- The first part with the outcome `stop` decides, and no later one is evaluated. -/
def evalUntil (stop : Bool) : List GuardConditionSite → Option Bool
  | [] => some !stop
  | part :: rest =>
    match evalShortCircuit part with
    | none => none
    | some result => if result = stop then some stop else evalUntil stop rest

end

end

mutual

/-- The atomic conditions of a guard. -/
def guardAtoms : GuardConditionSite → List GuardConditionSite
  | .not inner => guardAtoms inner
  | .and parts => guardAtomsOfAll parts
  | .or parts => guardAtomsOfAll parts
  | .isNone name negated => [.isNone name negated]
  | .isInstance name types => [.isInstance name types]
  | .predicateCall name callee => [.predicateCall name callee]
  | .truthyName name => [.truthyName name]

def guardAtomsOfAll : List GuardConditionSite → List GuardConditionSite
  | [] => []
  | part :: rest => guardAtoms part ++ guardAtomsOfAll rest

end

/-! ## Composition -/

section

variable {Value : Type} (m : ValueModel Value) (context : GuardContext) (valueName : String)
  (outcome : GuardConditionSite → Option Bool) (x : Value)

/-- Narrowing by a condition keeps the value, whenever the condition has the outcome that is
assumed. -/
def KeepsValue (condition : GuardConditionSite) : Prop :=
  ∀ base truth, m.admits base x → evalShortCircuit outcome condition = some truth →
    m.admits (applyGuardCondition context valueName condition base truth) x

mutual

/-- A guard keeps the value if its atoms do; the induction is on the guard. -/
theorem keepsValue_of_atoms : ∀ guard : GuardConditionSite,
    (∀ atom ∈ guardAtoms guard, KeepsValue m context valueName outcome x atom) →
      KeepsValue m context valueName outcome x guard
  | .isNone name negated, hatoms => hatoms _ (by simp [guardAtoms])
  | .isInstance name types, hatoms => hatoms _ (by simp [guardAtoms])
  | .predicateCall name callee, hatoms => hatoms _ (by simp [guardAtoms])
  | .truthyName name, hatoms => hatoms _ (by simp [guardAtoms])
  | .not inner, hatoms => by
    intro base truth hbase houtcome
    rw [guardAtoms] at hatoms
    rw [evalShortCircuit, Option.map_eq_some_iff] at houtcome
    rcases houtcome with ⟨result, hinner, rfl⟩
    rw [applyGuardCondition, Bool.not_not]
    exact keepsValue_of_atoms inner hatoms base result hbase hinner
  | .and parts, hatoms => by
    intro base truth hbase houtcome
    rw [guardAtoms] at hatoms
    rw [evalShortCircuit] at houtcome
    rw [applyGuardCondition]
    cases truth with
    | true => exact applyEach_keeps false parts hatoms base hbase houtcome
    | false =>
      -- one of the joined types belongs to the path the evaluation took
      rcases applyEither_keeps false parts hatoms base hbase houtcome with ⟨ty, hty, hx⟩
      exact (m.admits_join _ x).2 ⟨ty, hty, hx⟩
  | .or parts, hatoms => by
    intro base truth hbase houtcome
    rw [guardAtoms] at hatoms
    rw [evalShortCircuit] at houtcome
    rw [applyGuardCondition]
    cases truth with
    | true =>
      rcases applyEither_keeps true parts hatoms base hbase houtcome with ⟨ty, hty, hx⟩
      exact (m.admits_join _ x).2 ⟨ty, hty, hx⟩
    | false => exact applyEach_keeps true parts hatoms base hbase houtcome

/-- When no part stops the evaluation, narrowing by one after the other keeps the value. -/
theorem applyEach_keeps (stop : Bool) : ∀ parts : List GuardConditionSite,
    (∀ atom ∈ guardAtomsOfAll parts, KeepsValue m context valueName outcome x atom) →
      ∀ base, m.admits base x → evalUntil outcome stop parts = some (!stop) →
        m.admits (applyEach context valueName parts base (!stop)) x
  | [], _, base, hbase, _ => by
    rw [applyEach]
    exact hbase
  | part :: rest, hatoms, base, hbase, houtcome => by
    have hpart := keepsValue_of_atoms part fun atom hatom =>
      hatoms atom (List.mem_append_left _ hatom)
    have hrest : ∀ atom ∈ guardAtomsOfAll rest, KeepsValue m context valueName outcome x atom :=
      fun atom hatom => hatoms atom (List.mem_append_right _ hatom)
    rw [evalUntil] at houtcome
    rw [applyEach]
    cases hresult : evalShortCircuit outcome part with
    | none =>
      rw [hresult] at houtcome
      cases houtcome
    | some result =>
      rw [hresult] at houtcome
      dsimp only at houtcome
      by_cases hstop : result = stop
      · rw [if_pos hstop, Option.some.injEq] at houtcome
        cases stop <;> cases houtcome
      · rw [if_neg hstop] at houtcome
        have hgoes : result = !stop := by cases result <;> cases stop <;> simp_all
        rw [hgoes] at hresult
        exact applyEach_keeps stop rest hrest _ (hpart base _ hbase hresult) houtcome

/-- When some part stops the evaluation, one of the narrowed types keeps the value. -/
theorem applyEither_keeps (stop : Bool) : ∀ parts : List GuardConditionSite,
    (∀ atom ∈ guardAtomsOfAll parts, KeepsValue m context valueName outcome x atom) →
      ∀ base, m.admits base x → evalUntil outcome stop parts = some stop →
        ∃ ty ∈ applyEither context valueName parts base stop, m.admits ty x
  | [], _, _, _, houtcome => by
    rw [evalUntil, Option.some.injEq] at houtcome
    cases stop <;> cases houtcome
  | part :: rest, hatoms, base, hbase, houtcome => by
    have hpart := keepsValue_of_atoms part fun atom hatom =>
      hatoms atom (List.mem_append_left _ hatom)
    have hrest : ∀ atom ∈ guardAtomsOfAll rest, KeepsValue m context valueName outcome x atom :=
      fun atom hatom => hatoms atom (List.mem_append_right _ hatom)
    rw [evalUntil] at houtcome
    rw [applyEither]
    cases hresult : evalShortCircuit outcome part with
    | none =>
      rw [hresult] at houtcome
      cases houtcome
    | some result =>
      rw [hresult] at houtcome
      dsimp only at houtcome
      by_cases hstop : result = stop
      · -- the evaluation stops here
        rw [hstop] at hresult
        exact ⟨_, List.mem_cons_self, hpart base stop hbase hresult⟩
      · rw [if_neg hstop] at houtcome
        have hgoes : result = !stop := by cases result <;> cases stop <;> simp_all
        rw [hgoes] at hresult
        rcases applyEither_keeps stop rest hrest _ (hpart base _ hbase hresult) houtcome with
          ⟨ty, hty, hx⟩
        exact ⟨ty, List.mem_cons_of_mem _ hty, hx⟩

end

end

/-! ## Branches and values -/

/-- The branches of a union, at any depth; a type that is no union is its own branch. -/
inductive BranchOf (branch : SemanticType) : SemanticType → Prop
  | self (hself : semanticUnionBranches branch = none) : BranchOf branch branch
  | inner {ty branches part} (hunion : semanticUnionBranches ty = some branches)
      (hpart : part ∈ branches) (hbranch : BranchOf branch part) : BranchOf branch ty

/-- The reading of a type as the set of its branches. -/
def branchModel : ValueModel SemanticType where
  admits ty branch := BranchOf branch ty
  admits_union := by
    intro ty branches hunion branch
    constructor
    · rintro (hself | ⟨hother, hpart, hbranch⟩)
      · rw [hself] at hunion
        cases hunion
      · rw [hunion] at hother
        cases hother
        exact ⟨_, hpart, hbranch⟩
    · rintro ⟨part, hpart, hbranch⟩
      exact .inner hunion hpart hbranch

section

variable {Env Value : Type} (context : GuardContext) (valueName : String)
  (outcome : GuardConditionSite → Env → Option Bool) (value : Env → Value)

/-- Narrowing by the condition drops no branch of a type that admits a value on which the
condition has the outcome that is assumed. -/
def KeepsBranches (admits : SemanticType → Value → Prop) (condition : GuardConditionSite) : Prop :=
  ∀ base truth branch env, BranchOf branch base → admits branch (value env) →
    evalShortCircuit (fun atom => outcome atom env) condition = some truth →
      BranchOf branch (applyGuardCondition context valueName condition base truth)

/-- Narrowing by the condition drops no value on which the condition has the outcome that is
assumed. -/
def KeepsValues (m : ValueModel Value) (condition : GuardConditionSite) : Prop :=
  ∀ env, KeepsValue m context valueName (fun atom => outcome atom env) (value env) condition

/-- A compound guard drops no branch that admits a deciding value if its atoms drop none, and
no deciding value if its atoms drop none. -/
theorem compoundGuard_keeps (guard : GuardConditionSite) :
    (∀ admits : SemanticType → Value → Prop,
      (∀ atom ∈ guardAtoms guard,
        KeepsBranches context valueName outcome value admits atom) →
          KeepsBranches context valueName outcome value admits guard)
    ∧ ∀ m : ValueModel Value,
      (∀ atom ∈ guardAtoms guard, KeepsValues context valueName outcome value m atom) →
        KeepsValues context valueName outcome value m guard := by
  constructor
  · intro admits hatoms base truth branch env hbranch hadmits houtcome
    -- the branch is fixed, and what is kept of it is that it is there
    have hkeeps : ∀ atom ∈ guardAtoms guard,
        KeepsValue branchModel context valueName (fun atom => outcome atom env) branch atom :=
      fun atom hatom base truth hbase hatomOutcome =>
        hatoms atom hatom base truth branch env hbase hadmits hatomOutcome
    exact keepsValue_of_atoms branchModel context valueName _ branch guard hkeeps base truth
      hbranch houtcome
  · intro m hatoms env
    exact keepsValue_of_atoms m context valueName _ (value env) guard fun atom hatom =>
      hatoms atom hatom env

end

/-- Narrowing by the absence of `None` keeps a value that no `None` admits. -/
theorem admits_removeNoneBranch {Value : Type} (m : ValueModel Value) {base : SemanticType}
    {x : Value} (hbase : m.admits base x)
    (hnone : ∀ ty, ty.stripAnnotated = .name "None" → ¬ m.admits ty x) :
    m.admits ((removeNoneSemanticBranch base).getD base) x := by
  unfold removeNoneSemanticBranch
  cases hbranches : semanticUnionBranches base with
  | none => exact hbase
  | some branches =>
    rcases (m.admits_union hbranches x).1 hbase with ⟨branch, hbranch, hx⟩
    have hkept : branch ∈ branches.filter fun branch => branch.stripAnnotated ≠ .name "None" :=
      List.mem_filter.2 ⟨hbranch, decide_eq_true fun heq => hnone branch heq hx⟩
    have hne := List.ne_nil_of_mem hkept
    have hjoin := (m.admits_join _ x).2 ⟨branch, hkept, hx⟩
    simp only [Option.bind_eq_bind, Option.bind_some]
    rw [if_neg hne]
    exact hjoin

/-- `not (x is None and y)` keeps every class name that is not `None`, whatever `y` is. -/
theorem compoundGuard_keeps_notNone :
    KeepsValues { semanticTypeMatches := fun _ _ => false } "x"
      (fun atom (env : String × Bool) =>
        match atom with
        | .isNone _ _ => some (env.1 == "None")
        | _ => some env.2)
      Prod.fst nameModel (.not (.and [.isNone "x" false, .truthyName "y"])) := by
  apply (compoundGuard_keeps _ "x" _ Prod.fst (.not (.and [.isNone "x" false, .truthyName "y"]))).2
  intro atom hatom env base truth hbase houtcome
  simp only [guardAtoms, guardAtomsOfAll, List.append_nil, List.cons_append, List.nil_append,
    List.mem_cons, List.not_mem_nil, or_false] at hatom
  rcases hatom with rfl | rfl
  · rw [evalShortCircuit, Option.some.injEq] at houtcome
    rw [applyGuardCondition]
    cases htruth : truth with
    | true =>
      rw [htruth, beq_iff_eq] at houtcome
      exact houtcome.symm
    | false =>
      rw [htruth, beq_eq_false_iff_ne] at houtcome
      apply admits_removeNoneBranch nameModel hbase
      intro ty hty hadmits
      have hname : admitsName env.1 ty := hadmits
      rw [← admitsName_stripAnnotated, hty] at hname
      exact houtcome hname.symm
  · rw [applyGuardCondition, if_pos (by decide)]
    exact hbase

end TypePython.Checking
