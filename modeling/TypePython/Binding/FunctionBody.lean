import TypePython.Binding.Graph
import Mathlib.Order.Basic
import Mathlib.Data.Nat.Basic

/-!
# Function bodies

The bodies the flow analysis is about: assignments, returns, other simple statements and
nested `if`/`else`. A body is laid out on source lines, runs along execution paths, and
leaves sites in its module node.

* `Completes` and `Arrives` are the paths through a suite: to its end, and to the first
  statement on a given line;
* `suiteLaid` is the line layout the grammar allows: statements joined by `;` and one-line
  suites share a line, compound statements start on a line of their own;
* `arrives_iff`: in a laid out body the paths to a line are the runs of the statements on
  the way to it, one after the other.
-/

namespace TypePython.Binding

/-- A statement, with the line it starts on and, for a simple one, the line it ends on. -/
inductive Stmt where
  | assign (line endLine : Nat) (name : String) (valueName : Option String)
  | ret (line endLine : Nat)
  | expr (line endLine : Nat)
  | ifElse (line : Nat) (guard : Option GuardConditionSite) (body orelse : List Stmt)

namespace Stmt

def line : Stmt → Nat
  | assign line _ _ _ => line
  | ret line _ => line
  | expr line _ => line
  | ifElse line _ _ _ => line

def isCompound : Stmt → Bool
  | ifElse _ _ _ _ => true
  | _ => false

end Stmt

/-! ## Line ranges -/

mutual

/-- The last line of a statement. -/
def Stmt.endLine : Stmt → Nat
  | .assign _ endLine _ _ => endLine
  | .ret _ endLine => endLine
  | .expr _ endLine => endLine
  | .ifElse line _ body orelse =>
    (suiteEndLineOptional orelse).getD ((suiteEndLineOptional body).getD line)

def suiteEndLineOptional : List Stmt → Option Nat
  | [] => none
  | s :: rest => some ((suiteEndLineOptional rest).getD s.endLine)

end

def suiteStartLineOptional (suite : List Stmt) : Option Nat := suite.head?.map Stmt.line

mutual

/-- The lines the statement and the statements nested in it start on. -/
def Stmt.lines : Stmt → List Nat
  | .ifElse line _ body orelse => line :: (suiteLines body ++ suiteLines orelse)
  | s => [s.line]

def suiteLines : List Stmt → List Nat
  | [] => []
  | s :: rest => s.lines ++ suiteLines rest

end

mutual

def Stmt.laid : Stmt → Bool
  | .ifElse line _ body orelse =>
    !body.isEmpty && suiteLaid line false body
      && suiteLaid ((suiteEndLineOptional body).getD line) true orelse
  | s => decide (s.line ≤ s.endLine)

/-- The suite follows a text that ends on line `prev`. With `fresh` it starts on a later
line, and so does every compound statement and whatever follows one. -/
def suiteLaid (prev : Nat) (fresh : Bool) : List Stmt → Bool
  | [] => true
  | s :: rest =>
    (if fresh || s.isCompound then decide (prev < s.line) else decide (prev ≤ s.line))
      && s.laid && suiteLaid s.endLine s.isCompound rest

end

/-! ## Paths -/

/-- What a path does: an assignment, or an `if` that takes one of its branches. -/
inductive Event where
  | assigned (line : Nat) (name : String) (valueName : Option String)
  | branch (line : Nat) (guard : Option GuardConditionSite) (taken : Bool)

/-- The suite runs to its end along the path. -/
inductive Completes : List Stmt → List Event → Prop
  | nil : Completes [] []
  | assign {line endLine name valueName rest path} (hrest : Completes rest path) :
      Completes (.assign line endLine name valueName :: rest)
        (.assigned line name valueName :: path)
  | expr {line endLine rest path} (hrest : Completes rest path) :
      Completes (.expr line endLine :: rest) path
  | ifElse {line guard body orelse rest path path'} (taken : Bool)
      (hbranch : Completes (if taken then body else orelse) path)
      (hrest : Completes rest path') :
      Completes (.ifElse line guard body orelse :: rest)
        (.branch line guard taken :: (path ++ path'))

/-- The path leads from the start of the suite to a statement that starts on line `target`. -/
inductive Arrives (target : Nat) : List Stmt → List Event → Prop
  | here {s rest} (hline : s.line = target) : Arrives target (s :: rest) []
  | assign {line endLine name valueName rest path} (hline : line ≠ target)
      (hrest : Arrives target rest path) :
      Arrives target (.assign line endLine name valueName :: rest)
        (.assigned line name valueName :: path)
  | expr {line endLine rest path} (hline : line ≠ target) (hrest : Arrives target rest path) :
      Arrives target (.expr line endLine :: rest) path
  | enter {line guard body orelse rest path} (taken : Bool) (hline : line ≠ target)
      (hbranch : Arrives target (if taken then body else orelse) path) :
      Arrives target (.ifElse line guard body orelse :: rest) (.branch line guard taken :: path)
  | past {line guard body orelse rest path path'} (taken : Bool) (hline : line ≠ target)
      (hbranch : Completes (if taken then body else orelse) path)
      (hrest : Arrives target rest path') :
      Arrives target (.ifElse line guard body orelse :: rest)
        (.branch line guard taken :: (path ++ path'))

/-- One step on the way to a line: a statement that is completed, or a branch entered. -/
inductive Step where
  | done (s : Stmt)
  | enter (line : Nat) (guard : Option GuardConditionSite) (taken : Bool)

mutual

/-- The way into the branches of a statement, to the first one that starts on `target`. -/
def Stmt.wayTo (target : Nat) : Stmt → Option (List Step)
  | .ifElse line guard body orelse =>
    match suiteWayTo target body with
    | some steps => some (.enter line guard true :: steps)
    | none => (suiteWayTo target orelse).map fun steps => .enter line guard false :: steps
  | _ => none

/-- The way to the first statement of the suite that starts on `target`. -/
def suiteWayTo (target : Nat) : List Stmt → Option (List Step)
  | [] => none
  | s :: rest =>
    if s.line = target then some []
    else
      match s.wayTo target with
      | some steps => some steps
      | none => (suiteWayTo target rest).map fun steps => .done s :: steps

end

/-- The path runs the steps one after the other. -/
def Follows : List Step → List Event → Prop
  | [], path => path = []
  | .done s :: rest, path =>
    ∃ first later, path = first ++ later ∧ Completes [s] first ∧ Follows rest later
  | .enter line guard taken :: rest, path =>
    ∃ later, path = .branch line guard taken :: later ∧ Follows rest later

/-- The statements completed on the way. -/
def doneStmts : List Step → List Stmt
  | [] => []
  | .done s :: rest => s :: doneStmts rest
  | .enter _ _ _ :: rest => doneStmts rest

/-! ## Completing a suite -/

variable {path : List Event}

@[simp] theorem completes_nil_iff : Completes [] path ↔ path = [] := by
  constructor
  · intro h
    cases h
    rfl
  · rintro rfl
    exact .nil

variable {line : Nat}

@[simp] theorem completes_assign_iff {endLine : Nat} {name : String} {valueName : Option String} :
    Completes [.assign line endLine name valueName] path
      ↔ path = [.assigned line name valueName] := by
  constructor
  · intro h
    cases h with
    | assign hrest => simpa using hrest
  · rintro rfl
    exact .assign .nil

@[simp] theorem completes_expr_iff {endLine : Nat} :
    Completes [.expr line endLine] path ↔ path = [] := by
  constructor
  · intro h
    cases h with
    | expr hrest => simpa using hrest
  · rintro rfl
    exact .expr .nil

@[simp] theorem not_completes_ret {endLine : Nat} : ¬ Completes [.ret line endLine] path := by
  intro h
  cases h

variable {body orelse : List Stmt} {guard : Option GuardConditionSite}

@[simp] theorem completes_ifElse_iff : Completes [.ifElse line guard body orelse] path
      ↔ ∃ taken inner, path = .branch line guard taken :: inner
          ∧ Completes (if taken then body else orelse) inner := by
  constructor
  · intro h
    cases h with
    | ifElse taken hbranch hrest =>
      rw [completes_nil_iff] at hrest
      exact ⟨taken, _, by simp [hrest], hbranch⟩
  · rintro ⟨taken, inner, rfl, hbranch⟩
    have h : Completes [.ifElse line guard body orelse] (.branch line guard taken :: (inner ++ [])) :=
      .ifElse taken hbranch .nil
    simpa using h

/-- A suite completes by completing its statements one after the other. -/
theorem completes_cons_iff {s : Stmt} {rest : List Stmt} : Completes (s :: rest) path
      ↔ ∃ first later, path = first ++ later ∧ Completes [s] first ∧ Completes rest later := by
  constructor
  · intro h
    cases h with
    | assign hrest => exact ⟨[_], _, rfl, .assign .nil, hrest⟩
    | expr hrest => exact ⟨[], _, rfl, .expr .nil, hrest⟩
    | ifElse taken hbranch hrest =>
      exact ⟨_ :: _, _, rfl, completes_ifElse_iff.2 ⟨taken, _, rfl, hbranch⟩, hrest⟩
  · rintro ⟨first, later, rfl, hfirst, hlater⟩
    cases s with
    | assign line endLine name valueName =>
      rw [completes_assign_iff] at hfirst
      subst hfirst
      exact .assign hlater
    | ret line endLine => exact absurd hfirst not_completes_ret
    | expr line endLine =>
      rw [completes_expr_iff] at hfirst
      subst hfirst
      exact .expr hlater
    | ifElse line guard body orelse =>
      obtain ⟨taken, inner, rfl, hbranch⟩ := completes_ifElse_iff.1 hfirst
      exact .ifElse taken hbranch hlater

mutual

/-- Whether a statement can complete, that is, not every path through it returns. -/
def Stmt.mayComplete : Stmt → Bool
  | .ret _ _ => false
  | .ifElse _ _ body orelse => suiteMayComplete body || suiteMayComplete orelse
  | _ => true

def suiteMayComplete : List Stmt → Bool
  | [] => true
  | s :: rest => s.mayComplete && suiteMayComplete rest

end

mutual

theorem Stmt.mayComplete_iff : ∀ s : Stmt, s.mayComplete = true ↔ ∃ path, Completes [s] path
  | .assign _ _ _ _ => by simp [Stmt.mayComplete]
  | .ret _ _ => by simp [Stmt.mayComplete]
  | .expr _ _ => by simp [Stmt.mayComplete]
  | .ifElse line guard body orelse => by
    simp only [Stmt.mayComplete, Bool.or_eq_true, suiteMayComplete_iff body,
      suiteMayComplete_iff orelse, completes_ifElse_iff]
    constructor
    · rintro (⟨path, hpath⟩ | ⟨path, hpath⟩)
      · exact ⟨_, true, path, rfl, hpath⟩
      · exact ⟨_, false, path, rfl, hpath⟩
    · rintro ⟨_, taken, path, _, hpath⟩
      cases taken with
      | true => exact .inl ⟨path, hpath⟩
      | false => exact .inr ⟨path, hpath⟩

theorem suiteMayComplete_iff :
    ∀ suite : List Stmt, suiteMayComplete suite = true ↔ ∃ path, Completes suite path
  | [] => by simp [suiteMayComplete]
  | s :: rest => by
    rw [suiteMayComplete, Bool.and_eq_true, Stmt.mayComplete_iff s, suiteMayComplete_iff rest]
    constructor
    · rintro ⟨⟨first, hfirst⟩, later, hlater⟩
      exact ⟨_, completes_cons_iff.2 ⟨first, later, rfl, hfirst, hlater⟩⟩
    · rintro ⟨path, hpath⟩
      obtain ⟨first, later, _, hfirst, hlater⟩ := completes_cons_iff.1 hpath
      exact ⟨⟨first, hfirst⟩, later, hlater⟩

end

/-! ## Layout -/

mutual

/-- A statement spans its lines. -/
theorem Stmt.lines_le : ∀ s : Stmt, s.laid = true →
    s.line ≤ s.endLine ∧ ∀ l ∈ s.lines, s.line ≤ l ∧ l ≤ s.endLine
  | .assign line endLine _ _, h => by
    have hle : line ≤ endLine := of_decide_eq_true h
    simp [Stmt.lines, Stmt.line, Stmt.endLine, hle]
  | .ret line endLine, h => by
    have hle : line ≤ endLine := of_decide_eq_true h
    simp [Stmt.lines, Stmt.line, Stmt.endLine, hle]
  | .expr line endLine, h => by
    have hle : line ≤ endLine := of_decide_eq_true h
    simp [Stmt.lines, Stmt.line, Stmt.endLine, hle]
  | .ifElse line guard body orelse, h => by
    simp only [Stmt.laid, Bool.and_eq_true] at h
    obtain ⟨⟨_, hbody⟩, horelse⟩ := h
    obtain ⟨hbodyEnd, hbodyLines⟩ := suiteLines_le line false body hbody
    obtain ⟨horelseEnd, horelseLines⟩ := suiteLines_le _ true orelse horelse
    simp only [Stmt.line, Stmt.endLine, Stmt.lines, List.mem_cons, List.mem_append]
    refine ⟨hbodyEnd.trans horelseEnd, ?_⟩
    rintro l (rfl | hl | hl)
    · exact ⟨le_rfl, hbodyEnd.trans horelseEnd⟩
    · have hle := hbodyLines l hl
      exact ⟨hle.1, hle.2.2.trans horelseEnd⟩
    · have hle := horelseLines l hl
      exact ⟨hbodyEnd.trans hle.1, hle.2.2⟩

/-- A suite starts no earlier than the text before it ends, and later when it is fresh. -/
theorem suiteLines_le (prev : Nat) (fresh : Bool) : ∀ suite : List Stmt,
    suiteLaid prev fresh suite = true →
      prev ≤ (suiteEndLineOptional suite).getD prev ∧
      ∀ l ∈ suiteLines suite,
        prev ≤ l ∧ (fresh = true → prev < l) ∧ l ≤ (suiteEndLineOptional suite).getD prev
  | [], _ => by simp [suiteLines, suiteEndLineOptional]
  | s :: rest, h => by
    simp only [suiteLaid, Bool.and_eq_true] at h
    obtain ⟨⟨hstart, hs⟩, hrest⟩ := h
    obtain ⟨hsEnd, hsLines⟩ := Stmt.lines_le s hs
    obtain ⟨hrestEnd, hrestLines⟩ := suiteLines_le s.endLine s.isCompound rest hrest
    have hle : prev ≤ s.line ∧ (fresh = true → prev < s.line) := by
      cases hfresh : fresh || s.isCompound with
      | true =>
        have hlt : prev < s.line := of_decide_eq_true (by simpa [hfresh] using hstart)
        exact ⟨hlt.le, fun _ => hlt⟩
      | false =>
        have hle : prev ≤ s.line := of_decide_eq_true (by simpa [hfresh] using hstart)
        refine ⟨hle, fun hf => ?_⟩
        simp [hf] at hfresh
    simp only [suiteEndLineOptional, Option.getD_some, suiteLines, List.mem_append]
    refine ⟨by omega, ?_⟩
    rintro l (hl | hl)
    · have hl' := hsLines l hl
      refine ⟨by omega, fun hf => ?_, by omega⟩
      have := hle.2 hf
      omega
    · have hl' := hrestLines l hl
      refine ⟨by omega, fun hf => ?_, by omega⟩
      have := hle.2 hf
      omega

end

/-- The layout of an `if`: its body follows the header, its `else` the body. -/
theorem Stmt.laid_ifElse (h : (Stmt.ifElse line guard body orelse).laid = true) :
    suiteLaid line false body = true
      ∧ suiteLaid ((suiteEndLineOptional body).getD line) true orelse = true := by
  simp only [Stmt.laid, Bool.and_eq_true] at h
  exact ⟨h.1.2, h.2⟩

variable {prev : Nat} {fresh : Bool}

theorem suiteLaid_cons {s : Stmt} {rest : List Stmt} (h : suiteLaid prev fresh (s :: rest) = true) :
    s.laid = true ∧ suiteLaid s.endLine s.isCompound rest = true := by
  simp only [suiteLaid, Bool.and_eq_true] at h
  exact ⟨h.1.2, h.2⟩

/-! ## Arriving at a line -/

mutual

theorem Stmt.mem_lines_of_wayTo (target : Nat) : ∀ (s : Stmt) (steps : List Step),
    s.wayTo target = some steps → target ∈ s.lines
  | .assign _ _ _ _, _, h => by simp [Stmt.wayTo] at h
  | .ret _ _, _, h => by simp [Stmt.wayTo] at h
  | .expr _ _, _, h => by simp [Stmt.wayTo] at h
  | .ifElse line guard body orelse, steps, h => by
    simp only [Stmt.lines, List.mem_cons, List.mem_append]
    cases hbody : suiteWayTo target body with
    | some inner => exact .inr (.inl (mem_suiteLines_of_wayTo target body inner hbody))
    | none =>
      obtain ⟨inner, horelse, _⟩ : ∃ inner, suiteWayTo target orelse = some inner
          ∧ .enter line guard false :: inner = steps := by
        simpa [Stmt.wayTo, hbody] using h
      exact .inr (.inr (mem_suiteLines_of_wayTo target orelse inner horelse))

theorem mem_suiteLines_of_wayTo (target : Nat) : ∀ (suite : List Stmt) (steps : List Step),
    suiteWayTo target suite = some steps → target ∈ suiteLines suite
  | [], _, h => by simp [suiteWayTo] at h
  | s :: rest, steps, h => by
    rw [suiteLines, List.mem_append]
    by_cases hline : s.line = target
    · left
      cases s <;> simp_all [Stmt.lines, Stmt.line]
    · cases hs : s.wayTo target with
      | some inner => exact .inl (Stmt.mem_lines_of_wayTo target s inner hs)
      | none =>
        obtain ⟨inner, hrest, _⟩ : ∃ inner, suiteWayTo target rest = some inner
            ∧ .done s :: inner = steps := by
          simpa [suiteWayTo, hline, hs] using h
        exact .inr (mem_suiteLines_of_wayTo target rest inner hrest)

end

variable {suite : List Stmt}

theorem Arrives.mem_suiteLines {target : Nat} (h : Arrives target suite path) :
    target ∈ suiteLines suite := by
  induction h with
  | @here s rest hline =>
    rw [suiteLines, List.mem_append]
    left
    cases s <;> simp_all [Stmt.lines, Stmt.line]
  | assign _ _ ih => simp [suiteLines, ih]
  | expr _ _ ih => simp [suiteLines, ih]
  | enter taken _ _ ih => cases taken <;> simp_all [suiteLines, Stmt.lines]
  | past _ _ _ _ ih => simp [suiteLines, ih]

/-- Every path to a line follows the way to it. -/
theorem Arrives.follows {target : Nat} (h : Arrives target suite path)
    (hlaid : suiteLaid prev fresh suite = true) :
    ∃ steps, suiteWayTo target suite = some steps ∧ Follows steps path := by
  induction h generalizing prev fresh with
  | here hline => exact ⟨[], by simp [suiteWayTo, hline], rfl⟩
  | @assign line endLine name valueName rest path hline hrest ih =>
    obtain ⟨_, hlaid'⟩ := suiteLaid_cons hlaid
    obtain ⟨steps, hway, hfollows⟩ := ih hlaid'
    refine ⟨.done (.assign line endLine name valueName) :: steps, ?_, [_], path, rfl,
      completes_assign_iff.2 rfl, hfollows⟩
    simp [suiteWayTo, Stmt.wayTo, Stmt.line, hline, hway]
  | @expr line endLine rest path hline hrest ih =>
    obtain ⟨_, hlaid'⟩ := suiteLaid_cons hlaid
    obtain ⟨steps, hway, hfollows⟩ := ih hlaid'
    refine ⟨.done (.expr line endLine) :: steps, ?_, [], path, rfl,
      completes_expr_iff.2 rfl, hfollows⟩
    simp [suiteWayTo, Stmt.wayTo, Stmt.line, hline, hway]
  | @enter line guard body orelse rest path taken hline hbranch ih =>
    obtain ⟨hs, _⟩ := suiteLaid_cons hlaid
    obtain ⟨hbody, horelse⟩ := Stmt.laid_ifElse hs
    cases taken with
    | true =>
      obtain ⟨steps, hway, hfollows⟩ := ih hbody
      have hway' : suiteWayTo target body = some steps := hway
      refine ⟨.enter line guard true :: steps, ?_, path, rfl, hfollows⟩
      simp [suiteWayTo, Stmt.wayTo, Stmt.line, hline, hway']
    | false =>
      obtain ⟨steps, hway, hfollows⟩ := ih horelse
      have hway' : suiteWayTo target orelse = some steps := hway
      -- the line is in the `else` branch, so it is not in the body
      have hnone : suiteWayTo target body = none := by
        cases hb : suiteWayTo target body with
        | none => rfl
        | some inner =>
          have h₁ := (suiteLines_le _ _ body hbody).2 target
            (mem_suiteLines_of_wayTo target body inner hb)
          have h₂ := (suiteLines_le _ _ orelse horelse).2 target
            (mem_suiteLines_of_wayTo target orelse steps hway')
          have := h₂.2.1 rfl
          omega
      refine ⟨.enter line guard false :: steps, ?_, path, rfl, hfollows⟩
      simp [suiteWayTo, Stmt.wayTo, Stmt.line, hline, hnone, hway']
  | @past line guard body orelse rest path path' taken hline hbranch hrest ih =>
    obtain ⟨hs, hlaid'⟩ := suiteLaid_cons hlaid
    obtain ⟨steps, hway, hfollows⟩ := ih hlaid'
    -- the line is behind the `if`, so it is in neither branch
    have hnone : (Stmt.ifElse line guard body orelse).wayTo target = none := by
      cases hb : (Stmt.ifElse line guard body orelse).wayTo target with
      | none => rfl
      | some inner =>
        have h₁ := (Stmt.lines_le _ hs).2 target (Stmt.mem_lines_of_wayTo target _ inner hb)
        have h₂ := (suiteLines_le _ _ rest hlaid').2 target hrest.mem_suiteLines
        have := h₂.2.1 rfl
        omega
    refine ⟨.done (.ifElse line guard body orelse) :: steps, ?_, .branch line guard taken :: path,
      path', by simp, completes_ifElse_iff.2 ⟨taken, path, rfl, hbranch⟩, hfollows⟩
    simp [suiteWayTo, Stmt.line, hline, hnone, hway]

mutual

theorem Stmt.arrives_of_wayTo (target : Nat) : ∀ (s : Stmt) (steps : List Step),
    s.wayTo target = some steps → s.line ≠ target → ∀ path, Follows steps path →
      ∀ rest, Arrives target (s :: rest) path
  | .assign _ _ _ _, _, h, _, _, _, _ => by simp [Stmt.wayTo] at h
  | .ret _ _, _, h, _, _, _, _ => by simp [Stmt.wayTo] at h
  | .expr _ _, _, h, _, _, _, _ => by simp [Stmt.wayTo] at h
  | .ifElse line guard body orelse, steps, h, hline, path, hfollows, rest => by
    cases hbody : suiteWayTo target body with
    | some inner =>
      have hsteps : .enter line guard true :: inner = steps := by
        simpa [Stmt.wayTo, hbody] using h
      subst hsteps
      obtain ⟨later, rfl, hlater⟩ := hfollows
      exact .enter true hline (arrives_of_wayTo target body inner hbody later hlater)
    | none =>
      obtain ⟨inner, horelse, rfl⟩ : ∃ inner, suiteWayTo target orelse = some inner
          ∧ .enter line guard false :: inner = steps := by
        simpa [Stmt.wayTo, hbody] using h
      obtain ⟨later, rfl, hlater⟩ := hfollows
      exact .enter false hline (arrives_of_wayTo target orelse inner horelse later hlater)

theorem arrives_of_wayTo (target : Nat) : ∀ (suite : List Stmt) (steps : List Step),
    suiteWayTo target suite = some steps → ∀ path, Follows steps path → Arrives target suite path
  | [], _, h, _, _ => by simp [suiteWayTo] at h
  | s :: rest, steps, h, path, hfollows => by
    by_cases hline : s.line = target
    · have hsteps : steps = [] := by simpa [suiteWayTo, hline] using h.symm
      subst hsteps
      obtain rfl : path = [] := hfollows
      exact .here hline
    · cases hs : s.wayTo target with
      | some inner =>
        have hsteps : inner = steps := by simpa [suiteWayTo, hline, hs] using h
        subst hsteps
        exact Stmt.arrives_of_wayTo target s inner hs hline path hfollows rest
      | none =>
        obtain ⟨inner, hrest, rfl⟩ : ∃ inner, suiteWayTo target rest = some inner
            ∧ .done s :: inner = steps := by
          simpa [suiteWayTo, hline, hs] using h
        obtain ⟨first, later, rfl, hfirst, hlater⟩ := hfollows
        have hrest' := arrives_of_wayTo target rest inner hrest later hlater
        cases s with
        | assign line endLine name valueName =>
          rw [completes_assign_iff] at hfirst
          subst hfirst
          exact .assign hline hrest'
        | ret line endLine => exact absurd hfirst not_completes_ret
        | expr line endLine =>
          rw [completes_expr_iff] at hfirst
          subst hfirst
          exact .expr hline hrest'
        | ifElse line guard body orelse =>
          obtain ⟨taken, branchPath, rfl, hbranch⟩ := completes_ifElse_iff.1 hfirst
          exact .past taken hline hbranch hrest'

end

/-- In a laid out body, the paths to a line are those that follow the way to it. -/
theorem arrives_iff (hlaid : suiteLaid prev fresh suite = true) (target : Nat) (path : List Event) :
    Arrives target suite path
      ↔ ∃ steps, suiteWayTo target suite = some steps ∧ Follows steps path := by
  constructor
  · intro h
    exact h.follows hlaid
  · rintro ⟨steps, hway, hfollows⟩
    exact arrives_of_wayTo target suite steps hway path hfollows

/-! ## Sites -/

/-- The function a body belongs to, and the type block of a method. -/
structure Owner where
  name : String
  typeName : Option String := none

/-- A site with these owner fields belongs to the owner. -/
def Owner.owns (owner : Owner) (ownerName ownerTypeName : Option String) : Bool :=
  ownerName == some owner.name && ownerTypeName == owner.typeName

def Owner.assignmentSite (owner : Owner) (line : Nat) (name : String)
    (valueName : Option String) : AssignmentSite where
  name := name
  valueName := valueName
  ownerName := some owner.name
  ownerTypeName := owner.typeName
  line := line

mutual

def Stmt.assignmentSites (owner : Owner) : Stmt → List AssignmentSite
  | .assign line _ name valueName => [owner.assignmentSite line name valueName]
  | .ifElse _ _ body orelse =>
    suiteAssignmentSites owner body ++ suiteAssignmentSites owner orelse
  | _ => []

def suiteAssignmentSites (owner : Owner) : List Stmt → List AssignmentSite
  | [] => []
  | s :: rest => s.assignmentSites owner ++ suiteAssignmentSites owner rest

end

mutual

def Stmt.returnSites (owner : Owner) : Stmt → List ReturnSite
  | .ret line _ => [{ ownerName := owner.name, ownerTypeName := owner.typeName, line := line }]
  | .ifElse _ _ body orelse => suiteReturnSites owner body ++ suiteReturnSites owner orelse
  | _ => []

def suiteReturnSites (owner : Owner) : List Stmt → List ReturnSite
  | [] => []
  | s :: rest => s.returnSites owner ++ suiteReturnSites owner rest

end

/-- The guard site of an `if`, with the line ranges of its suites. -/
def Owner.ifGuardSite (owner : Owner) (line : Nat) (guard : Option GuardConditionSite)
    (body orelse : List Stmt) : IfGuardSite where
  ownerName := some owner.name
  ownerTypeName := owner.typeName
  guard := guard
  line := line
  trueStartLine := (suiteStartLineOptional body).getD 0
  trueEndLine := (suiteEndLineOptional body).getD 0
  falseStartLine := suiteStartLineOptional orelse
  falseEndLine := suiteEndLineOptional orelse

mutual

/-- `collect_if_statements` on one statement: an `if` on a line that has a statement
recorded already is left out. -/
def Stmt.collectIfStatements (owner : Owner) (recorded : List Nat) : Stmt → List IfGuardSite
  | .ifElse line guard body orelse =>
    let own := if line ∈ recorded then [] else [owner.ifGuardSite line guard body orelse]
    let ofBody := suiteCollectIfStatements owner (own.map IfGuardSite.line ++ recorded) body
    let ofOrelse := suiteCollectIfStatements owner
      (ofBody.map IfGuardSite.line ++ own.map IfGuardSite.line ++ recorded) orelse
    own ++ ofBody ++ ofOrelse
  | _ => []

def suiteCollectIfStatements (owner : Owner) (recorded : List Nat) : List Stmt → List IfGuardSite
  | [] => []
  | s :: rest =>
    let first := s.collectIfStatements owner recorded
    first ++ suiteCollectIfStatements owner (first.map IfGuardSite.line ++ recorded) rest

end

/-- The guard sites of a body. The returns of the module are recorded before its guards. -/
def bodyIfGuards (owner : Owner) (body : List Stmt) : List IfGuardSite :=
  suiteCollectIfStatements owner ((suiteReturnSites owner body).map ReturnSite.line) body

/-! ## The sites of a laid out body -/

variable {site : AssignmentSite}

section

variable (owner : Owner)

mutual

theorem Stmt.line_mem_of_assignmentSites : ∀ s : Stmt,
    site ∈ s.assignmentSites owner → site.line ∈ s.lines
  | .assign _ _ _ _, h => by
    rw [Stmt.assignmentSites, List.mem_singleton] at h
    subst h
    simp [Stmt.lines, Stmt.line, Owner.assignmentSite]
  | .ret _ _, h => by simp [Stmt.assignmentSites] at h
  | .expr _ _, h => by simp [Stmt.assignmentSites] at h
  | .ifElse _ _ body orelse, h => by
    rw [Stmt.assignmentSites, List.mem_append] at h
    rw [Stmt.lines, List.mem_cons, List.mem_append]
    rcases h with h | h
    · exact .inr (.inl (line_mem_of_suiteAssignmentSites body h))
    · exact .inr (.inr (line_mem_of_suiteAssignmentSites orelse h))

theorem line_mem_of_suiteAssignmentSites : ∀ suite : List Stmt,
    site ∈ suiteAssignmentSites owner suite → site.line ∈ suiteLines suite
  | [], h => by simp [suiteAssignmentSites] at h
  | s :: rest, h => by
    rw [suiteAssignmentSites, List.mem_append] at h
    rw [suiteLines, List.mem_append]
    rcases h with h | h
    · exact .inl (Stmt.line_mem_of_assignmentSites s h)
    · exact .inr (line_mem_of_suiteAssignmentSites rest h)

end

/-- Sites come in the order of their lines. -/
def InLineOrder (sites : List AssignmentSite) : Prop :=
  sites.Pairwise fun a b => a.line ≤ b.line

mutual

theorem Stmt.assignmentSites_inLineOrder : ∀ s : Stmt, s.laid = true →
    InLineOrder (s.assignmentSites owner)
  | .assign _ _ _ _, _ => by simp [Stmt.assignmentSites, InLineOrder]
  | .ret _ _, _ => by simp [Stmt.assignmentSites, InLineOrder]
  | .expr _ _, _ => by simp [Stmt.assignmentSites, InLineOrder]
  | .ifElse line guard body orelse, h => by
    obtain ⟨hbody, horelse⟩ := Stmt.laid_ifElse h
    rw [Stmt.assignmentSites, InLineOrder, List.pairwise_append]
    refine ⟨suiteAssignmentSites_inLineOrder line false body hbody,
      suiteAssignmentSites_inLineOrder _ true orelse horelse, ?_⟩
    intro a ha b hb
    have h₁ := (suiteLines_le _ _ body hbody).2 _ (line_mem_of_suiteAssignmentSites owner body ha)
    have h₂ := (suiteLines_le _ _ orelse horelse).2 _
      (line_mem_of_suiteAssignmentSites owner orelse hb)
    omega

theorem suiteAssignmentSites_inLineOrder (prev : Nat) (fresh : Bool) : ∀ suite : List Stmt,
    suiteLaid prev fresh suite = true → InLineOrder (suiteAssignmentSites owner suite)
  | [], _ => by simp [suiteAssignmentSites, InLineOrder]
  | s :: rest, h => by
    obtain ⟨hs, hrest⟩ := suiteLaid_cons h
    rw [suiteAssignmentSites, InLineOrder, List.pairwise_append]
    refine ⟨Stmt.assignmentSites_inLineOrder s hs,
      suiteAssignmentSites_inLineOrder s.endLine s.isCompound rest hrest, ?_⟩
    intro a ha b hb
    have h₁ := (Stmt.lines_le s hs).2 _ (Stmt.line_mem_of_assignmentSites owner s ha)
    have h₂ := (suiteLines_le _ _ rest hrest).2 _
      (line_mem_of_suiteAssignmentSites owner rest hb)
    omega

end

/-- A path assigns at sites of its suite. -/
theorem Completes.site_mem (h : Completes suite path) {name : String} {source : Option String}
    (hevent : Event.assigned line name source ∈ path) :
    owner.assignmentSite line name source ∈ suiteAssignmentSites owner suite := by
  induction h with
  | nil => simp at hevent
  | assign _ ih =>
    rw [suiteAssignmentSites, Stmt.assignmentSites, List.mem_append, List.mem_singleton]
    rcases List.mem_cons.1 hevent with heq | hlater
    · left
      cases heq
      rfl
    · exact .inr (ih hlater)
  | expr _ ih => simpa [suiteAssignmentSites, Stmt.assignmentSites] using ih hevent
  | ifElse taken _ _ ihbranch ihrest =>
    rw [suiteAssignmentSites, Stmt.assignmentSites, List.mem_append, List.mem_append]
    have hcases := List.mem_append.1 ((List.mem_cons.1 hevent).resolve_left (by simp))
    rcases hcases with hbranch | hrest
    · cases taken with
      | true => exact .inl (.inl (ihbranch hbranch))
      | false => exact .inl (.inr (ihbranch hbranch))
    · exact .inr (ihrest hrest)

/-- On the way to a line, a path assigns at sites before the line. -/
theorem Arrives.site_mem {target : Nat} (h : Arrives target suite path)
    (hlaid : suiteLaid prev fresh suite = true) {name : String} {source : Option String}
    (hevent : Event.assigned line name source ∈ path) :
    owner.assignmentSite line name source ∈ suiteAssignmentSites owner suite ∧ line < target := by
  induction h generalizing prev fresh with
  | here => simp at hevent
  | @assign line' endLine name' source' rest path hline hrest ih =>
    obtain ⟨hs, hlaid'⟩ := suiteLaid_cons hlaid
    rw [suiteAssignmentSites, Stmt.assignmentSites, List.mem_append, List.mem_singleton]
    rcases List.mem_cons.1 hevent with heq | hlater
    · cases heq
      have h₁ := (Stmt.lines_le _ hs).1
      have h₂ := (suiteLines_le _ _ rest hlaid').2 target hrest.mem_suiteLines
      simp only [Stmt.line] at h₁
      exact ⟨.inl rfl, by omega⟩
    · have := ih hlaid' hlater
      exact ⟨.inr this.1, this.2⟩
  | expr _ _ ih =>
    simpa [suiteAssignmentSites, Stmt.assignmentSites] using ih (suiteLaid_cons hlaid).2 hevent
  | @enter line' guard body orelse rest path taken _ _ ih =>
    obtain ⟨hbody, horelse⟩ := Stmt.laid_ifElse (suiteLaid_cons hlaid).1
    have hlater := (List.mem_cons.1 hevent).resolve_left (by simp)
    rw [suiteAssignmentSites, Stmt.assignmentSites, List.mem_append, List.mem_append]
    cases taken with
    | true =>
      have := ih hbody hlater
      exact ⟨.inl (.inl this.1), this.2⟩
    | false =>
      have := ih horelse hlater
      exact ⟨.inl (.inr this.1), this.2⟩
  | @past line' guard body orelse rest path path' taken _ hbranch hrest ih =>
    obtain ⟨hs, hlaid'⟩ := suiteLaid_cons hlaid
    rw [suiteAssignmentSites, List.mem_append]
    have hcases := List.mem_append.1 ((List.mem_cons.1 hevent).resolve_left (by simp))
    rcases hcases with hin | hlater
    · have hsite : owner.assignmentSite line name source
          ∈ (Stmt.ifElse line' guard body orelse).assignmentSites owner := by
        rw [Stmt.assignmentSites, List.mem_append]
        cases taken with
        | true => exact .inl (hbranch.site_mem owner hin)
        | false => exact .inr (hbranch.site_mem owner hin)
      have h₁ := (Stmt.lines_le _ hs).2 _ (Stmt.line_mem_of_assignmentSites owner _ hsite)
      have h₂ := (suiteLines_le _ _ rest hlaid').2 target hrest.mem_suiteLines
      have h₃ := h₂.2.1 rfl
      simp only [Owner.assignmentSite] at h₁
      exact ⟨.inl hsite, by omega⟩
    · have := ih hlaid' hlater
      exact ⟨.inr this.1, this.2⟩

end

mutual

theorem Stmt.mem_collectIfStatements (owner : Owner) {site : IfGuardSite} :
    ∀ (s : Stmt) (recorded : List Nat), s.laid = true →
      site ∈ s.collectIfStatements owner recorded →
        ∃ line guard body orelse, site = owner.ifGuardSite line guard body orelse
          ∧ (Stmt.ifElse line guard body orelse).laid = true
  | .assign _ _ _ _, _, _, h => by simp [Stmt.collectIfStatements] at h
  | .ret _ _, _, _, h => by simp [Stmt.collectIfStatements] at h
  | .expr _ _, _, _, h => by simp [Stmt.collectIfStatements] at h
  | .ifElse line guard body orelse, recorded, hlaid, h => by
    obtain ⟨hbody, horelse⟩ := Stmt.laid_ifElse hlaid
    simp only [Stmt.collectIfStatements, List.mem_append] at h
    rcases h with (hown | hin) | hin
    · split at hown
      · simp at hown
      · exact ⟨line, guard, body, orelse, by simpa using hown, hlaid⟩
    · exact mem_suiteCollectIfStatements owner body _ line false hbody hin
    · exact mem_suiteCollectIfStatements owner orelse _ _ true horelse hin

/-- Every recorded guard site is that of an `if` of the suite. -/
theorem mem_suiteCollectIfStatements (owner : Owner) {site : IfGuardSite} :
    ∀ (suite : List Stmt) (recorded : List Nat) (prev : Nat) (fresh : Bool),
      suiteLaid prev fresh suite = true → site ∈ suiteCollectIfStatements owner recorded suite →
        ∃ line guard body orelse, site = owner.ifGuardSite line guard body orelse
          ∧ (Stmt.ifElse line guard body orelse).laid = true
  | [], _, _, _, _, h => by simp [suiteCollectIfStatements] at h
  | s :: rest, recorded, _, _, hlaid, h => by
    obtain ⟨hs, hrest⟩ := suiteLaid_cons hlaid
    simp only [suiteCollectIfStatements, List.mem_append] at h
    rcases h with hin | hin
    · exact Stmt.mem_collectIfStatements owner s recorded hs hin
    · exact mem_suiteCollectIfStatements owner rest _ _ _ hrest hin

end

/-- The `else` suite ends no earlier than the body. -/
theorem ifGuardSite_end_le (owner : Owner)
    (hlaid : (Stmt.ifElse line guard body orelse).laid = true) {falseEnd : Nat}
    (hend : (owner.ifGuardSite line guard body orelse).falseEndLine = some falseEnd) :
    (owner.ifGuardSite line guard body orelse).trueEndLine ≤ falseEnd := by
  have horelse := (suiteLines_le _ _ orelse (Stmt.laid_ifElse hlaid).2).1
  simp only [Owner.ifGuardSite] at hend ⊢
  rw [hend, Option.getD_some] at horelse
  cases hbody : suiteEndLineOptional body with
  | none => simp
  | some bodyEnd => simpa [hbody] using horelse

/-- The module node records the body: the sites under its owner are those of the body. -/
structure Records (node : ModuleNode) (owner : Owner) (body : List Stmt) : Prop where
  assignments : (node.assignments.filter fun site => owner.owns site.ownerName site.ownerTypeName)
    = suiteAssignmentSites owner body
  returns : (node.returns.filter fun site => owner.owns (some site.ownerName) site.ownerTypeName)
    = suiteReturnSites owner body
  ifGuards : (node.ifGuards.filter fun site => owner.owns site.ownerName site.ownerTypeName)
    = bodyIfGuards owner body
  asserts : (node.asserts.filter fun site => owner.owns site.ownerName site.ownerTypeName) = []
  invalidations :
    (node.invalidations.filter fun site => owner.owns site.ownerName site.ownerTypeName) = []

/-- The module with nothing but the body. -/
def moduleOf (owner : Owner) (body : List Stmt) : ModuleNode where
  moduleKey := "app"
  assignments := suiteAssignmentSites owner body
  returns := suiteReturnSites owner body
  ifGuards := bodyIfGuards owner body

mutual

theorem Stmt.eq_of_mem_assignmentSites (owner : Owner) : ∀ s : Stmt,
    site ∈ s.assignmentSites owner →
      ∃ line name source, site = owner.assignmentSite line name source
  | .assign line _ name source, h => by
    rw [Stmt.assignmentSites, List.mem_singleton] at h
    exact ⟨line, name, source, h⟩
  | .ret _ _, h => by simp [Stmt.assignmentSites] at h
  | .expr _ _, h => by simp [Stmt.assignmentSites] at h
  | .ifElse _ _ body orelse, h => by
    rw [Stmt.assignmentSites, List.mem_append] at h
    rcases h with h | h
    · exact eq_of_mem_suiteAssignmentSites owner body h
    · exact eq_of_mem_suiteAssignmentSites owner orelse h

theorem eq_of_mem_suiteAssignmentSites (owner : Owner) :
    ∀ suite : List Stmt, site ∈ suiteAssignmentSites owner suite →
      ∃ line name source, site = owner.assignmentSite line name source
  | [], h => by simp [suiteAssignmentSites] at h
  | s :: rest, h => by
    rw [suiteAssignmentSites, List.mem_append] at h
    rcases h with h | h
    · exact Stmt.eq_of_mem_assignmentSites owner s h
    · exact eq_of_mem_suiteAssignmentSites owner rest h

end

mutual

theorem Stmt.owned_of_mem_returnSites (owner : Owner) {site : ReturnSite} : ∀ s : Stmt,
    site ∈ s.returnSites owner → owner.owns (some site.ownerName) site.ownerTypeName = true
  | .ret _ _, h => by
    rw [Stmt.returnSites, List.mem_singleton] at h
    simp [h, Owner.owns]
  | .assign _ _ _ _, h => by simp [Stmt.returnSites] at h
  | .expr _ _, h => by simp [Stmt.returnSites] at h
  | .ifElse _ _ body orelse, h => by
    rw [Stmt.returnSites, List.mem_append] at h
    rcases h with h | h
    · exact owned_of_mem_suiteReturnSites owner body h
    · exact owned_of_mem_suiteReturnSites owner orelse h

theorem owned_of_mem_suiteReturnSites (owner : Owner) {site : ReturnSite} : ∀ suite : List Stmt,
    site ∈ suiteReturnSites owner suite →
      owner.owns (some site.ownerName) site.ownerTypeName = true
  | [], h => by simp [suiteReturnSites] at h
  | s :: rest, h => by
    rw [suiteReturnSites, List.mem_append] at h
    rcases h with h | h
    · exact Stmt.owned_of_mem_returnSites owner s h
    · exact owned_of_mem_suiteReturnSites owner rest h

end

theorem moduleOf_records (owner : Owner) (hlaid : suiteLaid prev fresh body = true) :
    Records (moduleOf owner body) owner body where
  assignments := by
    refine List.filter_eq_self.2 fun site hsite => ?_
    obtain ⟨line, name, source, rfl⟩ := eq_of_mem_suiteAssignmentSites owner body hsite
    simp [Owner.owns, Owner.assignmentSite]
  returns := List.filter_eq_self.2 fun _ hsite => owned_of_mem_suiteReturnSites owner body hsite
  ifGuards := by
    refine List.filter_eq_self.2 fun site hsite => ?_
    obtain ⟨line, guard, bodySuite, orelse, rfl, _⟩ :=
      mem_suiteCollectIfStatements owner body _ prev fresh hlaid hsite
    simp [Owner.owns, Owner.ifGuardSite]
  asserts := rfl
  invalidations := rfl

end TypePython.Binding
