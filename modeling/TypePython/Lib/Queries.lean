import Mathlib.Init

/-!
# Programs that ask questions

A recursive function that may run forever, as a program for each question: the program asks
further questions and goes on with their answers. `answer` runs it to a depth, `Answers` is what
is found at some depth. The answers are unique (`Answers.unique`), they are what the programs
yield from answers (`answers_iff`), and every relation with that property holds of them
(`answers_induct`).
-/

namespace TypePython.Lib

/-- A program that asks questions `i : ι` and gets answers `b : β i`. -/
inductive Prog (ι : Type) (β : ι → Type) (α : Type) where
  | ret (a : α)
  | ask (i : ι) (next : β i → Prog ι β α)

namespace Prog

variable {ι : Type} {β : ι → Type} {α γ : Type}

def bind : Prog ι β α → (α → Prog ι β γ) → Prog ι β γ
  | .ret a, f => f a
  | .ask i next, f => .ask i fun b => (next b).bind f

instance : Monad (Prog ι β) where
  pure := .ret
  bind := .bind

/-- Ask one question. -/
def query (i : ι) : Prog ι β (β i) := .ask i .ret

/-- Whether a test holds of all items; it stops at the first that fails. -/
def all (test : α → Prog ι β Bool) : List α → Prog ι β Bool
  | [] => pure true
  | a :: rest => do
    if ← test a then all test rest else pure false

/-- Whether a test holds of some item; it stops at the first that passes. -/
def any (test : α → Prog ι β Bool) : List α → Prog ι β Bool
  | [] => pure false
  | a :: rest => do
    if ← test a then pure true else any test rest

/-! ## Yielding -/

/-- The program ends with a value when its questions get answers from a relation. -/
def Yields (P : (i : ι) → β i → Prop) : Prog ι β α → α → Prop
  | .ret a, a' => a' = a
  | .ask i next, a' => ∃ b, P i b ∧ (next b).Yields P a'

section Yields

variable {P Q : (i : ι) → β i → Prop}

@[simp] theorem yields_ret (a a' : α) : (Prog.ret a : Prog ι β α).Yields P a' ↔ a' = a := Iff.rfl

@[simp] theorem yields_pure (a a' : α) : (pure a : Prog ι β α).Yields P a' ↔ a' = a := Iff.rfl

@[simp] theorem yields_query (i : ι) (b : β i) : (query i).Yields P b ↔ P i b := by
  constructor
  · rintro ⟨b', hb', rfl⟩
    exact hb'
  · intro hb
    exact ⟨b, hb, rfl⟩

@[simp] theorem yields_bind (p : Prog ι β α) (f : α → Prog ι β γ) (c : γ) :
    (p >>= f).Yields P c ↔ ∃ a, p.Yields P a ∧ (f a).Yields P c := by
  show (p.bind f).Yields P c ↔ _
  induction p with
  | ret a =>
    constructor
    · intro h
      exact ⟨a, rfl, h⟩
    · rintro ⟨a', rfl, h⟩
      exact h
  | ask i next ih =>
    constructor
    · rintro ⟨b, hb, h⟩
      rcases (ih b).1 h with ⟨a, ha, hc⟩
      exact ⟨a, ⟨b, hb, ha⟩, hc⟩
    · rintro ⟨a, ⟨b, hb, ha⟩, hc⟩
      exact ⟨b, hb, (ih b).2 ⟨a, ha, hc⟩⟩

theorem Yields.mono (hPQ : ∀ i b, P i b → Q i b) {p : Prog ι β α} {a : α} (h : p.Yields P a) :
    p.Yields Q a := by
  induction p with
  | ret a' => exact h
  | ask i next ih =>
    rcases h with ⟨b, hb, h⟩
    exact ⟨b, hPQ i b hb, ih b h⟩

/-- Unique answers give unique values. -/
theorem Yields.unique (hP : ∀ i b b', P i b → P i b' → b = b') {p : Prog ι β α} {a a' : α}
    (h : p.Yields P a) (h' : p.Yields P a') : a = a' := by
  induction p with
  | ret a'' => exact Eq.trans h (Eq.symm h')
  | ask i next ih =>
    rcases h with ⟨b, hb, h⟩
    rcases h' with ⟨b', hb', h'⟩
    have hbb := hP i b b' hb hb'
    subst hbb
    exact ih b h h'

/-! ## Tests of lists -/

theorem yields_all_cons (test : α → Prog ι β Bool) (a : α) (rest : List α) (b : Bool) :
    (all test (a :: rest)).Yields P b
      ↔ ((test a).Yields P true ∧ (all test rest).Yields P b)
        ∨ ((test a).Yields P false ∧ b = false) := by
  rw [all, yields_bind]
  constructor
  · rintro ⟨c, hc, h⟩
    cases c with
    | true => exact .inl ⟨hc, h⟩
    | false => exact .inr ⟨hc, h⟩
  · rintro (⟨hc, h⟩ | ⟨hc, h⟩)
    · exact ⟨true, hc, h⟩
    · exact ⟨false, hc, h⟩

theorem yields_any_cons (test : α → Prog ι β Bool) (a : α) (rest : List α) (b : Bool) :
    (any test (a :: rest)).Yields P b
      ↔ ((test a).Yields P true ∧ b = true)
        ∨ ((test a).Yields P false ∧ (any test rest).Yields P b) := by
  rw [any, yields_bind]
  constructor
  · rintro ⟨c, hc, h⟩
    cases c with
    | true => exact .inl ⟨hc, h⟩
    | false => exact .inr ⟨hc, h⟩
  · rintro (⟨hc, h⟩ | ⟨hc, h⟩)
    · exact ⟨true, hc, h⟩
    · exact ⟨false, hc, h⟩

theorem yields_all_true {test : α → Prog ι β Bool} {items : List α} :
    (all test items).Yields P true ↔ ∀ a ∈ items, (test a).Yields P true := by
  induction items with
  | nil =>
    constructor
    · intro _ a ha
      exact absurd ha List.not_mem_nil
    · intro _
      exact rfl
  | cons a rest ih =>
    rw [yields_all_cons, ih, List.forall_mem_cons]
    constructor
    · rintro (h | ⟨-, hfalse⟩)
      · exact h
      · cases hfalse
    · exact .inl

theorem yields_any_false {test : α → Prog ι β Bool} {items : List α} :
    (any test items).Yields P false ↔ ∀ a ∈ items, (test a).Yields P false := by
  induction items with
  | nil =>
    constructor
    · intro _ a ha
      exact absurd ha List.not_mem_nil
    · intro _
      exact rfl
  | cons a rest ih =>
    rw [yields_any_cons, ih, List.forall_mem_cons]
    constructor
    · rintro (⟨-, htrue⟩ | h)
      · cases htrue
      · exact h
    · exact .inr

theorem exists_of_yields_all_false {test : α → Prog ι β Bool} {items : List α}
    (h : (all test items).Yields P false) : ∃ a ∈ items, (test a).Yields P false := by
  induction items with
  | nil => cases h
  | cons a rest ih =>
    rcases (yields_all_cons test a rest false).1 h with ⟨-, hrest⟩ | ⟨ha, -⟩
    · rcases ih hrest with ⟨a', hmem, ha'⟩
      exact ⟨a', List.mem_cons_of_mem a hmem, ha'⟩
    · exact ⟨a, List.mem_cons_self, ha⟩

theorem exists_of_yields_any_true {test : α → Prog ι β Bool} {items : List α}
    (h : (any test items).Yields P true) : ∃ a ∈ items, (test a).Yields P true := by
  induction items with
  | nil => cases h
  | cons a rest ih =>
    rcases (yields_any_cons test a rest true).1 h with ⟨ha, -⟩ | ⟨-, hrest⟩
    · exact ⟨a, List.mem_cons_self, ha⟩
    · rcases ih hrest with ⟨a', hmem, ha'⟩
      exact ⟨a', List.mem_cons_of_mem a hmem, ha'⟩

/-- When every test ends, so does the search. -/
theorem exists_yields_any {test : α → Prog ι β Bool} {items : List α}
    (h : ∀ a ∈ items, ∃ b, (test a).Yields P b) : ∃ b, (any test items).Yields P b := by
  induction items with
  | nil => exact ⟨false, rfl⟩
  | cons a rest ih =>
    rw [List.forall_mem_cons] at h
    rcases h.1 with ⟨b, hb⟩
    cases b with
    | true => exact ⟨true, (yields_any_cons test a rest true).2 (.inl ⟨hb, rfl⟩)⟩
    | false =>
      rcases ih h.2 with ⟨b', hb'⟩
      exact ⟨b', (yields_any_cons test a rest b').2 (.inr ⟨hb, hb'⟩)⟩

end Yields

/-! ## Answers -/

/-- The value of a program, when an oracle answers its questions. -/
def run (oracle : (i : ι) → Option (β i)) : Prog ι β α → Option α
  | .ret a => some a
  | .ask i next => (oracle i).bind fun b => (next b).run oracle

theorem run_eq_some_iff {oracle : (i : ι) → Option (β i)} {p : Prog ι β α} {a : α} :
    p.run oracle = some a ↔ p.Yields (fun i b => oracle i = some b) a := by
  induction p with
  | ret a' =>
    unfold run
    rw [Option.some.injEq, yields_ret, eq_comm]
  | ask i next ih =>
    unfold run
    rw [Option.bind_eq_some_iff]
    constructor
    · rintro ⟨b, hb, h⟩
      exact ⟨b, hb, (ih b).1 h⟩
    · rintro ⟨b, hb, h⟩
      exact ⟨b, hb, (ih b).2 h⟩

end Prog

section Answers

variable {ι : Type} {β : ι → Type} (body : (i : ι) → Prog ι β (β i))

/-- The answer to a question, if it is found to a depth. -/
def answer : Nat → (i : ι) → Option (β i)
  | 0, _ => none
  | depth + 1, i => (body i).run (answer depth)

/-- The answer to a question, found at some depth. -/
def Answers (i : ι) (b : β i) : Prop := ∃ depth, answer body depth i = some b

variable {body}

theorem answer_succ {depth : Nat} {i : ι} {b : β i} (h : answer body depth i = some b) :
    answer body (depth + 1) i = some b := by
  induction depth generalizing i b with
  | zero => cases h
  | succ depth ih =>
    have hyields := Prog.run_eq_some_iff.1 h
    exact Prog.run_eq_some_iff.2 (hyields.mono fun i b hb => ih hb)

/-- What is found stays found. -/
theorem answer_mono {depth depth' : Nat} (hle : depth ≤ depth') {i : ι} {b : β i}
    (h : answer body depth i = some b) : answer body depth' i = some b := by
  induction hle with
  | refl => exact h
  | step _ ih => exact answer_succ ih

theorem Answers.unique {i : ι} {b b' : β i} (h : Answers body i b) (h' : Answers body i b') :
    b = b' := by
  rcases h with ⟨depth, h⟩
  rcases h' with ⟨depth', h'⟩
  have hb := answer_mono (Nat.le_max_left depth depth') h
  have hb' := answer_mono (Nat.le_max_right depth depth') h'
  exact Option.some.inj (hb.symm.trans hb')

/-- A value that is yielded from answers is yielded from those of some depth. -/
theorem exists_depth_of_yields {α : Type} {p : Prog ι β α} {a : α}
    (h : p.Yields (Answers body) a) :
    ∃ depth, p.Yields (fun i b => answer body depth i = some b) a := by
  induction p with
  | ret a' => exact ⟨0, h⟩
  | ask i next ih =>
    rcases h with ⟨b, ⟨depth, hb⟩, h⟩
    rcases ih b h with ⟨depth', h'⟩
    refine ⟨max depth depth', b, answer_mono (Nat.le_max_left depth depth') hb, ?_⟩
    exact h'.mono fun i b hb => answer_mono (Nat.le_max_right depth depth') hb

/-- The answers are what the programs yield from answers. -/
theorem answers_iff {i : ι} {b : β i} : Answers body i b ↔ (body i).Yields (Answers body) b := by
  constructor
  · rintro ⟨depth, h⟩
    cases depth with
    | zero => cases h
    | succ depth =>
      have hyields := Prog.run_eq_some_iff.1 h
      exact hyields.mono fun i b hb => ⟨depth, hb⟩
  · intro h
    rcases exists_depth_of_yields h with ⟨depth, h⟩
    exact ⟨depth + 1, Prog.run_eq_some_iff.2 h⟩

/-- Whatever holds of what the programs yield holds of the answers. -/
theorem answers_induct {P : (i : ι) → β i → Prop}
    (h : ∀ i b, (body i).Yields (fun i b => P i b ∧ Answers body i b) b → P i b) {i : ι} {b : β i}
    (hb : Answers body i b) : P i b := by
  rcases hb with ⟨depth, hb⟩
  induction depth generalizing i b with
  | zero => cases hb
  | succ depth ih =>
    apply h i b
    have hyields := Prog.run_eq_some_iff.1 hb
    exact hyields.mono fun i b hb => ⟨ih hb, depth, hb⟩

end Answers

end TypePython.Lib
