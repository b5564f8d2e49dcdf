import TypePython.Lib.Queries

/-!
# Two runs side by side

Two families of programs over the same questions, compared answer by answer: if the programs
take related answers to related values, the answers are related (`answers_related`). The rules
follow the way programs are put together. A program that only asks what the two families agree
on has the same value in both (`Related.of_asks`).
-/

namespace TypePython.Lib

namespace Prog

variable {ι : Type} {β : ι → Type} {α α' γ γ' : Type}

/-! ## Which questions a program asks -/

/-- All questions of a program are of a kind, whatever the answers. -/
def Asks (Q : ι → Prop) : Prog ι β α → Prop
  | .ret _ => True
  | .ask i next => Q i ∧ ∀ b, (next b).Asks Q

section

variable {Q : ι → Prop}

theorem asks_pure (a : α) : (pure a : Prog ι β α).Asks Q := trivial

theorem asks_query {i : ι} (h : Q i) : (query i : Prog ι β (β i)).Asks Q :=
  ⟨h, fun _ => trivial⟩

theorem asks_bind {p : Prog ι β α} {f : α → Prog ι β γ} (hp : p.Asks Q)
    (hf : ∀ a, (f a).Asks Q) : (p >>= f).Asks Q := by
  show (p.bind f).Asks Q
  induction p with
  | ret a => exact hf a
  | ask i next ih => exact ⟨hp.1, fun b => ih b (hp.2 b)⟩

theorem asks_all {test : α → Prog ι β Bool} (h : ∀ a, (test a).Asks Q) (items : List α) :
    (all test items).Asks Q := by
  induction items with
  | nil => exact asks_pure true
  | cons a rest ih =>
    refine asks_bind (h a) fun holds => ?_
    cases holds with
    | true => exact ih
    | false => exact asks_pure false

theorem asks_any {test : α → Prog ι β Bool} (h : ∀ a, (test a).Asks Q) (items : List α) :
    (any test items).Asks Q := by
  induction items with
  | nil => exact asks_pure false
  | cons a rest ih =>
    refine asks_bind (h a) fun holds => ?_
    cases holds with
    | true => exact asks_pure true
    | false => exact ih

end

/-! ## Related programs -/

variable (R : (i : ι) → β i → β i → Prop)

/-- Two programs take answers related by `R` to values related by `S`. -/
def Related (S : α → α' → Prop) (p : Prog ι β α) (p' : Prog ι β α') : Prop :=
  ∀ P P' : (i : ι) → β i → Prop, (∀ i b b', P i b → P' i b' → R i b b') →
    ∀ a a', p.Yields P a → p'.Yields P' a' → S a a'

variable {R}

namespace Related

theorem of_pure {S : α → α' → Prop} {a : α} {a' : α'} (h : S a a') :
    Related R S (pure a) (pure a') := by
  rintro P P' - x x' rfl rfl
  exact h

theorem of_query (i : ι) : Related R (R i) (query i) (query i) := by
  intro P P' hR b b' hb hb'
  exact hR i b b' ((yields_query i b).1 hb) ((yields_query i b').1 hb')

theorem bind {S : α → α' → Prop} {T : γ → γ' → Prop} {p : Prog ι β α} {p' : Prog ι β α'}
    {f : α → Prog ι β γ} {f' : α' → Prog ι β γ'} (hp : Related R S p p')
    (hf : ∀ a a', S a a' → Related R T (f a) (f' a')) : Related R T (p >>= f) (p' >>= f') := by
  intro P P' hR c c' hc hc'
  obtain ⟨a, ha, hc⟩ := (yields_bind p f c).1 hc
  obtain ⟨a', ha', hc'⟩ := (yields_bind p' f' c').1 hc'
  exact hf a a' (hp P P' hR a a' ha ha') P P' hR c c' hc hc'

theorem mono {S T : α → α' → Prop} (h : ∀ a a', S a a' → T a a') {p : Prog ι β α}
    {p' : Prog ι β α'} (hp : Related R S p p') : Related R T p p' :=
  fun P P' hR a a' ha ha' => h a a' (hp P P' hR a a' ha ha')

/-- A value on the left that is related to every value. -/
theorem of_left {S : α → α' → Prop} {a : α} (h : ∀ a', S a a') (p' : Prog ι β α') :
    Related R S (pure a) p' := by
  rintro P P' - x a' rfl -
  exact h a'

theorem of_right {S : α → α' → Prop} {a' : α'} (h : ∀ a, S a a') (p : Prog ι β α) :
    Related R S p (pure a') := by
  rintro P P' - a x - rfl
  exact h a

/-- A program that asks only what has one answer on both sides has one value. -/
theorem of_asks {p : Prog ι β α} (hp : p.Asks fun i => ∀ b b', R i b b' → b = b') :
    Related R Eq p p := by
  intro P P' hR a a' ha ha'
  induction p with
  | ret a'' => exact Eq.trans ha (Eq.symm ha')
  | ask i next ih =>
    obtain ⟨b, hb, ha⟩ := ha
    obtain ⟨b', hb', ha'⟩ := ha'
    obtain rfl := hp.1 b b' (hR i b b' hb hb')
    exact ih b (hp.2 b) ha ha'

/-! ## Tests

Tests are related by implication: what holds on the left holds on the right. -/

/-- What holds on the left holds on the right. -/
def Implies (holds holds' : Bool) : Prop := holds = true → holds' = true

theorem Implies.of_eq {holds holds' : Bool} (h : holds = holds') : Implies holds holds' :=
  fun htrue => h ▸ htrue

theorem Implies.of_false (holds : Bool) : Implies false holds := fun h => absurd h (by decide)

theorem Implies.of_true (holds : Bool) : Implies holds true := fun _ => rfl

/-- Conjunction: the second test is made only if the first holds. -/
theorem and_then {first first' second second' : Prog ι β Bool}
    (hfirst : Related R Implies first first') (hsecond : Related R Implies second second') :
    Related R Implies (do if ← first then second else pure false)
      (do if ← first' then second' else pure false) := by
  refine hfirst.bind fun holds holds' himplies => ?_
  cases holds with
  | false => exact of_left Implies.of_false _
  | true =>
    rw [himplies rfl]
    exact hsecond

/-- Disjunction: the second test is made only if the first fails. -/
theorem or_else {first first' second second' : Prog ι β Bool}
    (hfirst : Related R Implies first first') (hsecond : Related R Implies second second') :
    Related R Implies (do if ← first then pure true else second)
      (do if ← first' then pure true else second') := by
  refine hfirst.bind fun holds holds' himplies => ?_
  cases holds' with
  | true => exact of_right Implies.of_true _
  | false =>
    cases holds with
    | true => exact absurd (himplies rfl) (by decide)
    | false => exact hsecond

theorem all_items {test test' : α → Prog ι β Bool} {items : List α}
    (h : ∀ a ∈ items, Related R Implies (test a) (test' a)) :
    Related R Implies (all test items) (all test' items) := by
  induction items with
  | nil => exact of_pure (Implies.of_true true)
  | cons a rest ih =>
    rw [List.forall_mem_cons] at h
    exact and_then h.1 (ih h.2)

theorem any_item {test test' : α → Prog ι β Bool} {items : List α}
    (h : ∀ a ∈ items, Related R Implies (test a) (test' a)) :
    Related R Implies (any test items) (any test' items) := by
  induction items with
  | nil => exact of_pure (Implies.of_false false)
  | cons a rest ih =>
    rw [List.forall_mem_cons] at h
    exact or_else h.1 (ih h.2)

end Related

end Prog

/-- If the programs for each question are related, so are the answers. -/
theorem answers_related {ι : Type} {β : ι → Type} {body body' : (i : ι) → Prog ι β (β i)}
    {R : (i : ι) → β i → β i → Prop} (h : ∀ i, Prog.Related R (R i) (body i) (body' i)) {i : ι}
    {b b' : β i} (hb : Answers body i b) (hb' : Answers body' i b') : R i b b' := by
  refine answers_induct (P := fun i b => ∀ b', Answers body' i b' → R i b b') ?_ hb b' hb'
  intro i b hyields b' hb'
  refine h i _ (Answers body') ?_ b b' hyields (answers_iff.1 hb')
  intro i b b' hb hb'
  exact hb.1 b' hb'

end TypePython.Lib
