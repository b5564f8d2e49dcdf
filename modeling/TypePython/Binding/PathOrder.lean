import TypePython.Binding.FunctionBody
import Mathlib.Data.List.Nodup

/-!
# Lines along a path

How the events of a path lie on the source lines, and which branches every path takes.

* `suiteIfs_strictMono`: an `if` is told from the others by its line;
* `Begins.inOrder`: along a path, lines only grow from an assignment to
  a branch and from a branch to an assignment;
* `suiteDecides_iff`, `wayDecides_iff`: a branch is decided when each `if` on the way either
  takes it or cannot complete without it.
-/

namespace TypePython.Binding

/-! ## The `if` statements of a suite -/

mutual

/-- The `if` statements nested in a statement, with their lines and guards. -/
def Stmt.ifs : Stmt → List (Nat × Option GuardConditionSite)
  | .ifElse line guard body orelse => (line, guard) :: (suiteIfs body ++ suiteIfs orelse)
  | _ => []

def suiteIfs : List Stmt → List (Nat × Option GuardConditionSite)
  | [] => []
  | s :: rest => s.ifs ++ suiteIfs rest

end

variable {p : Nat × Option GuardConditionSite}

mutual

theorem Stmt.line_mem_of_ifs : ∀ s : Stmt,
    p ∈ s.ifs → p.1 ∈ s.lines
  | .assign _ _ _ _, h => by simp [Stmt.ifs] at h
  | .ret _ _, h => by simp [Stmt.ifs] at h
  | .expr _ _, h => by simp [Stmt.ifs] at h
  | .ifElse _ _ body orelse, h => by
    rw [Stmt.ifs, List.mem_cons, List.mem_append] at h
    rw [Stmt.lines, List.mem_cons, List.mem_append]
    rcases h with rfl | h | h
    · exact .inl rfl
    · exact .inr (.inl (line_mem_of_suiteIfs body h))
    · exact .inr (.inr (line_mem_of_suiteIfs orelse h))

theorem line_mem_of_suiteIfs : ∀ suite : List Stmt,
    p ∈ suiteIfs suite → p.1 ∈ suiteLines suite
  | [], h => by simp [suiteIfs] at h
  | s :: rest, h => by
    rw [suiteIfs, List.mem_append] at h
    rw [suiteLines, List.mem_append]
    rcases h with h | h
    · exact .inl (Stmt.line_mem_of_ifs s h)
    · exact .inr (line_mem_of_suiteIfs rest h)

end

/-- An `if` starts on a line of its own. -/
theorem suiteIfs_lt : ∀ (suite : List Stmt) (prev : Nat)
    (fresh : Bool), suiteLaid prev fresh suite = true → p ∈ suiteIfs suite → prev < p.1
  | [], _, _, _, h => by simp [suiteIfs] at h
  | s :: rest, prev, fresh, hlaid, h => by
    obtain ⟨hs, hrest⟩ := suiteLaid_cons hlaid
    have hstart : prev ≤ s.line ∧ (s.isCompound = true → prev < s.line) := by
      simp only [suiteLaid, Bool.and_eq_true] at hlaid
      have hstart := hlaid.1.1
      cases hcompound : s.isCompound <;> cases fresh <;> simp_all <;> omega
    have hend := (Stmt.lines_le s hs).1
    rw [suiteIfs, List.mem_append] at h
    rcases h with h | h
    · -- only a compound statement has an `if` in it
      have hline := (Stmt.lines_le s hs).2 p.1 (Stmt.line_mem_of_ifs s h)
      have hcompound : s.isCompound = true := by
        cases s <;> simp_all [Stmt.ifs, Stmt.isCompound]
      have := hstart.2 hcompound
      omega
    · have := suiteIfs_lt rest s.endLine s.isCompound hrest h
      omega

mutual

theorem Stmt.ifs_strictMono : ∀ s : Stmt, s.laid = true →
    s.ifs.Pairwise fun p q => p.1 < q.1
  | .assign _ _ _ _, _ => by simp [Stmt.ifs]
  | .ret _ _, _ => by simp [Stmt.ifs]
  | .expr _ _, _ => by simp [Stmt.ifs]
  | .ifElse line guard body orelse, hlaid => by
    obtain ⟨hbody, horelse⟩ := Stmt.laid_ifElse hlaid
    have hbodyEnd := (suiteLines_le line false body hbody).1
    rw [Stmt.ifs, List.pairwise_cons, List.pairwise_append]
    refine ⟨fun p hp => ?_, suiteIfs_strictMono body _ _ hbody,
      suiteIfs_strictMono orelse _ _ horelse, fun p hp q hq => ?_⟩
    · rcases List.mem_append.1 hp with hp | hp
      · exact suiteIfs_lt body _ _ hbody hp
      · have := suiteIfs_lt orelse _ _ horelse hp
        show line < p.1
        omega
    · have h₁ := (suiteLines_le line false body hbody).2 p.1 (line_mem_of_suiteIfs body hp)
      have h₂ := suiteIfs_lt orelse _ _ horelse hq
      omega

/-- The lines of the `if` statements grow. -/
theorem suiteIfs_strictMono : ∀ (suite : List Stmt) (prev : Nat) (fresh : Bool),
    suiteLaid prev fresh suite = true → (suiteIfs suite).Pairwise fun p q => p.1 < q.1
  | [], _, _, _ => by simp [suiteIfs]
  | s :: rest, prev, fresh, hlaid => by
    obtain ⟨hs, hrest⟩ := suiteLaid_cons hlaid
    rw [suiteIfs, List.pairwise_append]
    refine ⟨Stmt.ifs_strictMono s hs, suiteIfs_strictMono rest _ _ hrest, fun p hp q hq => ?_⟩
    have h₁ := (Stmt.lines_le s hs).2 p.1 (Stmt.line_mem_of_ifs s hp)
    have h₂ := suiteIfs_lt rest _ _ hrest hq
    omega

end

variable {prev : Nat} {fresh : Bool} {suite : List Stmt}

/-- Two `if` statements on one line are the same. -/
theorem suiteIfs_unique (hlaid : suiteLaid prev fresh suite = true)
    {q : Nat × Option GuardConditionSite} (hp : p ∈ suiteIfs suite) (hq : q ∈ suiteIfs suite)
    (hline : p.1 = q.1) : p = q := by
  have hnodup : ((suiteIfs suite).map Prod.fst).Nodup := by
    rw [List.Nodup, List.pairwise_map]
    exact (suiteIfs_strictMono suite prev fresh hlaid).imp fun hlt => Nat.ne_of_lt hlt
  exact List.inj_on_of_nodup_map hnodup hp hq hline

/-! ## Events of a suite -/

def Event.line : Event → Nat
  | .assigned line _ _ => line
  | .branch line _ _ => line

def Event.isBranch : Event → Bool
  | .assigned _ _ _ => false
  | .branch _ _ _ => true

/-- The event is that of a statement in the suite. -/
def OccursIn (suite : List Stmt) (event : Event) : Prop :=
  event.line ∈ suiteLines suite
    ∧ ∀ line guard taken, event = .branch line guard taken → (line, guard) ∈ suiteIfs suite

variable {rest : List Stmt}

theorem OccursIn.cons {s : Stmt} {event : Event} (h : OccursIn rest event) :
    OccursIn (s :: rest) event := by
  refine ⟨?_, fun line guard taken heq => ?_⟩
  · rw [suiteLines, List.mem_append]
    exact .inr h.1
  · rw [suiteIfs, List.mem_append]
    exact .inr (h.2 line guard taken heq)

variable {guard : Option GuardConditionSite} {body orelse : List Stmt}

/-- An event of a branch is one of the `if`. -/
theorem OccursIn.ofBranch {line : Nat} {event : Event} (taken : Bool)
    (h : OccursIn (if taken then body else orelse) event) :
    OccursIn (.ifElse line guard body orelse :: rest) event := by
  cases taken with
  | true =>
    have h' : OccursIn body event := h
    refine ⟨?_, fun l g t heq => ?_⟩
    · simp [suiteLines, Stmt.lines, h'.1]
    · simp [suiteIfs, Stmt.ifs, h'.2 l g t heq]
  | false =>
    have h' : OccursIn orelse event := h
    refine ⟨?_, fun l g t heq => ?_⟩
    · simp [suiteLines, Stmt.lines, h'.1]
    · simp [suiteIfs, Stmt.ifs, h'.2 l g t heq]

theorem occursIn_branch {line : Nat} {taken : Bool} :
    OccursIn (.ifElse line guard body orelse :: rest) (.branch line guard taken) := by
  refine ⟨by simp [suiteLines, Stmt.lines, Event.line], fun l g t heq => ?_⟩
  cases heq
  simp [suiteIfs, Stmt.ifs]

theorem occursIn_assigned {line endLine : Nat} {name : String} {valueName : Option String} :
    OccursIn (.assign line endLine name valueName :: rest) (.assigned line name valueName) :=
  ⟨by simp [suiteLines, Stmt.lines, Stmt.line, Event.line], fun _ _ _ heq => by cases heq⟩

variable {path : List Event}

/-- The path is a beginning of a run of the suite, cut off at the end of a branch or before a
statement that does not start before line `limit`. -/
inductive Begins (limit : Nat) : List Stmt → List Event → Prop
  | nil : Begins limit [] []
  | stop {s rest} (hline : limit ≤ s.line) : Begins limit (s :: rest) []
  | assign {line endLine name valueName rest path} (hrest : Begins limit rest path) :
      Begins limit (.assign line endLine name valueName :: rest)
        (.assigned line name valueName :: path)
  | expr {line endLine rest path} (hrest : Begins limit rest path) :
      Begins limit (.expr line endLine :: rest) path
  | enter {line guard body orelse rest path} (taken : Bool)
      (hbranch : Begins limit (if taken then body else orelse) path) :
      Begins limit (.ifElse line guard body orelse :: rest) (.branch line guard taken :: path)
  | past {line guard body orelse rest path path'} (taken : Bool)
      (hbranch : Begins limit (if taken then body else orelse) path)
      (hrest : Begins limit rest path') :
      Begins limit (.ifElse line guard body orelse :: rest)
        (.branch line guard taken :: (path ++ path'))

theorem Completes.begins (limit : Nat) (h : Completes suite path) : Begins limit suite path := by
  induction h with
  | nil => exact .nil
  | assign _ ih => exact .assign ih
  | expr _ ih => exact .expr ih
  | ifElse taken _ _ ihbranch ihrest => exact .past taken ihbranch ihrest

variable {target limit : Nat}

theorem Arrives.begins (h : Arrives target suite path) : Begins target suite path := by
  induction h with
  | here hline => exact .stop hline.ge
  | assign _ _ ih => exact .assign ih
  | expr _ _ ih => exact .expr ih
  | enter taken _ _ ih => exact .enter taken ih
  | past taken _ hbranch _ ih => exact .past taken (hbranch.begins target) ih

theorem Begins.occursIn (h : Begins limit suite path) : ∀ event ∈ path, OccursIn suite event := by
  induction h with
  | nil => simp
  | stop => simp
  | assign _ ih =>
    rw [List.forall_mem_cons]
    exact ⟨occursIn_assigned, fun event hevent => (ih event hevent).cons⟩
  | expr _ ih => exact fun event hevent => (ih event hevent).cons
  | enter taken _ ih =>
    rw [List.forall_mem_cons]
    exact ⟨occursIn_branch, fun event hevent => (ih event hevent).ofBranch taken⟩
  | past taken _ _ ihbranch ihrest =>
    rw [List.forall_mem_cons, List.forall_mem_append]
    exact ⟨occursIn_branch, fun event hevent => (ihbranch event hevent).ofBranch taken,
      fun event hevent => (ihrest event hevent).cons⟩

/-- Where the events of a laid out suite lie. -/
theorem OccursIn.bounds {event : Event} (h : OccursIn suite event)
    (hlaid : suiteLaid prev fresh suite = true) :
    prev ≤ event.line ∧ (fresh = true ∨ event.isBranch = true → prev < event.line)
      ∧ event.line ≤ (suiteEndLineOptional suite).getD prev := by
  have hline := (suiteLines_le prev fresh suite hlaid).2 event.line h.1
  refine ⟨hline.1, ?_, hline.2.2⟩
  rintro (hfresh | hbranch)
  · exact hline.2.1 hfresh
  · cases event with
    | assigned => simp [Event.isBranch] at hbranch
    | branch line guard taken => exact suiteIfs_lt suite prev fresh hlaid (h.2 line guard taken rfl)

/-! ## The order of events -/

/-- How an event that is followed by another lies to it. -/
def Event.Precedes : Event → Event → Prop
  | .branch line _ taken, .assigned line' _ _ => line ≤ line' ∧ (taken = false → line < line')
  | .assigned line _ _, .branch line' _ _ => line < line'
  | _, _ => True

/-- Along the path, an assignment follows the branches that start on no later line. -/
def InOrder (path : List Event) : Prop := path.Pairwise Event.Precedes

theorem Event.precedes_of_lt {first later : Event} (h : first.line < later.line) :
    first.Precedes later := by
  cases first <;> cases later <;> simp_all [Event.Precedes, Event.line, Nat.le_of_lt]

/-- The events of one statement come before those of the next. -/
theorem precedes_of_occursIn {s : Stmt} {first later : Event}
    (hlaid : suiteLaid s.endLine s.isCompound rest = true)
    (hfirst : first.line ≤ s.endLine ∧ (s.isCompound = false → first.isBranch = false))
    (hlater : OccursIn rest later) : first.Precedes later := by
  have hbounds := hlater.bounds hlaid
  cases hcompound : s.isCompound with
  | true =>
    have := hbounds.2.1 (.inl hcompound)
    exact Event.precedes_of_lt (by omega)
  | false =>
    cases later with
    | assigned =>
      cases first with
      | assigned => trivial
      | branch => simp [hcompound, Event.isBranch] at hfirst
    | branch =>
      have := hbounds.2.1 (.inr rfl)
      exact Event.precedes_of_lt (by omega)

/-- The events of an `if`, in order when those of the branch taken are. -/
theorem inOrder_ifElse {line : Nat} (hlaid : (Stmt.ifElse line guard body orelse).laid = true)
    {taken : Bool} (hpath : ∀ event ∈ path, OccursIn (if taken then body else orelse) event)
    (horder : InOrder path) : InOrder (.branch line guard taken :: path)
      ∧ ∀ event ∈ Event.branch line guard taken :: path,
          event.line ≤ (Stmt.ifElse line guard body orelse).endLine := by
  obtain ⟨hbody, horelse⟩ := Stmt.laid_ifElse hlaid
  have hbodyEnd := (suiteLines_le line false body hbody).1
  have horelseEnd := (suiteLines_le _ true orelse horelse).1
  have hend : (Stmt.ifElse line guard body orelse).endLine
      = (suiteEndLineOptional orelse).getD ((suiteEndLineOptional body).getD line) := rfl
  rw [hend]
  constructor
  · refine List.pairwise_cons.2 ⟨fun event hevent => ?_, horder⟩
    have hoccurs := hpath event hevent
    cases event with
    | branch => trivial
    | assigned line' name source =>
      cases taken with
      | true => exact ⟨(OccursIn.bounds hoccurs hbody).1, by simp⟩
      | false =>
        have := (OccursIn.bounds hoccurs horelse).2.1 (.inl rfl)
        simp only [Event.line] at this
        exact ⟨by omega, fun _ => by omega⟩
  · intro event hevent
    rcases List.mem_cons.1 hevent with rfl | hevent
    · show line ≤ _
      omega
    · have hoccurs := hpath event hevent
      cases taken with
      | true => exact (OccursIn.bounds hoccurs hbody).2.2.trans horelseEnd
      | false => exact (OccursIn.bounds hoccurs horelse).2.2

theorem Begins.inOrder (h : Begins limit suite path) (hlaid : suiteLaid prev fresh suite = true) :
    InOrder path := by
  induction h generalizing prev fresh with
  | nil => exact .nil
  | stop => exact .nil
  | @assign line endLine name valueName rest path hrest ih =>
    obtain ⟨hs, hlaid'⟩ := suiteLaid_cons hlaid
    refine List.pairwise_cons.2 ⟨fun event hevent => ?_, ih hlaid'⟩
    exact precedes_of_occursIn hlaid' ⟨(Stmt.lines_le _ hs).1, fun _ => rfl⟩
      (hrest.occursIn event hevent)
  | expr _ ih => exact ih (suiteLaid_cons hlaid).2
  | @enter line guard body orelse rest path taken hbranch ih =>
    obtain ⟨hs, _⟩ := suiteLaid_cons hlaid
    obtain ⟨hbody, horelse⟩ := Stmt.laid_ifElse hs
    have hinner : InOrder path := by
      cases taken with
      | true => exact ih hbody
      | false => exact ih horelse
    exact (inOrder_ifElse hs hbranch.occursIn hinner).1
  | @past line guard body orelse rest path path' taken hbranch hrest ihbranch ihrest =>
    obtain ⟨hs, hlaid'⟩ := suiteLaid_cons hlaid
    obtain ⟨hbody, horelse⟩ := Stmt.laid_ifElse hs
    have hinner : InOrder path := by
      cases taken with
      | true => exact ihbranch hbody
      | false => exact ihbranch horelse
    obtain ⟨hown, hend⟩ := inOrder_ifElse hs hbranch.occursIn hinner
    rw [← List.cons_append]
    refine List.pairwise_append.2 ⟨hown, ihrest hlaid', fun first hfirst later hlater => ?_⟩
    exact precedes_of_occursIn hlaid' ⟨hend first hfirst, by simp [Stmt.isCompound]⟩
      (hrest.occursIn later hlater)

/-! ## Decided branches -/

/-- The path takes a branch of an `if` on the line. -/
def TakesBranch (line : Nat) (taken : Bool) (path : List Event) : Prop :=
  ∃ guard, Event.branch line guard taken ∈ path

theorem takesBranch_append {line : Nat} {taken : Bool} {path' : List Event} :
    TakesBranch line taken (path ++ path')
      ↔ TakesBranch line taken path ∨ TakesBranch line taken path' := by
  simp only [TakesBranch, List.mem_append, exists_or]

theorem takesBranch_cons {line line' : Nat} {taken taken' : Bool} :
    TakesBranch line taken (.branch line' guard taken' :: path)
      ↔ (line' = line ∧ taken' = taken) ∨ TakesBranch line taken path := by
  simp only [TakesBranch, List.mem_cons, Event.branch.injEq, exists_or]
  constructor
  · rintro (⟨_, rfl, _, rfl⟩ | h)
    · exact .inl ⟨rfl, rfl⟩
    · exact .inr h
  · rintro (⟨rfl, rfl⟩ | h)
    · exact .inl ⟨guard, rfl, rfl, rfl⟩
    · exact .inr h

section

variable (line : Nat) (taken : Bool)

mutual

/-- Each branch of the statement takes the branch asked for, or does not complete. -/
def Stmt.decides : Stmt → Bool
  | .ifElse line' _ body orelse =>
    ((line' == line && taken) || !suiteMayComplete body || suiteDecides body)
      && ((line' == line && !taken) || !suiteMayComplete orelse || suiteDecides orelse)
  | _ => false

def suiteDecides : List Stmt → Bool
  | [] => false
  | s :: rest => s.decides || suiteDecides rest

end

/-- Whether the branch is decided on the way to a line. -/
def wayDecides : List Step → Bool
  | [] => false
  | .done s :: rest => s.decides line taken || wayDecides rest
  | .enter line' _ taken' :: rest => (line' == line && taken' == taken) || wayDecides rest

/-- Two parts of a run that cannot both be avoided: one of them always takes the branch. -/
theorem forall_takesBranch_append {first later : List Event → Prop} :
    (∀ path path', first path → later path' → TakesBranch line taken (path ++ path'))
      ↔ (∀ path, first path → TakesBranch line taken path)
        ∨ (∀ path, later path → TakesBranch line taken path) := by
  constructor
  · intro h
    by_contra hnot
    obtain ⟨⟨path, hpath, hno⟩, path', hpath', hno'⟩ :
        (∃ path, first path ∧ ¬ TakesBranch line taken path)
          ∧ ∃ path, later path ∧ ¬ TakesBranch line taken path := by
      simpa only [not_or, not_forall, exists_prop] using hnot
    exact (takesBranch_append.1 (h path path' hpath hpath')).elim hno hno'
  · rintro (h | h) path path' hpath hpath'
    · exact takesBranch_append.2 (.inl (h path hpath))
    · exact takesBranch_append.2 (.inr (h path' hpath'))

mutual

theorem Stmt.decides_iff : ∀ s : Stmt, s.mayComplete = true →
    ((∀ path, Completes [s] path → TakesBranch line taken path) ↔ s.decides line taken = true)
  | .assign _ _ _ _, _ => by simp [Stmt.decides, TakesBranch]
  | .ret _ _, h => by simp [Stmt.mayComplete] at h
  | .expr _ _, _ => by simp [Stmt.decides, TakesBranch]
  | .ifElse line' guard body orelse, _ => by
    have hbranch : ∀ suite, (suiteMayComplete suite = true →
        ((∀ path, Completes suite path → TakesBranch line taken path)
          ↔ suiteDecides line taken suite = true)) → ∀ taken',
        (∀ path, Completes suite path →
            TakesBranch line taken (.branch line' guard taken' :: path))
          ↔ ((line' = line ∧ taken' = taken) ∨ suiteMayComplete suite = false
            ∨ suiteDecides line taken suite = true) := by
      intro suite ih taken'
      simp only [takesBranch_cons]
      by_cases hown : line' = line ∧ taken' = taken
      · simp [hown]
      · simp only [hown, false_or]
        cases hmay : suiteMayComplete suite with
        | true => simpa using ih hmay
        | false =>
          have hnone : ∀ path, ¬ Completes suite path := fun path hpath => by
            simp [(suiteMayComplete_iff suite).2 ⟨path, hpath⟩] at hmay
          simp [hnone]
    have hbody := hbranch body (suiteDecides_iff body) true
    have horelse := hbranch orelse (suiteDecides_iff orelse) false
    have hsplit : (∀ path, Completes [.ifElse line' guard body orelse] path →
          TakesBranch line taken path)
        ↔ (∀ path, Completes body path → TakesBranch line taken (.branch line' guard true :: path))
          ∧ (∀ path, Completes orelse path →
            TakesBranch line taken (.branch line' guard false :: path)) := by
      simp only [completes_ifElse_iff]
      constructor
      · intro h
        exact ⟨fun path hpath => h _ ⟨true, path, rfl, hpath⟩,
          fun path hpath => h _ ⟨false, path, rfl, hpath⟩⟩
      · rintro ⟨htrue, hfalse⟩ _ ⟨taken', path, rfl, hpath⟩
        cases taken' with
        | true => exact htrue path hpath
        | false => exact hfalse path hpath
    rw [hsplit, hbody, horelse]
    cases taken <;> simp [Stmt.decides, or_assoc]

/-- A branch is decided by a suite exactly if every run of the suite to its end takes it. -/
theorem suiteDecides_iff : ∀ suite : List Stmt, suiteMayComplete suite = true →
    ((∀ path, Completes suite path → TakesBranch line taken path)
      ↔ suiteDecides line taken suite = true)
  | [], _ => by simp [suiteDecides, TakesBranch]
  | s :: rest, h => by
    obtain ⟨hs, hrest⟩ := Bool.and_eq_true _ _ ▸ h
    rw [suiteDecides, Bool.or_eq_true, ← Stmt.decides_iff s hs, ← suiteDecides_iff rest hrest,
      ← forall_takesBranch_append line taken]
    constructor
    · intro hall path path' hpath hpath'
      exact hall _ (completes_cons_iff.2 ⟨path, path', rfl, hpath, hpath'⟩)
    · intro hall _ hcompletes
      obtain ⟨path, path', rfl, hpath, hpath'⟩ := completes_cons_iff.1 hcompletes
      exact hall path path' hpath hpath'

end

/-- The way is passable when the statements completed on it can complete. -/
theorem exists_follows_iff : ∀ steps : List Step,
    (∃ path, Follows steps path) ↔ suiteMayComplete (doneStmts steps) = true
  | [] => by simp [Follows, doneStmts, suiteMayComplete]
  | .done s :: rest => by
    rw [doneStmts, suiteMayComplete, Bool.and_eq_true, Stmt.mayComplete_iff,
      ← exists_follows_iff rest]
    constructor
    · rintro ⟨_, first, later, rfl, hfirst, hlater⟩
      exact ⟨⟨first, hfirst⟩, later, hlater⟩
    · rintro ⟨⟨first, hfirst⟩, later, hlater⟩
      exact ⟨first ++ later, first, later, rfl, hfirst, hlater⟩
  | .enter line' guard taken' :: rest => by
    rw [doneStmts, ← exists_follows_iff rest]
    constructor
    · rintro ⟨_, later, rfl, hlater⟩
      exact ⟨later, hlater⟩
    · rintro ⟨later, hlater⟩
      exact ⟨_, later, rfl, hlater⟩

/-- A branch is decided on a passable way exactly if every path along it takes the branch. -/
theorem wayDecides_iff : ∀ steps : List Step, suiteMayComplete (doneStmts steps) = true →
    ((∀ path, Follows steps path → TakesBranch line taken path)
      ↔ wayDecides line taken steps = true)
  | [], _ => by simp [wayDecides, Follows, TakesBranch]
  | .done s :: rest, h => by
    obtain ⟨hs, hrest⟩ := Bool.and_eq_true _ _ ▸ h
    rw [wayDecides, Bool.or_eq_true, ← Stmt.decides_iff line taken s hs,
      ← wayDecides_iff rest hrest,
      ← forall_takesBranch_append line taken]
    constructor
    · intro hall path path' hpath hpath'
      exact hall _ ⟨path, path', rfl, hpath, hpath'⟩
    · rintro hall _ ⟨path, path', rfl, hpath, hpath'⟩
      exact hall path path' hpath hpath'
  | .enter line' guard taken' :: rest, h => by
    have ih := wayDecides_iff rest h
    rw [wayDecides, Bool.or_eq_true, ← ih, Bool.and_eq_true, beq_iff_eq, beq_iff_eq]
    constructor
    · intro hall
      by_cases hown : line' = line ∧ taken' = taken
      · exact .inl hown
      · refine .inr fun path hpath => ?_
        exact (takesBranch_cons.1 (hall _ ⟨path, rfl, hpath⟩)).resolve_left hown
    · rintro hcases _ ⟨path, rfl, hpath⟩
      exact takesBranch_cons.2 (hcases.imp_right fun hall => hall path hpath)

end

/-! ## One-line bodies

Simple statements on the line of an `if` are in its body, and every path into the body runs
them. -/

variable {site : AssignmentSite}

section

variable (owner : Owner)

/-- Where the sites behind an `if` lie: in its body, in its `else` suite, or behind it. -/
theorem mem_assignmentSites_ifElse {line : Nat}
    (hlaid : suiteLaid prev fresh (.ifElse line guard body orelse :: rest) = true)
    (hsite : site ∈ suiteAssignmentSites owner (.ifElse line guard body orelse :: rest)) :
    (site ∈ suiteAssignmentSites owner body ∧ line ≤ site.line
        ∧ site.line ≤ (suiteEndLineOptional body).getD line)
      ∨ (site ∈ suiteAssignmentSites owner orelse
        ∧ (suiteEndLineOptional body).getD line < site.line
        ∧ site.line ≤ (Stmt.ifElse line guard body orelse).endLine)
      ∨ (site ∈ suiteAssignmentSites owner rest
        ∧ (Stmt.ifElse line guard body orelse).endLine < site.line) := by
  obtain ⟨hs, hrest⟩ := suiteLaid_cons hlaid
  obtain ⟨hbody, horelse⟩ := Stmt.laid_ifElse hs
  rw [suiteAssignmentSites, Stmt.assignmentSites, List.mem_append, List.mem_append] at hsite
  rcases hsite with (hin | hin) | hin
  · have := (suiteLines_le _ _ body hbody).2 _ (line_mem_of_suiteAssignmentSites owner body hin)
    exact .inl ⟨hin, this.1, this.2.2⟩
  · have := (suiteLines_le _ _ orelse horelse).2 _
      (line_mem_of_suiteAssignmentSites owner orelse hin)
    exact .inr (.inl ⟨hin, this.2.1 rfl, this.2.2⟩)
  · have := (suiteLines_le _ _ rest hrest).2 _ (line_mem_of_suiteAssignmentSites owner rest hin)
    exact .inr (.inr ⟨hin, this.2.1 rfl⟩)

theorem lt_of_mem_assignmentSites_ifElse {line : Nat}
    (hlaid : suiteLaid prev fresh (.ifElse line guard body orelse :: rest) = true)
    (hsite : site ∈ suiteAssignmentSites owner (.ifElse line guard body orelse :: rest)) :
    prev < site.line := by
  have hprev : prev < line :=
    suiteIfs_lt _ prev fresh hlaid (p := (line, guard)) (by simp [suiteIfs, Stmt.ifs])
  have hs := (suiteLaid_cons hlaid).1
  have hend := (Stmt.lines_le _ hs).1
  have hbodyEnd := (suiteLines_le line false body (Stmt.laid_ifElse hs).1).1
  simp only [Stmt.line] at hend
  rcases mem_assignmentSites_ifElse owner hlaid hsite with ⟨_, h, _⟩ | ⟨_, h, _⟩ | ⟨_, h⟩ <;> omega

/-- A path that goes on runs the assignments on the line its suite follows. -/
theorem Begins.assigns_at_start (h : Begins limit suite path)
    (hlaid : suiteLaid prev fresh suite = true) (hsite : site ∈ suiteAssignmentSites owner suite)
    (hline : site.line ≤ prev) (hlimit : site.line < limit) :
    Event.assigned site.line site.name site.valueName ∈ path := by
  induction h generalizing prev fresh with
  | nil => simp [suiteAssignmentSites] at hsite
  | @stop s rest hs =>
    -- no statement of the suite starts before its first
    exfalso
    obtain ⟨hfirst, hrest⟩ := suiteLaid_cons hlaid
    have hlines := Stmt.lines_le s hfirst
    rw [suiteAssignmentSites, List.mem_append] at hsite
    rcases hsite with hsite | hsite
    · have := hlines.2 _ (Stmt.line_mem_of_assignmentSites owner s hsite)
      omega
    · have := (suiteLines_le _ _ rest hrest).2 _
        (line_mem_of_suiteAssignmentSites owner rest hsite)
      omega
  | @assign line endLine name source rest path _ ih =>
    have hle := (suiteLines_le prev fresh _ hlaid).2 line (by simp [suiteLines, Stmt.lines, Stmt.line])
    obtain ⟨hs, hrest⟩ := suiteLaid_cons hlaid
    have hend : line ≤ endLine := (Stmt.lines_le _ hs).1
    rw [suiteAssignmentSites, Stmt.assignmentSites, List.mem_append, List.mem_singleton] at hsite
    rcases hsite with rfl | hsite
    · exact List.mem_cons_self
    · refine List.mem_cons_of_mem _ (ih hrest hsite ?_)
      show site.line ≤ endLine
      omega
  | @expr line endLine rest path _ ih =>
    have hle := (suiteLines_le prev fresh _ hlaid).2 line (by simp [suiteLines, Stmt.lines, Stmt.line])
    obtain ⟨hs, hrest⟩ := suiteLaid_cons hlaid
    have hend : line ≤ endLine := (Stmt.lines_le _ hs).1
    refine ih hrest (by simpa [suiteAssignmentSites, Stmt.assignmentSites] using hsite) ?_
    show site.line ≤ endLine
    omega
  | enter =>
    have := lt_of_mem_assignmentSites_ifElse owner hlaid hsite
    omega
  | past =>
    have := lt_of_mem_assignmentSites_ifElse owner hlaid hsite
    omega

/-- Behind the branch of an `if` that holds, the path runs an assignment on its line. -/
def RunsOneLine (site : AssignmentSite) (path : List Event) : Prop :=
  (∃ guard, Event.branch site.line guard true ∈ path) →
    Event.assigned site.line site.name site.valueName ∈ path

theorem runsOneLine_ifElse {line : Nat}
    (hlaid : suiteLaid prev fresh (.ifElse line guard body orelse :: rest) = true) {taken : Bool}
    {path' : List Event} (hpath : ∀ event ∈ path, OccursIn (if taken then body else orelse) event)
    (hpath' : ∀ event ∈ path', OccursIn rest event)
    (hstart : taken = true → site ∈ suiteAssignmentSites owner body → site.line ≤ line →
      Event.assigned site.line site.name site.valueName ∈ path)
    (hbranch : site ∈ suiteAssignmentSites owner (if taken then body else orelse) →
      RunsOneLine site path)
    (hrest : site ∈ suiteAssignmentSites owner rest → RunsOneLine site path')
    (hsite : site ∈ suiteAssignmentSites owner (.ifElse line guard body orelse :: rest)) :
    RunsOneLine site (.branch line guard taken :: (path ++ path')) := by
  obtain ⟨hs, hlaid'⟩ := suiteLaid_cons hlaid
  obtain ⟨hbody, horelse⟩ := Stmt.laid_ifElse hs
  have hbodyEnd := (suiteLines_le line false body hbody).1
  have horelseEnd := (suiteLines_le _ true orelse horelse).1
  have hend : (Stmt.ifElse line guard body orelse).endLine
      = (suiteEndLineOptional orelse).getD ((suiteEndLineOptional body).getD line) := rfl
  have hwhere := mem_assignmentSites_ifElse owner hlaid hsite
  rintro ⟨g, hevent⟩
  refine List.mem_cons_of_mem _ (List.mem_append.2 ?_)
  rcases List.mem_cons.1 hevent with hown | hevent
  · -- the branch is that of this `if`: the site is on the line of the body
    have hline : site.line = line := by cases hown; rfl
    have htaken : taken = true := by cases hown; rfl
    rcases hwhere with ⟨hin, _⟩ | ⟨_, h, _⟩ | ⟨_, h⟩
    · exact .inl (hstart htaken hin hline.le)
    · omega
    · omega
  · rcases List.mem_append.1 hevent with hinner | hlater
    · left
      cases taken with
      | true =>
        have hoccurs : OccursIn body _ := hpath _ hinner
        have hbounds := hoccurs.bounds hbody
        simp only [Event.line] at hbounds
        rcases hwhere with ⟨hin, _⟩ | ⟨_, h, _⟩ | ⟨_, h⟩
        · exact hbranch hin ⟨g, hinner⟩
        · omega
        · omega
      | false =>
        have hoccurs : OccursIn orelse _ := hpath _ hinner
        have hbounds := hoccurs.bounds horelse
        have hlt := hbounds.2.1 (.inl rfl)
        simp only [Event.line] at hbounds hlt
        rcases hwhere with ⟨_, _, h⟩ | ⟨hin, _⟩ | ⟨_, h⟩
        · omega
        · exact hbranch hin ⟨g, hinner⟩
        · omega
    · right
      have hbounds := (hpath' _ hlater).bounds hlaid'
      have hlt := hbounds.2.1 (.inl rfl)
      simp only [Event.line] at hlt
      rcases hwhere with ⟨_, _, h⟩ | ⟨_, _, h⟩ | ⟨hin, _⟩
      · omega
      · omega
      · exact hrest hin ⟨g, hlater⟩

theorem runsOneLine_assign {line endLine : Nat} {name : String} {source : Option String}
    (hrest : site ∈ suiteAssignmentSites owner rest → RunsOneLine site path)
    (hsite : site ∈ suiteAssignmentSites owner (.assign line endLine name source :: rest)) :
    RunsOneLine site (.assigned line name source :: path) := by
  rintro ⟨g, hevent⟩
  rw [suiteAssignmentSites, Stmt.assignmentSites, List.mem_append, List.mem_singleton] at hsite
  have hlater := (List.mem_cons.1 hevent).resolve_left (by simp)
  rcases hsite with rfl | hsite
  · exact List.mem_cons_self
  · exact List.mem_cons_of_mem _ (hrest hsite ⟨g, hlater⟩)

theorem Begins.runsOneLine (h : Begins limit suite path)
    (hlaid : suiteLaid prev fresh suite = true) (hsite : site ∈ suiteAssignmentSites owner suite)
    (hlimit : site.line < limit) : RunsOneLine site path := by
  induction h generalizing prev fresh with
  | nil => exact fun ⟨_, hevent⟩ => absurd hevent List.not_mem_nil
  | stop => exact fun ⟨_, hevent⟩ => absurd hevent List.not_mem_nil
  | @assign line endLine name source rest path hrest ih =>
    exact runsOneLine_assign owner (fun hin => ih (suiteLaid_cons hlaid).2 hin) hsite
  | expr _ ih =>
    exact ih (suiteLaid_cons hlaid).2
      (by simpa [suiteAssignmentSites, Stmt.assignmentSites] using hsite)
  | @enter line guard body orelse rest path taken hbranch ih =>
    obtain ⟨hs, _⟩ := suiteLaid_cons hlaid
    obtain ⟨hbody, horelse⟩ := Stmt.laid_ifElse hs
    rw [← List.append_nil path]
    refine runsOneLine_ifElse owner hlaid hbranch.occursIn (by simp) ?_ ?_ ?_ hsite
    · rintro rfl hin hline
      exact Begins.assigns_at_start owner hbranch hbody hin hline hlimit
    · intro hin
      cases taken with
      | true => exact ih hbody hin
      | false => exact ih horelse hin
    · exact fun _ ⟨_, hevent⟩ => absurd hevent List.not_mem_nil
  | @past line guard body orelse rest path path' taken hbranch hrest ihbranch ihrest =>
    obtain ⟨hs, hlaid'⟩ := suiteLaid_cons hlaid
    obtain ⟨hbody, horelse⟩ := Stmt.laid_ifElse hs
    refine runsOneLine_ifElse owner hlaid hbranch.occursIn hrest.occursIn ?_ ?_
      (fun hin => ihrest hlaid' hin) hsite
    · rintro rfl hin hline
      exact Begins.assigns_at_start owner hbranch hbody hin hline hlimit
    · intro hin
      cases taken with
      | true => exact ihbranch hbody hin
      | false => exact ihbranch horelse hin

end

end TypePython.Binding
