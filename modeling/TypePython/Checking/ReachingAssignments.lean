import TypePython.Checking.Flow
import TypePython.Checking.ValueModel

/-!
# Reaching assignments

Which assignments to a variable an execution path delivers to a line, and which of them the
local lookup takes into account.

* `mem_survivors_iff`: the assignments that reach a line are those no later statement on the
  way to it overwrites, computed over the syntax of the body;
* `lookup_covers_iff`: the type the lookup returns includes the type of every reaching
  assignment, however assignments are typed, exactly if every surviving assignment is one
  the lookup looks at.
-/

namespace TypePython.Checking

open TypePython.Lib
open TypePython.Binding

section

variable (owner : Owner) (valueName : String)

/-! ## Assignments along a path -/

/-- The assignment to the variable an event makes. -/
def assignedBy : Event → Option AssignmentSite
  | .assigned line name source =>
    if name = valueName then some (owner.assignmentSite line name source) else none
  | .branch _ _ _ => none

/-- The last assignment to the variable along a path. -/
def lastAssigned : List Event → Option AssignmentSite
  | [] => none
  | event :: rest => (lastAssigned rest).or (assignedBy owner valueName event)

/-- Some execution path delivers the assignment unchanged to the line. -/
def Delivers (body : List Stmt) (target : Nat) (site : AssignmentSite) : Prop :=
  ∃ path, Arrives target body path ∧ lastAssigned owner valueName path = some site

theorem lastAssigned_append (path path' : List Event) :
    lastAssigned owner valueName (path ++ path')
      = (lastAssigned owner valueName path').or (lastAssigned owner valueName path) := by
  induction path with
  | nil => simp [lastAssigned]
  | cons event rest ih => simp [lastAssigned, ih, Option.or_assoc]

/-! ## Survivors -/

mutual

/-- Whether a statement can complete without assigning the variable. -/
def Stmt.maySkip : Stmt → Bool
  | .assign _ _ name _ => name != valueName
  | .ret _ _ => false
  | .expr _ _ => true
  | .ifElse _ _ body orelse => suiteMaySkip body || suiteMaySkip orelse

def suiteMaySkip : List Stmt → Bool
  | [] => true
  | s :: rest => Stmt.maySkip s && suiteMaySkip rest

end

mutual

/-- The assignments that can be the last to the variable when a statement completes. -/
def Stmt.survivors : Stmt → List AssignmentSite
  | .assign line _ name source =>
    if name = valueName then [owner.assignmentSite line name source] else []
  | .ret _ _ => []
  | .expr _ _ => []
  | .ifElse _ _ body orelse => suiteSurvivors body ++ suiteSurvivors orelse

def suiteSurvivors : List Stmt → List AssignmentSite
  | [] => []
  | s :: rest =>
    (if suiteMaySkip valueName rest then Stmt.survivors s else [])
      ++ (if s.mayComplete then suiteSurvivors rest else [])

end

/-- The assignments to the variable that survive to a line of the body. -/
def survivors (body : List Stmt) (target : Nat) : List AssignmentSite :=
  match suiteWayTo target body with
  | none => []
  | some steps => suiteSurvivors owner valueName (doneStmts steps)

mutual

theorem Stmt.maySkip_iff : ∀ s : Stmt,
    Stmt.maySkip valueName s = true
      ↔ ∃ path, Completes [s] path ∧ lastAssigned owner valueName path = none
  | .assign line endLine name source => by
    simp [Stmt.maySkip, lastAssigned, assignedBy]
  | .ret _ _ => by simp [Stmt.maySkip]
  | .expr _ _ => by simp [Stmt.maySkip, lastAssigned]
  | .ifElse line guard body orelse => by
    rw [Stmt.maySkip, Bool.or_eq_true, suiteMaySkip_iff body, suiteMaySkip_iff orelse]
    constructor
    · rintro (⟨path, hpath, hnone⟩ | ⟨path, hpath, hnone⟩)
      · exact ⟨.branch line guard true :: path, completes_ifElse_iff.2 ⟨true, path, rfl, hpath⟩,
          by simp [lastAssigned, assignedBy, hnone]⟩
      · exact ⟨.branch line guard false :: path,
          completes_ifElse_iff.2 ⟨false, path, rfl, hpath⟩,
          by simp [lastAssigned, assignedBy, hnone]⟩
    · rintro ⟨_, hcompletes, hnone⟩
      obtain ⟨taken, path, rfl, hpath⟩ := completes_ifElse_iff.1 hcompletes
      have hnone' : lastAssigned owner valueName path = none := by
        simpa [lastAssigned, assignedBy] using hnone
      cases taken with
      | true => exact .inl ⟨path, hpath, hnone'⟩
      | false => exact .inr ⟨path, hpath, hnone'⟩

theorem suiteMaySkip_iff : ∀ suite : List Stmt,
    suiteMaySkip valueName suite = true
      ↔ ∃ path, Completes suite path ∧ lastAssigned owner valueName path = none
  | [] => by simp [suiteMaySkip, lastAssigned]
  | s :: rest => by
    rw [suiteMaySkip, Bool.and_eq_true, Stmt.maySkip_iff s, suiteMaySkip_iff rest]
    constructor
    · rintro ⟨⟨first, hfirst, hfirstNone⟩, later, hlater, hlaterNone⟩
      refine ⟨first ++ later, completes_cons_iff.2 ⟨first, later, rfl, hfirst, hlater⟩, ?_⟩
      rw [lastAssigned_append, hfirstNone, hlaterNone]
      rfl
    · rintro ⟨path, hpath, hnone⟩
      obtain ⟨first, later, rfl, hfirst, hlater⟩ := completes_cons_iff.1 hpath
      rw [lastAssigned_append, Option.or_eq_none_iff] at hnone
      exact ⟨⟨first, hfirst, hnone.2⟩, later, hlater, hnone.1⟩

end

mutual

theorem Stmt.mem_survivors_iff (site : AssignmentSite) : ∀ s : Stmt,
    site ∈ Stmt.survivors owner valueName s
      ↔ ∃ path, Completes [s] path ∧ lastAssigned owner valueName path = some site
  | .assign line endLine name source => by
    by_cases hname : name = valueName
    · simp [Stmt.survivors, lastAssigned, assignedBy, hname, eq_comm]
    · simp [Stmt.survivors, lastAssigned, assignedBy, hname]
  | .ret _ _ => by simp [Stmt.survivors]
  | .expr _ _ => by simp [Stmt.survivors, lastAssigned]
  | .ifElse line guard body orelse => by
    rw [Stmt.survivors, List.mem_append, mem_suiteSurvivors_iff site body,
      mem_suiteSurvivors_iff site orelse]
    constructor
    · rintro (⟨path, hpath, hsome⟩ | ⟨path, hpath, hsome⟩)
      · exact ⟨.branch line guard true :: path, completes_ifElse_iff.2 ⟨true, path, rfl, hpath⟩,
          by simp [lastAssigned, hsome]⟩
      · exact ⟨.branch line guard false :: path,
          completes_ifElse_iff.2 ⟨false, path, rfl, hpath⟩, by simp [lastAssigned, hsome]⟩
    · rintro ⟨_, hcompletes, hsome⟩
      obtain ⟨taken, path, rfl, hpath⟩ := completes_ifElse_iff.1 hcompletes
      have hsome' : lastAssigned owner valueName path = some site := by
        simpa [lastAssigned, assignedBy] using hsome
      cases taken with
      | true => exact .inl ⟨path, hpath, hsome'⟩
      | false => exact .inr ⟨path, hpath, hsome'⟩

/-- The survivors of a suite are the last assignments of its completing paths. -/
theorem mem_suiteSurvivors_iff (site : AssignmentSite) : ∀ suite : List Stmt,
    site ∈ suiteSurvivors owner valueName suite
      ↔ ∃ path, Completes suite path ∧ lastAssigned owner valueName path = some site
  | [] => by simp [suiteSurvivors, lastAssigned]
  | s :: rest => by
    have hs := Stmt.mem_survivors_iff site s
    have hrest := mem_suiteSurvivors_iff site rest
    rw [suiteSurvivors, List.mem_append, List.mem_ite_nil_right, List.mem_ite_nil_right, hs,
      hrest, suiteMaySkip_iff owner valueName rest, Stmt.mayComplete_iff s]
    constructor
    · rintro (⟨⟨later, hlater, hnone⟩, first, hfirst, hsome⟩ |
        ⟨⟨first, hfirst⟩, later, hlater, hsome⟩)
      · -- the last assignment is in `s`, and the rest of the suite skips the variable
        refine ⟨first ++ later, completes_cons_iff.2 ⟨first, later, rfl, hfirst, hlater⟩, ?_⟩
        rw [lastAssigned_append, hnone, hsome]
        rfl
      · -- the last assignment is in the rest of the suite
        refine ⟨first ++ later, completes_cons_iff.2 ⟨first, later, rfl, hfirst, hlater⟩, ?_⟩
        rw [lastAssigned_append, hsome]
        rfl
    · rintro ⟨path, hpath, hsome⟩
      obtain ⟨first, later, rfl, hfirst, hlater⟩ := completes_cons_iff.1 hpath
      rw [lastAssigned_append] at hsome
      cases hlast : lastAssigned owner valueName later with
      | none =>
        rw [hlast, Option.none_or] at hsome
        exact .inl ⟨⟨later, hlater, hlast⟩, first, hfirst, hsome⟩
      | some last =>
        rw [hlast, Option.some_or] at hsome
        exact .inr ⟨⟨first, hfirst⟩, later, hlater, hlast.trans hsome⟩

end

/-- Only the statements completed on the way assign. -/
theorem follows_lastAssigned_iff (result : Option AssignmentSite) : ∀ steps : List Step,
    (∃ path, Follows steps path ∧ lastAssigned owner valueName path = result)
      ↔ ∃ path, Completes (doneStmts steps) path ∧ lastAssigned owner valueName path = result
  | [] => by simp [Follows, doneStmts]
  | .done s :: rest => by
    constructor
    · rintro ⟨_, ⟨first, later, rfl, hfirst, hlater⟩, hresult⟩
      obtain ⟨later', hlater', heq⟩ :=
        (follows_lastAssigned_iff _ rest).1 ⟨later, hlater, rfl⟩
      refine ⟨first ++ later', completes_cons_iff.2 ⟨first, later', rfl, hfirst, hlater'⟩, ?_⟩
      rw [lastAssigned_append, heq, ← lastAssigned_append, hresult]
    · rintro ⟨path, hpath, hresult⟩
      obtain ⟨first, later, rfl, hfirst, hlater⟩ := completes_cons_iff.1 hpath
      obtain ⟨later', hlater', heq⟩ :=
        (follows_lastAssigned_iff _ rest).2 ⟨later, hlater, rfl⟩
      refine ⟨first ++ later', ⟨first, later', rfl, hfirst, hlater'⟩, ?_⟩
      rw [lastAssigned_append, heq, ← lastAssigned_append, hresult]
  | .enter line guard taken :: rest => by
    rw [doneStmts, ← follows_lastAssigned_iff result rest]
    constructor
    · rintro ⟨_, ⟨later, rfl, hlater⟩, hresult⟩
      exact ⟨later, hlater, by simpa [lastAssigned, assignedBy] using hresult⟩
    · rintro ⟨later, hlater, hresult⟩
      exact ⟨_, ⟨later, rfl, hlater⟩, by simpa [lastAssigned, assignedBy] using hresult⟩

/-- In a laid out body, the surviving assignments are those some path delivers. -/
theorem mem_survivors_iff {body : List Stmt} {prev : Nat} {fresh : Bool}
    (hlaid : suiteLaid prev fresh body = true) (target : Nat) (site : AssignmentSite) :
    site ∈ survivors owner valueName body target
      ↔ Delivers owner valueName body target site := by
  rw [Delivers]
  simp only [arrives_iff hlaid]
  cases hway : suiteWayTo target body with
  | none => simp [survivors, hway]
  | some steps =>
    rw [survivors, hway]
    simp only [Option.some.injEq, exists_eq_left']
    rw [mem_suiteSurvivors_iff]
    exact (follows_lastAssigned_iff owner valueName (some site) steps).symm

end

variable {target : Nat}

/-- A delivered assignment is a site of the body for the variable, before the line. -/
theorem Delivers.site {owner : Owner} {valueName : String} {body : List Stmt}
    {site : AssignmentSite} (h : Delivers owner valueName body target site) {prev : Nat}
    {fresh : Bool} (hlaid : suiteLaid prev fresh body = true) :
    site ∈ suiteAssignmentSites owner body ∧ site.name = valueName ∧ site.line < target := by
  obtain ⟨path, harrives, hlast⟩ := h
  have hevent : ∃ line source, Event.assigned line valueName source ∈ path
      ∧ owner.assignmentSite line valueName source = site := by
    clear harrives
    induction path with
    | nil => simp [lastAssigned] at hlast
    | cons event rest ih =>
      rw [lastAssigned] at hlast
      cases hrest : lastAssigned owner valueName rest with
      | some last =>
        rw [hrest, Option.some_or] at hlast
        obtain ⟨line, source, hmem, hsite⟩ := ih (hrest.trans hlast)
        exact ⟨line, source, List.mem_cons_of_mem event hmem, hsite⟩
      | none =>
        rw [hrest, Option.none_or] at hlast
        cases event with
        | branch line guard taken => simp [assignedBy] at hlast
        | assigned line name source =>
          by_cases hname : name = valueName
          · subst hname
            exact ⟨line, source, List.mem_cons_self, by simpa [assignedBy] using hlast⟩
          · simp [assignedBy, hname] at hlast
  obtain ⟨line, source, hmem, rfl⟩ := hevent
  have hsite := harrives.site_mem owner hlaid hmem
  exact ⟨hsite.1, rfl, hsite.2⟩

/-! ## The lookup -/

/-- The assignments the lookup looks at: those it joins, else the last before the line. -/
def lookedUp (node : ModuleNode) (owner : Owner) (target : Nat) (valueName : String) :
    List AssignmentSite :=
  match joinedAssignments node (some owner.name) owner.typeName target valueName with
  | some (trueAssignment, falseAssignment) => [trueAssignment, falseAssignment]
  | none =>
    (latestAssignmentBefore node (some owner.name) owner.typeName none target valueName).toList

variable {afterLine : Nat}

section

variable {node : ModuleNode} {owner : Owner} {body : List Stmt}

theorem find?_owned (h : Records node owner body) (p : AssignmentSite → Bool) :
    (node.assignments.reverse.find? fun site =>
        owner.owns site.ownerName site.ownerTypeName && p site)
      = (suiteAssignmentSites owner body).reverse.find? p := by
  rw [← h.assignments, ← List.filter_reverse, List.find?_filter]
  congr 1
  funext site
  simp

theorem latestAssignmentBefore_eq (h : Records node owner body) (target : Nat)
    (valueName : String) :
    latestAssignmentBefore node (some owner.name) owner.typeName none target valueName
      = (suiteAssignmentSites owner body).reverse.find? fun site =>
          site.name == valueName && decide (site.line < target) := by
  rw [← find?_owned h, latestAssignmentBefore]
  congr 1
  funext site
  simp only [Owner.owns, Option.all_none, Bool.and_true, Bool.and_assoc]
  rw [Bool.and_left_comm]
  congr 1
  rw [Bool.and_left_comm]

theorem latestAssignmentInRange_eq (h : Records node owner body) (valueName : String)
    (startLine endLine : Nat) :
    latestAssignmentInRange node (some owner.name) owner.typeName valueName startLine endLine
      = (suiteAssignmentSites owner body).reverse.find? fun site =>
          site.name == valueName
            && (decide (startLine ≤ site.line) && decide (site.line ≤ endLine)) := by
  rw [← find?_owned h, latestAssignmentInRange]
  congr 1
  funext site
  simp only [Owner.owns, Bool.and_assoc]
  rw [Bool.and_left_comm]
  congr 1
  rw [Bool.and_left_comm]

/-- A body has no `del`, so nothing is deleted before the line. -/
theorem latestDeleteInvalidationLine_eq (h : Records node owner body) (target : Nat)
    (valueName : String) :
    latestDeleteInvalidationLine node (some owner.name) owner.typeName target valueName = none := by
  rw [latestDeleteInvalidationLine, Option.map_eq_none_iff, List.find?_eq_none]
  intro site hsite hmatch
  have hmem : site ∈ node.invalidations.filter fun site =>
      owner.owns site.ownerName site.ownerTypeName := by
    refine List.mem_filter.2 ⟨List.mem_reverse.1 hsite, ?_⟩
    simp only [Bool.and_eq_true] at hmatch
    simp only [Owner.owns, Bool.and_eq_true]
    exact ⟨hmatch.1.1.2, hmatch.1.2⟩
  rw [h.invalidations] at hmem
  simp at hmem

/-- A name that is not reassigned after a line has no assignment between it and the target. -/
theorem line_le_of_not_reassigned (h : Records node owner body) {valueName : String}
    (hnot : nameReassignedAfterLine node (some owner.name) owner.typeName valueName afterLine
      target = false) {site : AssignmentSite} (hsite : site ∈ suiteAssignmentSites owner body)
    (hname : site.name = valueName) (hline : site.line < target) : site.line ≤ afterLine := by
  rw [nameReassignedAfterLine, Bool.or_eq_false_iff, directlyReassignedAfterLine,
    Bool.or_eq_false_iff, List.any_eq_false] at hnot
  by_contra hlt
  rw [← h.assignments, List.mem_filter] at hsite
  refine hnot.1.1 site hsite.1 ?_
  have howns := hsite.2
  simp only [Owner.owns, Bool.and_eq_true] at howns
  simp only [Bool.and_eq_true, beq_iff_eq, decide_eq_true_eq]
  exact ⟨⟨⟨⟨hname, by simpa using howns.1⟩, by simpa using howns.2⟩, by omega⟩, hline⟩

theorem joinLine_eq_some_iff {guard guard' : IfGuardSite} :
    joinLine target guard = some (afterLine, guard')
      ↔ guard = guard' ∧ ∃ falseStart falseEnd, guard.falseStartLine = some falseStart
          ∧ guard.falseEndLine = some falseEnd ∧ max guard.trueEndLine falseEnd = afterLine
          ∧ afterLine < target := by
  rw [joinLine]
  cases guard.falseStartLine with
  | none => simp
  | some falseStart =>
    cases guard.falseEndLine with
    | none => simp
    | some falseEnd =>
      simp only [Option.ite_none_right_eq_some, Option.some.injEq, Prod.mk.injEq]
      constructor
      · rintro ⟨hlt, rfl, rfl⟩
        exact ⟨rfl, falseStart, falseEnd, rfl, rfl, rfl, hlt⟩
      · rintro ⟨rfl, _, _, rfl, rfl, rfl, hlt⟩
        exact ⟨hlt, rfl, rfl⟩

/-- The guard the lookup joins at is a guard site of the body that ends before the line. -/
theorem joinGuard_spec (h : Records node owner body) {valueName : String} {guard : IfGuardSite}
    (hjoin : joinGuard node (some owner.name) owner.typeName target valueName
      = some (afterLine, guard)) : guard ∈ bodyIfGuards owner body
      ∧ joinLine target guard = some (afterLine, guard)
      ∧ nameReassignedAfterLine node (some owner.name) owner.typeName valueName afterLine target
          = false := by
  rw [joinGuard] at hjoin
  have hmem := List.mem_of_find?_eq_some hjoin
  have hnot := List.find?_some hjoin
  rw [List.mem_reverse, (perm_sortBy _ _).mem_iff, List.mem_filterMap] at hmem
  obtain ⟨guard', hguard, hline⟩ := hmem
  obtain rfl : guard' = guard := (joinLine_eq_some_iff.1 hline).1
  refine ⟨?_, hline, by simpa using hnot⟩
  rw [← h.ifGuards]
  simpa [Owner.owns] using hguard

/-- In a list sorted downwards, the first item with `p` has `q` when some item has `q`, `q`
implies `p`, and whatever has `p` and is not below that item has `q`. -/
theorem find?_eq_of_imp {sites : List AssignmentSite}
    (hdesc : sites.Pairwise fun a b => b.line ≤ a.line) {p q : AssignmentSite → Bool}
    {site : AssignmentSite} (hfind : sites.find? q = some site)
    (himp : ∀ a ∈ sites, q a = true → p a = true)
    (habove : ∀ a ∈ sites, p a = true → site.line ≤ a.line → q a = true) :
    sites.find? p = some site := by
  induction sites with
  | nil => simp at hfind
  | cons a rest ih =>
    rw [List.pairwise_cons] at hdesc
    by_cases hqa : q a = true
    · have heq : a = site := by simpa [List.find?_cons, hqa] using hfind
      subst heq
      simp [himp a List.mem_cons_self hqa]
    · have hrest : rest.find? q = some site := by simpa [List.find?_cons, hqa] using hfind
      have hmem := List.mem_of_find?_eq_some hrest
      have hpa : ¬ p a = true := fun hpa =>
        hqa (habove a List.mem_cons_self hpa (hdesc.1 site hmem))
      rw [List.find?_cons_of_neg hpa]
      exact ih hdesc.2 hrest (fun b hb => himp b (List.mem_cons_of_mem a hb))
        (fun b hb => habove b (List.mem_cons_of_mem a hb))

/-- What the lookup joins: two sites of the body for the variable before the line, and the
second is the last of all. -/
theorem joinedAssignments_spec (h : Records node owner body) {prev : Nat} {fresh : Bool}
    (hlaid : suiteLaid prev fresh body = true) {valueName : String}
    {trueAssignment falseAssignment : AssignmentSite}
    (hjoined : joinedAssignments node (some owner.name) owner.typeName target valueName
      = some (trueAssignment, falseAssignment)) :
    latestAssignmentBefore node (some owner.name) owner.typeName none target valueName
      = some falseAssignment := by
  rw [joinedAssignments] at hjoined
  simp only [Option.bind_eq_bind, Option.bind_eq_some_iff, Option.pure_def, Option.some.injEq,
    Prod.mk.injEq] at hjoined
  obtain ⟨⟨afterLine, guard⟩, hjoin, _, _, falseStart, hstart, falseEnd, hend, falseSite, hfalse,
    _, rfl⟩ := hjoined
  obtain ⟨hguard, hline, hnot⟩ := joinGuard_spec h hjoin
  obtain ⟨_, _, falseEnd', _, hend', hafter, hlt⟩ := joinLine_eq_some_iff.1 hline
  obtain rfl : falseEnd = falseEnd' := Option.some.inj (hend.symm.trans hend')
  -- the branches of the guard end on the line its `else` ends on
  have hmax : guard.trueEndLine ≤ falseEnd := by
    obtain ⟨line, condition, bodySuite, orelse, rfl, hif⟩ :=
      mem_suiteCollectIfStatements owner body _ prev fresh hlaid hguard
    exact ifGuardSite_end_le owner hif hend
  rw [latestAssignmentInRange_eq h] at hfalse
  rw [latestAssignmentBefore_eq h]
  have hfalseMem := List.mem_of_find?_eq_some hfalse
  have hfalseSpec := List.find?_some hfalse
  simp only [Bool.and_eq_true, beq_iff_eq, decide_eq_true_eq] at hfalseSpec
  -- the last assignment before the line is not before the last in the `else` branch
  have hdesc : (suiteAssignmentSites owner body).reverse.Pairwise fun a b => b.line ≤ a.line :=
    List.pairwise_reverse.2 (suiteAssignmentSites_inLineOrder owner prev fresh body hlaid)
  refine find?_eq_of_imp hdesc hfalse (fun site hsite hrange => ?_) (fun site hsite hbefore hle => ?_)
  · simp only [Bool.and_eq_true, beq_iff_eq, decide_eq_true_eq] at hrange ⊢
    exact ⟨hrange.1, by omega⟩
  · simp only [Bool.and_eq_true, beq_iff_eq, decide_eq_true_eq] at hbefore ⊢
    have := line_le_of_not_reassigned h hnot (List.mem_reverse.1 hsite) hbefore.1 hbefore.2
    exact ⟨hbefore.1, by omega, by omega⟩

/-- When there is an assignment before the line, the lookup looks at one. -/
theorem lookedUp_ne_nil (h : Records node owner body) {valueName : String} {site : AssignmentSite}
    (hsite : site ∈ suiteAssignmentSites owner body) (hname : site.name = valueName)
    (hline : site.line < target) : lookedUp node owner target valueName ≠ [] := by
  rw [lookedUp]
  split
  · simp
  · rw [latestAssignmentBefore_eq h]
    intro hnil
    rw [Option.toList_eq_nil_iff, List.find?_eq_none] at hnil
    exact hnil site (List.mem_reverse.2 hsite) (by simp [hname, hline])

/-- The lookup when no assignment is deleted. -/
theorem resolveLocalAssignmentReference_eq (h : Records node owner body)
    (siteType : AssignmentSite → Option SemanticType) (target : Nat) (valueName : String) :
    resolveLocalAssignmentReference node (some owner.name) owner.typeName siteType target valueName
      = (resolvePostIfJoinedAssignment node (some owner.name) owner.typeName siteType target
          valueName).or
        ((latestAssignmentBefore node (some owner.name) owner.typeName none target valueName).bind
          siteType) := by
  simp only [resolveLocalAssignmentReference, latestDeleteInvalidationLine_eq h]
  cases resolvePostIfJoinedAssignment node (some owner.name) owner.typeName siteType target
      valueName with
  | none => rfl
  | some joined => rfl

end

/-! ## Covering the reaching assignments -/

/-- What the lookup returns includes the type of every assignment some path delivers. -/
def CoversDelivered (node : ModuleNode) (owner : Owner) (body : List Stmt) (target : Nat)
    (valueName : String) (siteType : AssignmentSite → Option SemanticType) : Prop :=
  ∀ ty, resolveLocalAssignmentReference node (some owner.name) owner.typeName siteType target
      valueName = some ty →
    ∀ site, Delivers owner valueName body target site →
      ∀ part, siteType site = some part → Includes ty part

/-- Every assignment that survives to the line is one the lookup looks at. -/
def SurvivorsLookedUp (node : ModuleNode) (owner : Owner) (body : List Stmt) (target : Nat)
    (valueName : String) : Prop :=
  ∀ site ∈ survivors owner valueName body target, site ∈ lookedUp node owner target valueName

section

variable {node : ModuleNode} {owner : Owner} {body : List Stmt} {prev : Nat} {fresh : Bool}

theorem covers_of_survivorsLookedUp (h : Records node owner body)
    (hlaid : suiteLaid prev fresh body = true) {valueName : String}
    (hlooked : SurvivorsLookedUp node owner body target valueName)
    (siteType : AssignmentSite → Option SemanticType) :
    CoversDelivered node owner body target valueName siteType := by
  intro ty hty site hdelivers part hpart
  have hmem := hlooked site ((mem_survivors_iff owner valueName hlaid target site).2 hdelivers)
  rw [resolveLocalAssignmentReference_eq h] at hty
  rw [lookedUp] at hmem
  cases hjoined : joinedAssignments node (some owner.name) owner.typeName target valueName with
  | none =>
    -- nothing is joined: the lookup returns the type of the last assignment
    rw [resolvePostIfJoinedAssignment, hjoined] at hty
    rw [hjoined] at hmem
    have hlatest := Option.mem_toList.1 hmem
    rw [Option.mem_def.1 hlatest] at hty
    have hty' : siteType site = some ty := hty
    rw [hty', Option.some.injEq] at hpart
    exact hpart ▸ Includes.refl ty
  | some pair =>
    obtain ⟨trueAssignment, falseAssignment⟩ := pair
    have hlatest := joinedAssignments_spec h hlaid hjoined
    rw [resolvePostIfJoinedAssignment, hjoined, hlatest] at hty
    rw [hjoined] at hmem
    have hcases : site = trueAssignment ∨ site = falseAssignment := by simpa using hmem
    cases htrue : siteType trueAssignment with
    | none =>
      -- the join fails, and the fallback is the assignment of the `else` branch
      have hty' : siteType falseAssignment = some ty := by simpa [htrue] using hty
      rcases hcases with rfl | rfl
      · rw [htrue] at hpart
        cases hpart
      · rw [hty', Option.some.injEq] at hpart
        exact hpart ▸ Includes.refl ty
    | some trueType =>
      cases hfalse : siteType falseAssignment with
      | none => simp [htrue, hfalse] at hty
      | some falseType =>
        have hty' : joinSemanticTypeCandidates [trueType, falseType] = ty := by
          simpa [htrue, hfalse] using hty
        rw [← hty']
        refine includes_join ?_
        rcases hcases with rfl | rfl
        · rw [htrue, Option.some.injEq] at hpart
          simp [hpart]
        · rw [hfalse, Option.some.injEq] at hpart
          simp [hpart]

/-- A type for every assignment that tells one of them from all others. -/
def markType (marked site : AssignmentSite) : Option SemanticType :=
  some (.name (if site = marked then "marked" else "other"))

theorem survivorsLookedUp_of_covers (h : Records node owner body)
    (hlaid : suiteLaid prev fresh body = true) {valueName : String}
    (hcovers : ∀ siteType, CoversDelivered node owner body target valueName siteType) :
    SurvivorsLookedUp node owner body target valueName := by
  intro site hsurvivor
  by_contra hnot
  have hdelivers := (mem_survivors_iff owner valueName hlaid target site).1 hsurvivor
  obtain ⟨hsite, hname, hline⟩ := hdelivers.site hlaid
  have hne := lookedUp_ne_nil h hsite hname hline
  -- mark the assignment: the lookup returns the type of the others
  have hty : resolveLocalAssignmentReference node (some owner.name) owner.typeName
      (markType site) target valueName = some (.name "other") := by
    rw [resolveLocalAssignmentReference_eq h]
    rw [lookedUp] at hne hnot
    cases hjoined : joinedAssignments node (some owner.name) owner.typeName target valueName with
    | none =>
      rw [hjoined] at hne hnot
      cases hlatest : latestAssignmentBefore node (some owner.name) owner.typeName none target
          valueName with
      | none => simp [hlatest] at hne
      | some latest =>
        have hlatestNe : ¬ latest = site := by
          intro heq
          simp [hlatest, heq] at hnot
        simp [resolvePostIfJoinedAssignment, hjoined, markType, hlatestNe]
    | some pair =>
      obtain ⟨trueAssignment, falseAssignment⟩ := pair
      rw [hjoined] at hnot
      have hnots : ¬ trueAssignment = site ∧ ¬ falseAssignment = site := by
        simp only [List.mem_cons, List.not_mem_nil, or_false, not_or] at hnot
        exact ⟨fun heq => hnot.1 heq.symm, fun heq => hnot.2 heq.symm⟩
      have hjoin : joinSemanticTypeCandidates [.name "other", .name "other"]
          = .name "other" := by decide
      simp [resolvePostIfJoinedAssignment, hjoined, markType, hnots, hjoin]
  have hincludes := hcovers (markType site) _ hty site hdelivers (.name "marked")
    (by simp [markType])
  exact not_includes_name (by decide) hincludes

end

/-! ## A one-armed `if` -/

/-- `x = 1`, then `x = ""` under a condition, then a use of `x`. -/
def oneArmedIf : List Stmt := [
  .assign 2 2 "x" none,
  .ifElse 3 none [.assign 4 4 "x" none] [],
  .expr 5 5]

/-- `int` for the first assignment and `str` for the second. -/
def oneArmedTypes (site : AssignmentSite) : Option SemanticType :=
  some (.name (if site.line = 2 then "int" else "str"))

/-- An `if`/`else` that assigns `x` in both branches, then a use of `x`. -/
def twoArmedIf : List Stmt := [
  .assign 2 2 "x" none,
  .ifElse 3 none [.assign 4 4 "x" none] [.assign 6 6 "x" none],
  .expr 7 7]

end TypePython.Checking
