import TypePython.Binding.Declaration
import TypePython.Checking.SemanticType
import TypePython.Lib.Interner
import Mathlib.Data.List.Induction
import Std.Data.ExtTreeMap

/-!
# The generic solver

Constraints on the type parameters of a call are recorded with their types interned in the
constraint set; the solver interns its partial solutions in a store of its own.

* `record_spec`, `recordAll_spec`: what is recorded, and under which numbers;
* `run_spec`: as long as no number is shared by accident, the solver has the merge of all
  candidates for every variable;
* `solvedByFolding_iff`: exactly then.
-/

namespace TypePython.Checking

open Std
open TypePython.Lib
open TypePython.Syntax
open TypePython.Binding

abbrev TypeStore := Interner SemanticType

/-! ## Solutions -/

structure TypePackBinding where
  types : List SemanticType := []
  variadicTail : Option SemanticType := none
deriving DecidableEq

structure ParamListBinding where
  params : List DirectFunctionParamSite := []
deriving BEq

structure GenericSolution where
  types : ExtTreeMap String SemanticType := ∅
  paramLists : ExtTreeMap String ParamListBinding := ∅
  typePacks : ExtTreeMap String TypePackBinding := ∅

inductive GenericSolveFailure where
  | paramSpecBindingConflict (paramName : String)
  | typeVarTupleBindingConflict (paramName : String)

/-- How solving stops short: an `expect` that fails, or a failure it reports. -/
inductive SolveStop where
  | panic
  | failure (failure : GenericSolveFailure)

/-! ## Constraints -/

structure InternedTypePackBinding where
  types : List Nat
  variadicTail : Option Nat

structure InternedDirectFunctionParam where
  name : String
  annotationText : Option String
  annotationId : Option Nat
  hasDefault : Bool
  positionalOnly : Bool
  keywordOnly : Bool
  variadic : Bool
  keywordVariadic : Bool

structure InternedParamListBinding where
  params : List InternedDirectFunctionParam

inductive GenericConstraint where
  | typeVar (name : String) (candidateId : Nat)
  | paramSpec (name : String) (binding : InternedParamListBinding)
  | typeVarTuple (name : String) (binding : InternedTypePackBinding)

structure GenericConstraintSet where
  constraints : List GenericConstraint := []
  typeStore : TypeStore := .empty

def internTypes (store : TypeStore) : List SemanticType → TypeStore × List Nat
  | [] => (store, [])
  | ty :: rest =>
    let (store, id) := store.intern ty
    let (store, ids) := internTypes store rest
    (store, id :: ids)

def internOptional (store : TypeStore) : Option SemanticType → TypeStore × Option Nat
  | none => (store, none)
  | some ty =>
    let (store, id) := store.intern ty
    (store, some id)

def internTypePackBinding (store : TypeStore) (binding : TypePackBinding) :
    TypeStore × InternedTypePackBinding :=
  let (store, types) := internTypes store binding.types
  let (store, variadicTail) := internOptional store binding.variadicTail
  (store, ⟨types, variadicTail⟩)

/-- The type of a parameter, read from the text of its annotation. -/
def annotationType (param : DirectFunctionParamSite) : Option SemanticType :=
  param.annotation.map lowerTypeTextOrName

/-- A parameter with its annotation under a number. -/
def internedParam (param : DirectFunctionParamSite) (annotationId : Option Nat) :
    InternedDirectFunctionParam where
  name := param.name
  annotationText := param.annotation
  annotationId := annotationId
  hasDefault := param.hasDefault
  positionalOnly := param.positionalOnly
  keywordOnly := param.keywordOnly
  variadic := param.variadic
  keywordVariadic := param.keywordVariadic

def internParams (store : TypeStore) :
    List DirectFunctionParamSite → TypeStore × List InternedDirectFunctionParam
  | [] => (store, [])
  | param :: rest =>
    let (store, annotationId) := internOptional store (annotationType param)
    let (store, params) := internParams store rest
    (store, internedParam param annotationId :: params)

def internParamListBinding (store : TypeStore) (binding : ParamListBinding) :
    TypeStore × InternedParamListBinding :=
  let (store, params) := internParams store binding.params
  (store, ⟨params⟩)

def materializeTypePackBinding (store : TypeStore) (binding : InternedTypePackBinding) :
    TypePackBinding where
  types := binding.types.filterMap store.get
  variadicTail := binding.variadicTail.bind store.get

def materializeParam (store : TypeStore) (param : InternedDirectFunctionParam) :
    DirectFunctionParamSite where
  name := param.name
  annotation := ((param.annotationId.bind store.get).map renderSemanticType).or param.annotationText
  annotationExpr := (param.annotationId.bind store.get).map semanticTypeToTypeExpr
  hasDefault := param.hasDefault
  positionalOnly := param.positionalOnly
  keywordOnly := param.keywordOnly
  variadic := param.variadic
  keywordVariadic := param.keywordVariadic

def materializeParamListBinding (store : TypeStore) (binding : InternedParamListBinding) :
    ParamListBinding where
  params := binding.params.map (materializeParam store)

/-- What is recorded: a candidate of a type variable, or the binding of a parameter
specification or of a type variable tuple. -/
inductive Recorded where
  | typeVar (name : String) (candidate : SemanticType)
  | paramSpec (name : String) (binding : ParamListBinding)
  | typeVarTuple (name : String) (binding : TypePackBinding)

namespace GenericConstraintSet

def record (set : GenericConstraintSet) : Recorded → GenericConstraintSet
  | .typeVar name candidate =>
    let (store, candidateId) := set.typeStore.intern candidate
    ⟨set.constraints ++ [.typeVar name candidateId], store⟩
  | .paramSpec name binding =>
    let (store, binding) := internParamListBinding set.typeStore binding
    ⟨set.constraints ++ [.paramSpec name binding], store⟩
  | .typeVarTuple name binding =>
    let (store, binding) := internTypePackBinding set.typeStore binding
    ⟨set.constraints ++ [.typeVarTuple name binding], store⟩

def recordAll (entries : List Recorded) : GenericConstraintSet := entries.foldl record {}

/-- The bindings of a call, type variables first. -/
def extendBindings (set : GenericConstraintSet) (bindings : GenericSolution) :
    GenericConstraintSet :=
  (bindings.types.toList.map (fun (name, candidate) => Recorded.typeVar name candidate)
    ++ bindings.paramLists.toList.map (fun (name, binding) => Recorded.paramSpec name binding)
    ++ bindings.typePacks.toList.map (fun (name, binding) => Recorded.typeVarTuple name binding)
    ).foldl record set

def pushTypePackBinding (set : GenericConstraintSet) (name : String) (binding : TypePackBinding) :
    GenericConstraintSet :=
  set.record (.typeVarTuple name binding)

end GenericConstraintSet

/-! ## Merging -/

def mergeGenericTypeCandidates (existing actual : SemanticType) : SemanticType :=
  if existing = actual then existing else joinSemanticTypeCandidates [existing, actual]

def mergeTypePackCandidates (existing actual : TypePackBinding) : Option TypePackBinding :=
  if existing.types.length ≠ actual.types.length then none
  else
    let types := List.zipWith mergeGenericTypeCandidates existing.types actual.types
    match existing.variadicTail, actual.variadicTail with
    | some left, some right => some ⟨types, some (mergeGenericTypeCandidates left right)⟩
    | none, none => some ⟨types, none⟩
    | _, _ => none

def insertParamSpecBinding (substitutions : GenericSolution) (name : String)
    (binding : ParamListBinding) : Option GenericSolution :=
  match substitutions.paramLists[name]? with
  | some existing => if existing != binding then none else some substitutions
  | none => some { substitutions with paramLists := substitutions.paramLists.insert name binding }

def insertTypePackBinding (substitutions : GenericSolution) (name : String)
    (binding : TypePackBinding) : Option GenericSolution :=
  match substitutions.typePacks[name]? with
  | some existing =>
    if existing = binding then some substitutions
    else do
      let merged ← mergeTypePackCandidates existing binding
      return { substitutions with typePacks := substitutions.typePacks.insert name merged }
  | none => some { substitutions with typePacks := substitutions.typePacks.insert name binding }

section

variable (isAssignable : SemanticType → SemanticType → Bool)

/-- The candidate the other is assignable to, or else their join. -/
def mergeGenericTypeCandidatesWithContext (existing actual : SemanticType) : SemanticType :=
  if isAssignable actual existing then actual
  else if isAssignable existing actual then existing
  else mergeGenericTypeCandidates existing actual

/-! ## Solving -/

structure SolverState where
  solution : GenericSolution := {}
  typeIds : ExtTreeMap String Nat := ∅
  typeStore : TypeStore := .empty

def expect {α : Type} : Option α → Except SolveStop α
  | some a => .ok a
  | none => .error .panic

/-- One constraint. A candidate whose number is that of the partial solution is skipped. -/
def solveConstraint (constraintStore : TypeStore) (state : SolverState) :
    GenericConstraint → Except SolveStop SolverState
  | .typeVar name candidateId =>
    match state.typeIds[name]? with
    | some existingId =>
      if existingId ≠ candidateId then do
        let existing ← expect
          ((state.typeStore.get existingId).or (constraintStore.get existingId))
        let candidate ← expect (constraintStore.get candidateId)
        let merged := mergeGenericTypeCandidatesWithContext isAssignable existing candidate
        let (typeStore, mergedId) := state.typeStore.intern merged
        return { state with typeIds := state.typeIds.insert name mergedId, typeStore }
      else return state
    | none => do
      let candidate ← expect (constraintStore.get candidateId)
      let (typeStore, id) := state.typeStore.intern candidate
      return { state with typeIds := state.typeIds.insert name id, typeStore }
  | .paramSpec name binding =>
    match insertParamSpecBinding state.solution name
        (materializeParamListBinding constraintStore binding) with
    | some solution => .ok { state with solution }
    | none => .error (.failure (.paramSpecBindingConflict name))
  | .typeVarTuple name binding =>
    match insertTypePackBinding state.solution name
        (materializeTypePackBinding constraintStore binding) with
    | some solution => .ok { state with solution }
    | none => .error (.failure (.typeVarTupleBindingConflict name))

/-- The solution with the types its numbers stand for. -/
def SolverState.finish (state : SolverState) : Except SolveStop GenericSolution :=
  if state.typeIds.toList.all fun (_, id) => (state.typeStore.get id).isSome then
    .ok { state.solution with types := state.typeIds.filterMap fun _ id => state.typeStore.get id }
  else .error .panic

def solveCollectedGenericConstraints (constraints : GenericConstraintSet) :
    Except SolveStop GenericSolution := do
  let state ← constraints.constraints.foldlM (solveConstraint isAssignable constraints.typeStore) {}
  state.finish

end

/-! ## What is recorded -/

section

variable {store later : TypeStore}

/-- The types an entry interns, in order. -/
def Recorded.types : Recorded → List SemanticType
  | .typeVar _ candidate => [candidate]
  | .paramSpec _ binding => binding.params.filterMap annotationType
  | .typeVarTuple _ binding => binding.types ++ binding.variadicTail.toList

/-- The constraint for an entry, with its types under their numbers in a store. -/
def Recorded.constraint (store : TypeStore) : Recorded → GenericConstraint
  | .typeVar name candidate => .typeVar name (store.idOf candidate)
  | .paramSpec name binding =>
    .paramSpec name ⟨binding.params.map fun param =>
      internedParam param ((annotationType param).map store.idOf)⟩
  | .typeVarTuple name binding =>
    .typeVarTuple name ⟨binding.types.map store.idOf, binding.variadicTail.map store.idOf⟩

theorem internTypes_eq (store : TypeStore) (types : List SemanticType) :
    (internTypes store types).1 = store.internAll types
      ∧ ∀ later, (store.internAll types).Extends later →
          (internTypes store types).2 = types.map later.idOf := by
  induction types generalizing store with
  | nil => exact ⟨rfl, fun _ _ => rfl⟩
  | cons ty rest ih =>
    obtain ⟨hstore, hids⟩ := ih (store.intern ty).1
    refine ⟨hstore, fun later hlater => ?_⟩
    have hty : (store.intern ty).1.Extends later :=
      (Interner.extends_internAll _ rest).trans hlater
    simp only [internTypes, List.map_cons]
    rw [hids later hlater, Interner.intern_snd, hty.idOf_eq (Interner.mem_intern store ty)]

theorem internOptional_eq (store : TypeStore) (ty : Option SemanticType) :
    (internOptional store ty).1 = store.internAll ty.toList
      ∧ ∀ later, (store.internAll ty.toList).Extends later →
          (internOptional store ty).2 = ty.map later.idOf := by
  cases ty with
  | none => exact ⟨rfl, fun _ _ => rfl⟩
  | some ty =>
    refine ⟨rfl, fun later hlater => ?_⟩
    have hty : (store.intern ty).1.Extends later := hlater
    simp only [internOptional, Option.map_some]
    rw [Interner.intern_snd, hty.idOf_eq (Interner.mem_intern store ty)]

theorem internParams_eq (store : TypeStore) (params : List DirectFunctionParamSite) :
    (internParams store params).1 = store.internAll (params.filterMap annotationType)
      ∧ ∀ later, (store.internAll (params.filterMap annotationType)).Extends later →
          (internParams store params).2
            = params.map fun param => internedParam param ((annotationType param).map later.idOf) := by
  induction params generalizing store with
  | nil => exact ⟨rfl, fun _ _ => rfl⟩
  | cons param rest ih =>
    obtain ⟨hfirst, hfirstId⟩ := internOptional_eq store (annotationType param)
    obtain ⟨hstore, hids⟩ := ih (internOptional store (annotationType param)).1
    have hsplit : store.internAll ((param :: rest).filterMap annotationType)
        = (store.internAll (annotationType param).toList).internAll
          (rest.filterMap annotationType) := by
      rw [← Interner.internAll_append]
      cases h : annotationType param <;> simp [h]
    rw [hsplit, ← hfirst]
    refine ⟨hstore, fun later hlater => ?_⟩
    simp only [internParams, List.map_cons]
    rw [hids later hlater, hfirstId later]
    rw [← hfirst]
    exact (Interner.extends_internAll _ _).trans hlater

/-- Recording interns the types of the entry and appends its constraint. -/
theorem record_spec (set : GenericConstraintSet) (entry : Recorded) :
    (set.record entry).typeStore = set.typeStore.internAll entry.types
      ∧ ∀ later, (set.record entry).typeStore.Extends later →
          (set.record entry).constraints = set.constraints ++ [entry.constraint later] := by
  cases entry with
  | typeVar name candidate =>
    refine ⟨rfl, fun later hlater => ?_⟩
    have hcandidate : (set.typeStore.intern candidate).1.Extends later := hlater
    simp only [GenericConstraintSet.record, Recorded.constraint]
    rw [Interner.intern_snd, hcandidate.idOf_eq (Interner.mem_intern _ candidate)]
  | paramSpec name binding =>
    obtain ⟨hstore, hids⟩ := internParams_eq set.typeStore binding.params
    refine ⟨hstore, fun later hlater => ?_⟩
    simp only [GenericConstraintSet.record, internParamListBinding, Recorded.constraint]
    rw [hids later (hstore ▸ hlater)]
  | typeVarTuple name binding =>
    obtain ⟨htypes, htypeIds⟩ := internTypes_eq set.typeStore binding.types
    obtain ⟨htail, htailId⟩ :=
      internOptional_eq (internTypes set.typeStore binding.types).1 binding.variadicTail
    have hstore : (set.record (.typeVarTuple name binding)).typeStore
        = set.typeStore.internAll (binding.types ++ binding.variadicTail.toList) := by
      rw [Interner.internAll_append, ← htypes]
      exact htail
    refine ⟨hstore, fun later hlater => ?_⟩
    rw [hstore, Interner.internAll_append] at hlater
    simp only [GenericConstraintSet.record, internTypePackBinding, Recorded.constraint]
    rw [htypeIds later ((Interner.extends_internAll _ _).trans hlater),
      htailId later (htypes ▸ hlater)]

/-- The types interned by a sequence of entries. -/
def recordedTypes (entries : List Recorded) : List SemanticType := entries.flatMap Recorded.types

theorem recordedTypes_append_singleton (entries : List Recorded) (entry : Recorded) :
    recordedTypes (entries ++ [entry]) = recordedTypes entries ++ entry.types := by
  simp [recordedTypes]

open GenericConstraintSet in
theorem recordAll_append_singleton (entries : List Recorded) (entry : Recorded) :
    recordAll (entries ++ [entry]) = (recordAll entries).record entry := by
  simp [recordAll]

open GenericConstraintSet in
/-- The constraints of a sequence of entries, whatever is recorded later. -/
theorem recordAll_spec (entries : List Recorded) :
    (recordAll entries).typeStore = Interner.empty.internAll (recordedTypes entries)
      ∧ ∀ later, (recordAll entries).typeStore.Extends later →
          (recordAll entries).constraints = entries.map (Recorded.constraint later) := by
  induction entries using List.reverseRecOn with
  | nil => exact ⟨rfl, fun _ _ => rfl⟩
  | append_singleton entries entry ih =>
    obtain ⟨hstore, hconstraints⟩ := record_spec (recordAll entries) entry
    rw [recordAll_append_singleton]
    constructor
    · rw [hstore, ih.1, ← Interner.internAll_append, recordedTypes_append_singleton]
    · intro later hlater
      have hinitial : (recordAll entries).typeStore.Extends later := by
        rw [hstore] at hlater
        exact (Interner.extends_internAll _ _).trans hlater
      rw [hconstraints later hlater, ih.2 later hinitial]
      simp

/-! ## Materialized bindings -/

theorem filterMap_get_map_idOf {types : List SemanticType} (h : ∀ ty ∈ types, ty ∈ store.arena) :
    (types.map store.idOf).filterMap store.get = types := by
  rw [List.filterMap_map]
  calc types.filterMap (store.get ∘ store.idOf) = types.filterMap some :=
        List.filterMap_congr fun ty hty => Interner.get_idOf (h ty hty)
    _ = types := List.filterMap_some

theorem bind_get_map_idOf {ty : Option SemanticType} (h : ∀ t ∈ ty, t ∈ store.arena) :
    (ty.map store.idOf).bind store.get = ty := by
  cases ty with
  | none => rfl
  | some t => exact Interner.get_idOf (h t rfl)

/-- A parameter as it comes back from the store: its annotation is the rendering of its type. -/
def normalizedParam (param : DirectFunctionParamSite) : DirectFunctionParamSite :=
  { param with
    annotation := ((annotationType param).map renderSemanticType).or param.annotation
    annotationExpr := (annotationType param).map semanticTypeToTypeExpr }

theorem materializeParam_internedParam {param : DirectFunctionParamSite}
    (h : ∀ ty ∈ annotationType param, ty ∈ store.arena) :
    materializeParam store (internedParam param ((annotationType param).map store.idOf))
      = normalizedParam param := by
  have hget := bind_get_map_idOf h
  simp only [materializeParam, internedParam, hget]
  rfl

/-! ## One entry -/

/-- What an entry does to the bindings of a solution, its types aside. -/
def insertRecorded (solution : GenericSolution) : Recorded → Option GenericSolution
  | .typeVar _ _ => some solution
  | .paramSpec name binding =>
    insertParamSpecBinding solution name ⟨binding.params.map normalizedParam⟩
  | .typeVarTuple name binding => insertTypePackBinding solution name binding

/-- No two bindings of one parameter specification or type variable tuple conflict. -/
def Consistent (entries : List Recorded) : Prop :=
  (entries.foldlM insertRecorded {}).isSome = true

variable (isAssignable : SemanticType → SemanticType → Bool)

/-- A constraint that is not for a type variable does to the state what its entry does. -/
theorem solveConstraint_binding {entry : Recorded} (hentry : ∀ name ty, entry ≠ .typeVar name ty)
    (htypes : ∀ ty ∈ entry.types, ty ∈ store.arena) (state : SolverState) :
    (∃ solution, insertRecorded state.solution entry = some solution
        ∧ solveConstraint isAssignable store state (entry.constraint store)
          = .ok { state with solution })
      ∨ (∃ failure, insertRecorded state.solution entry = none
        ∧ solveConstraint isAssignable store state (entry.constraint store)
          = .error (.failure failure)) := by
  cases entry with
  | typeVar name ty => exact absurd rfl (hentry name ty)
  | paramSpec name binding =>
    have hbinding : materializeParamListBinding store ⟨binding.params.map fun param =>
        internedParam param ((annotationType param).map store.idOf)⟩
          = ⟨binding.params.map normalizedParam⟩ := by
      rw [materializeParamListBinding, List.map_map]
      congr 1
      refine List.map_congr_left fun param hparam => materializeParam_internedParam ?_
      exact fun ty hty => htypes ty (List.mem_filterMap.2 ⟨param, hparam, hty⟩)
    simp only [Recorded.constraint, solveConstraint, insertRecorded, hbinding]
    cases insertParamSpecBinding state.solution name ⟨binding.params.map normalizedParam⟩ with
    | none => exact .inr ⟨_, rfl, rfl⟩
    | some solution => exact .inl ⟨solution, rfl, rfl⟩
  | typeVarTuple name binding =>
    have hbinding : materializeTypePackBinding store
        ⟨binding.types.map store.idOf, binding.variadicTail.map store.idOf⟩ = binding := by
      rw [materializeTypePackBinding, filterMap_get_map_idOf, bind_get_map_idOf]
      · exact fun ty hty => htypes ty (List.mem_append_right _ (Option.mem_toList.2 hty))
      · exact fun ty hty => htypes ty (List.mem_append_left _ hty)
    simp only [Recorded.constraint, solveConstraint, insertRecorded, hbinding]
    cases insertTypePackBinding state.solution name binding with
    | none => exact .inr ⟨_, rfl, rfl⟩
    | some solution => exact .inl ⟨solution, rfl, rfl⟩

end

/-! ## Folding the candidates -/

section

variable (isAssignable : SemanticType → SemanticType → Bool)

/-- The candidates recorded for a type variable. -/
def candidates (name : String) (entries : List Recorded) : List SemanticType :=
  entries.filterMap fun
    | .typeVar name' candidate => if name' = name then some candidate else none
    | _ => none

/-- The merge of all candidates recorded for a type variable, in recording order. -/
def foldedCandidates (name : String) (entries : List Recorded) : Option SemanticType :=
  match candidates name entries with
  | [] => none
  | first :: rest => some (rest.foldl (mergeGenericTypeCandidatesWithContext isAssignable) first)

/-- What the solver returns has the merge of all candidates for every variable. -/
def SolvedByFolding (entries : List Recorded) : Prop :=
  ∀ solution, solveCollectedGenericConstraints isAssignable
      (GenericConstraintSet.recordAll entries) = .ok solution →
    ∀ name, solution.types[name]? = foldedCandidates isAssignable name entries

/-- The merge of the candidates so far, when the entry is one more. -/
def partialType (before : List Recorded) : Recorded → List SemanticType
  | .typeVar name candidate =>
    (foldedCandidates isAssignable name (before ++ [.typeVar name candidate])).toList
  | _ => []

/-- The merges of the candidates so far, after each candidate that is recorded. -/
def partialTypes (before : List Recorded) : List Recorded → List SemanticType
  | [] => []
  | entry :: rest =>
    partialType isAssignable before entry ++ partialTypes (before ++ [entry]) rest

/-- A candidate is given the number in the constraint store that the merge of the candidates
before it has in the solver's own store. -/
def SharesId (entries : List Recorded) (name : String) (existing candidate : SemanticType) : Prop :=
  (Interner.empty.internAll (partialTypes isAssignable [] entries)).idOf existing
    = (Interner.empty.internAll (recordedTypes (entries ++ [.typeVar name candidate]))).idOf candidate

/-- Where a candidate shares the number of the merge before it, it adds nothing to it. -/
def NoIdClash (entries : List Recorded) : Prop :=
  ∀ before name candidate, before ++ [.typeVar name candidate] <+: entries → Consistent before →
    ∀ existing, foldedCandidates isAssignable name before = some existing →
      SharesId isAssignable before name existing candidate →
        mergeGenericTypeCandidatesWithContext isAssignable existing candidate = existing

theorem foldedCandidates_append_typeVar (entries : List Recorded) (name : String)
    (candidate : SemanticType) :
    foldedCandidates isAssignable name (entries ++ [.typeVar name candidate])
      = some (match foldedCandidates isAssignable name entries with
        | none => candidate
        | some existing => mergeGenericTypeCandidatesWithContext isAssignable existing candidate) := by
  unfold foldedCandidates
  have happend : candidates name (entries ++ [.typeVar name candidate])
      = candidates name entries ++ [candidate] := by
    simp [candidates]
  rw [happend]
  cases candidates name entries with
  | nil => rfl
  | cons first rest => simp

theorem foldedCandidates_append_of_ne (entries : List Recorded) (name : String) {entry : Recorded}
    (hentry : ∀ candidate, entry ≠ .typeVar name candidate) :
    foldedCandidates isAssignable name (entries ++ [entry])
      = foldedCandidates isAssignable name entries := by
  have happend : candidates name (entries ++ [entry]) = candidates name entries := by
    cases entry with
    | typeVar name' candidate =>
      have hne : name' ≠ name := by
        rintro rfl
        exact hentry candidate rfl
      simp [candidates, hne]
    | paramSpec => simp [candidates]
    | typeVarTuple => simp [candidates]
  rw [foldedCandidates, happend]
  rfl

theorem partialTypes_append_singleton (before entries : List Recorded) (entry : Recorded) :
    partialTypes isAssignable before (entries ++ [entry])
      = partialTypes isAssignable before entries
        ++ partialType isAssignable (before ++ entries) entry := by
  induction entries generalizing before with
  | nil => simp [partialTypes]
  | cons first rest ih =>
    rw [List.cons_append, partialTypes, ih]
    simp [partialTypes, List.append_assoc]

theorem NoIdClash.of_prefix {entries before : List Recorded} (h : NoIdClash isAssignable entries)
    (hinitial : before <+: entries) : NoIdClash isAssignable before :=
  fun before' name candidate hbefore => h before' name candidate (hbefore.trans hinitial)

/-! ## Running the solver -/

/-- The state of the solver once it has the merge of all candidates of the entries. -/
structure Solved (entries : List Recorded) (state : SolverState) : Prop where
  store : state.typeStore = Interner.empty.internAll (partialTypes isAssignable [] entries)
  ids : ∀ name, state.typeIds[name]?
    = (foldedCandidates isAssignable name entries).map state.typeStore.idOf
  known : ∀ name ty, foldedCandidates isAssignable name entries = some ty →
    ty ∈ state.typeStore.arena
  bindings : entries.foldlM insertRecorded {} = some state.solution

/-- A candidate whose merge is interned leaves the state solved. -/
theorem Solved.insert {entries : List Recorded} {state : SolverState}
    (h : Solved isAssignable entries state) {name : String} {candidate merged : SemanticType}
    (hmerged : foldedCandidates isAssignable name (entries ++ [.typeVar name candidate])
      = some merged) :
    Solved isAssignable (entries ++ [.typeVar name candidate])
      { state with
        typeIds := state.typeIds.insert name (state.typeStore.intern merged).2
        typeStore := (state.typeStore.intern merged).1 } := by
  have hextends := Interner.extends_intern state.typeStore merged
  have hother : ∀ name', name ≠ name' →
      foldedCandidates isAssignable name' (entries ++ [.typeVar name candidate])
        = foldedCandidates isAssignable name' entries := fun name' hne => by
    refine foldedCandidates_append_of_ne isAssignable entries name' fun c heq => ?_
    injection heq with hname
    exact hne hname
  constructor
  · rw [partialTypes_append_singleton, Interner.internAll_append, ← h.store]
    simp [partialType, hmerged, Interner.internAll]
  · intro name'
    rw [ExtTreeMap.getElem?_insert]
    by_cases hname : name = name'
    · subst hname
      rw [if_pos (by simp), hmerged, Option.map_some, Interner.intern_snd]
    · rw [if_neg (by simpa using hname), hother name' hname, h.ids name']
      refine Option.map_congr fun ty hty => ?_
      exact (hextends.idOf_eq (h.known name' ty hty)).symm
  · intro name' ty hty
    by_cases hname : name = name'
    · subst hname
      rw [hmerged, Option.some.injEq] at hty
      exact hty ▸ Interner.mem_intern state.typeStore merged
    · rw [hother name' hname] at hty
      exact hextends.mem (h.known name' ty hty)
  · rw [List.foldlM_append, h.bindings]
    rfl

/-- A candidate that adds nothing to the merge leaves the state solved as it is. -/
theorem Solved.skip {entries : List Recorded} {state : SolverState}
    (h : Solved isAssignable entries state) {name : String} {candidate existing : SemanticType}
    (hexisting : foldedCandidates isAssignable name entries = some existing)
    (hmerged : foldedCandidates isAssignable name (entries ++ [.typeVar name candidate])
      = some existing) :
    Solved isAssignable (entries ++ [.typeVar name candidate]) state := by
  have hsame : ∀ name', foldedCandidates isAssignable name' (entries ++ [.typeVar name candidate])
      = foldedCandidates isAssignable name' entries := by
    intro name'
    by_cases hname : name = name'
    · subst hname
      rw [hmerged, hexisting]
    · refine foldedCandidates_append_of_ne isAssignable entries name' fun c heq => ?_
      injection heq with heq
      exact hname heq
  constructor
  · rw [partialTypes_append_singleton, Interner.internAll_append, ← h.store]
    simp [partialType, hmerged, Interner.internAll,
      Interner.intern_eq_self (h.known name existing hexisting)]
  · intro name'
    rw [hsame name']
    exact h.ids name'
  · intro name' ty hty
    exact h.known name' ty (hsame name' ▸ hty)
  · rw [List.foldlM_append, h.bindings]
    rfl

/-- A binding leaves the types of a solved state as they are. -/
theorem Solved.bind {entries : List Recorded} {state : SolverState}
    (h : Solved isAssignable entries state) {entry : Recorded}
    (hentry : ∀ name ty, entry ≠ .typeVar name ty) {solution : GenericSolution}
    (hsolution : insertRecorded state.solution entry = some solution) :
    Solved isAssignable (entries ++ [entry]) { state with solution } := by
  have hsame : ∀ name, foldedCandidates isAssignable name (entries ++ [entry])
      = foldedCandidates isAssignable name entries := fun name =>
    foldedCandidates_append_of_ne isAssignable entries name (hentry name)
  constructor
  · rw [partialTypes_append_singleton, Interner.internAll_append, ← h.store]
    cases entry with
    | typeVar name ty => exact absurd rfl (hentry name ty)
    | paramSpec => rfl
    | typeVarTuple => rfl
  · intro name
    rw [hsame name]
    exact h.ids name
  · intro name ty hty
    exact h.known name ty (hsame name ▸ hty)
  · rw [List.foldlM_append, h.bindings]
    simp [hsolution]

section

variable {entries : List Recorded} {state : SolverState} {store : TypeStore} {name : String}
  {candidate : SemanticType}

/-- The first candidate of a variable, or one whose number differs, is merged. -/
theorem solveConstraint_merge (h : Solved isAssignable entries state)
    (hcandidate : candidate ∈ store.arena)
    (hids : ∀ existing, foldedCandidates isAssignable name entries = some existing →
      state.typeStore.idOf existing ≠ store.idOf candidate) :
    ∃ merged, foldedCandidates isAssignable name (entries ++ [.typeVar name candidate])
        = some merged
      ∧ solveConstraint isAssignable store state (.typeVar name (store.idOf candidate))
        = .ok { state with
            typeIds := state.typeIds.insert name (state.typeStore.intern merged).2
            typeStore := (state.typeStore.intern merged).1 } := by
  refine ⟨_, foldedCandidates_append_typeVar isAssignable entries name candidate, ?_⟩
  have hid := h.ids name
  cases hfold : foldedCandidates isAssignable name entries with
  | none =>
    rw [hfold] at hid
    simp only [solveConstraint, hid, Option.map_none, Interner.get_idOf hcandidate]
    rfl
  | some existing =>
    rw [hfold] at hid
    have hknown := Interner.get_idOf (h.known name existing hfold)
    simp only [solveConstraint, hid, Option.map_some, if_pos (hids existing hfold), hknown,
      Interner.get_idOf hcandidate]
    rfl

/-- A candidate with the number of the merge before it is skipped. -/
theorem solveConstraint_skip (h : Solved isAssignable entries state) {existing : SemanticType}
    (hexisting : foldedCandidates isAssignable name entries = some existing)
    (hid : state.typeStore.idOf existing = store.idOf candidate) :
    solveConstraint isAssignable store state (.typeVar name (store.idOf candidate)) = .ok state := by
  have hids := h.ids name
  rw [hexisting, Option.map_some, hid] at hids
  simp [solveConstraint, hids]
  rfl

end

/-- Finishing a solved state gives every variable the merge of its candidates. -/
theorem Solved.finish {entries : List Recorded} {state : SolverState}
    (h : Solved isAssignable entries state) :
    ∃ solution, state.finish = .ok solution
      ∧ ∀ name, solution.types[name]? = foldedCandidates isAssignable name entries := by
  have hget : ∀ name id, state.typeIds[name]? = some id →
      state.typeStore.get id = foldedCandidates isAssignable name entries := by
    intro name id hid
    rw [h.ids name] at hid
    cases hfold : foldedCandidates isAssignable name entries with
    | none => simp [hfold] at hid
    | some ty =>
      rw [hfold, Option.map_some, Option.some.injEq] at hid
      rw [← hid]
      exact Interner.get_idOf (h.known name ty hfold)
  have hall : (state.typeIds.toList.all fun (_, id) => (state.typeStore.get id).isSome) = true := by
    rw [List.all_eq_true]
    rintro ⟨name, id⟩ hmem
    have hid := ExtTreeMap.mem_toList_iff_getElem?_eq_some.1 hmem
    rw [h.ids name] at hid
    cases hfold : foldedCandidates isAssignable name entries with
    | none => simp [hfold] at hid
    | some ty => simp [hget name id (by rw [h.ids name]; exact hid), hfold]
  refine ⟨_, by rw [SolverState.finish, if_pos hall], fun name => ?_⟩
  simp only [ExtTreeMap.getElem?_filterMap]
  cases hid : state.typeIds[name]? with
  | none =>
    rw [h.ids name] at hid
    cases hfold : foldedCandidates isAssignable name entries with
    | none => rfl
    | some ty => simp [hfold] at hid
  | some id => simpa using hget name id hid

/-- The constraints of the entries, solved with the numbers of a store that has them all. -/
def runEntries (store : TypeStore) (entries : List Recorded) : Except SolveStop SolverState :=
  (entries.map (Recorded.constraint store)).foldlM (solveConstraint isAssignable store) {}

theorem runEntries_append_singleton (store : TypeStore) (entries : List Recorded)
    (entry : Recorded) :
    runEntries isAssignable store (entries ++ [entry])
      = (runEntries isAssignable store entries).bind fun state =>
        solveConstraint isAssignable store state (entry.constraint store) := by
  rw [runEntries, List.map_append, List.foldlM_append]
  show (runEntries isAssignable store entries >>= _) = _
  refine congrArg _ (funext fun state => ?_)
  simp

theorem solve_recordAll (entries : List Recorded) :
    solveCollectedGenericConstraints isAssignable (GenericConstraintSet.recordAll entries)
      = (runEntries isAssignable (GenericConstraintSet.recordAll entries).typeStore entries).bind
        SolverState.finish := by
  rw [solveCollectedGenericConstraints, (recordAll_spec entries).2 _ (Interner.Extends.refl _)]
  rfl

/-- Without a clash of numbers the solver is solved after all entries, or reports a conflict of
bindings. -/
theorem run_spec {store : TypeStore} (entries : List Recorded)
    (hstore : (Interner.empty.internAll (recordedTypes entries)).Extends store)
    (hclash : NoIdClash isAssignable entries) :
    (∃ state, runEntries isAssignable store entries = .ok state
        ∧ Solved isAssignable entries state)
      ∨ (∃ failure, runEntries isAssignable store entries = .error (.failure failure)
        ∧ ¬ Consistent entries) := by
  induction entries using List.reverseRecOn with
  | nil =>
    refine .inl ⟨{}, rfl, rfl, fun name => ?_, fun name ty hty => ?_, rfl⟩
    · simp [foldedCandidates, candidates]
    · simp [foldedCandidates, candidates] at hty
  | append_singleton entries entry ih =>
    rw [recordedTypes_append_singleton, Interner.internAll_append] at hstore
    have htypes : ∀ ty ∈ entry.types, ty ∈ store.arena := fun ty hty =>
      hstore.mem (Interner.mem_internAll _ hty)
    have ih := ih ((Interner.extends_internAll _ _).trans hstore)
      (hclash.of_prefix isAssignable (List.prefix_append _ _))
    rw [runEntries_append_singleton]
    rcases ih with ⟨state, hrun, hsolved⟩ | ⟨failure, hrun, hconflict⟩
    · rw [hrun]
      show (∃ state', solveConstraint isAssignable store state (entry.constraint store)
          = .ok state' ∧ _) ∨ _
      cases entry with
      | typeVar name candidate =>
        have hcandidate : candidate ∈ store.arena := htypes candidate (by simp [Recorded.types])
        by_cases hshared : ∃ existing, foldedCandidates isAssignable name entries = some existing
            ∧ state.typeStore.idOf existing = store.idOf candidate
        · -- the candidate is skipped, and it adds nothing
          obtain ⟨existing, hexisting, hid⟩ := hshared
          have hsame : SharesId isAssignable entries name existing candidate := by
            rw [SharesId, ← hsolved.store, hid, recordedTypes_append_singleton,
              Interner.internAll_append]
            exact hstore.idOf_eq (Interner.mem_internAll _ (by simp [Recorded.types]))
          have hmerge := hclash entries name candidate List.prefix_rfl
            (by rw [Consistent, hsolved.bindings]; rfl) existing hexisting hsame
          have hfold := foldedCandidates_append_typeVar isAssignable entries name candidate
          rw [hexisting] at hfold
          refine .inl ⟨state, solveConstraint_skip isAssignable hsolved hexisting hid, ?_⟩
          exact hsolved.skip isAssignable hexisting (hfold.trans (congrArg some hmerge))
        · obtain ⟨merged, hmerged, hstep⟩ := solveConstraint_merge isAssignable hsolved hcandidate
            fun existing hexisting hid => hshared ⟨existing, hexisting, hid⟩
          exact .inl ⟨_, hstep, hsolved.insert isAssignable hmerged⟩
      | paramSpec name binding =>
        rcases solveConstraint_binding isAssignable (by simp) htypes state with
          ⟨solution, hsolution, hstep⟩ | ⟨failure, hnone, hstep⟩
        · exact .inl ⟨_, hstep, hsolved.bind isAssignable (by simp) hsolution⟩
        · refine .inr ⟨failure, hstep, ?_⟩
          rw [Consistent, List.foldlM_append, hsolved.bindings]
          simp [hnone]
      | typeVarTuple name binding =>
        rcases solveConstraint_binding isAssignable (by simp) htypes state with
          ⟨solution, hsolution, hstep⟩ | ⟨failure, hnone, hstep⟩
        · exact .inl ⟨_, hstep, hsolved.bind isAssignable (by simp) hsolution⟩
        · refine .inr ⟨failure, hstep, ?_⟩
          rw [Consistent, List.foldlM_append, hsolved.bindings]
          simp [hnone]
    · refine .inr ⟨failure, by rw [hrun]; rfl, fun hconsistent => hconflict ?_⟩
      rw [Consistent, List.foldlM_append] at hconsistent
      cases hbindings : entries.foldlM insertRecorded {} with
      | none => simp [hbindings] at hconsistent
      | some solution => rw [Consistent, hbindings]; rfl

/-- When the solver folds one more candidate in spite of a shared number, it adds nothing. -/
theorem merge_eq_of_sharesId {before : List Recorded} {name : String} {candidate : SemanticType}
    (hclash : NoIdClash isAssignable before)
    (hsolved : SolvedByFolding isAssignable (before ++ [.typeVar name candidate]))
    (hconsistent : Consistent before) {existing : SemanticType}
    (hexisting : foldedCandidates isAssignable name before = some existing)
    (hshares : SharesId isAssignable before name existing candidate) :
    mergeGenericTypeCandidatesWithContext isAssignable existing candidate = existing := by
  let store := (GenericConstraintSet.recordAll (before ++ [.typeVar name candidate])).typeStore
  have hstore : store = Interner.empty.internAll
      (recordedTypes (before ++ [.typeVar name candidate])) := (recordAll_spec _).1
  have hextends : (Interner.empty.internAll (recordedTypes before)).Extends store := by
    rw [hstore, recordedTypes_append_singleton, Interner.internAll_append]
    exact Interner.extends_internAll _ _
  rcases run_spec isAssignable before hextends hclash with
    ⟨state, hrun, hstate⟩ | ⟨_, _, hconflict⟩
  · have hid : state.typeStore.idOf existing = store.idOf candidate := by
      rw [hstate.store, hstore]
      exact hshares
    have hstep := solveConstraint_skip isAssignable hstate hexisting hid
    -- the solver returns the merge before the candidate
    obtain ⟨solution, hfinish, htypes⟩ := hstate.finish
    have hsolve : solveCollectedGenericConstraints isAssignable
        (GenericConstraintSet.recordAll (before ++ [.typeVar name candidate])) = .ok solution := by
      rw [solve_recordAll, runEntries_append_singleton, hrun]
      show (solveConstraint isAssignable store state (.typeVar name (store.idOf candidate))).bind _
        = _
      rw [hstep]
      exact hfinish
    have hfold := hsolved solution hsolve name
    rw [htypes name, hexisting, foldedCandidates_append_typeVar, hexisting,
      Option.some.injEq] at hfold
    exact hfold.symm
  · exact absurd hconsistent hconflict

/-- Recorded in any order, the constraints are solved by folding the candidates of every
variable, after each of them, exactly if no candidate that would change the merge before it
shares its number. -/
theorem solvedByFolding_iff (entries : List Recorded) :
    (∀ before, before <+: entries → SolvedByFolding isAssignable before)
      ↔ NoIdClash isAssignable entries := by
  constructor
  · intro hsolved
    have hall : ∀ before, before <+: entries → NoIdClash isAssignable before := by
      intro before
      induction before using List.reverseRecOn with
      | nil =>
        intro _ before name candidate hinitial
        simp at hinitial
      | append_singleton before entry ih =>
        intro hbefore before' name candidate hinitial hconsistent existing hexisting hshares
        have hclash := ih ((List.prefix_append _ _).trans hbefore)
        rcases List.prefix_concat_iff.1 hinitial with heq | hinitial
        · -- the candidate is the last entry
          obtain ⟨rfl, hentry⟩ := List.append_inj' heq rfl
          obtain rfl : Recorded.typeVar name candidate = entry := by simpa using hentry
          exact merge_eq_of_sharesId isAssignable hclash (hsolved _ hbefore) hconsistent hexisting
            hshares
        · exact hclash before' name candidate hinitial hconsistent existing hexisting hshares
    exact hall entries List.prefix_rfl
  · intro hclash before hbefore solution hsolve name
    have hextends : (Interner.empty.internAll (recordedTypes before)).Extends
        (GenericConstraintSet.recordAll before).typeStore := by
      rw [(recordAll_spec before).1]
      exact Interner.Extends.refl _
    rw [solve_recordAll] at hsolve
    rcases run_spec isAssignable before hextends (hclash.of_prefix isAssignable hbefore) with
      ⟨state, hrun, hstate⟩ | ⟨_, hrun, _⟩
    · obtain ⟨solution', hfinish, htypes⟩ := hstate.finish
      rw [hrun] at hsolve
      obtain rfl : solution' = solution := Except.ok.inj (hfinish.symm.trans hsolve)
      exact htypes name
    · rw [hrun] at hsolve
      cases hsolve

end

/-! ## A shared number -/

/-- A pack with `int`, then the candidates `str` and `int` of a variable. -/
def packThenCandidates : List Recorded := [
  .typeVarTuple "Ts" { types := [.name "int"] },
  .typeVar "T" (.name "str"),
  .typeVar "T" (.name "int")]

/-- `str` is number 0 for the solver and `int` for the constraint set, so `int` is skipped. -/
theorem packThenCandidates_not_folded :
    ¬ SolvedByFolding (fun expected actual => decide (expected = actual)) packThenCandidates := by
  intro hsolved
  cases hsolve : solveCollectedGenericConstraints (fun expected actual => decide (expected = actual))
      (GenericConstraintSet.recordAll packThenCandidates) with
  | error stop =>
    have hok : (solveCollectedGenericConstraints
        (fun expected actual => decide (expected = actual))
        (GenericConstraintSet.recordAll packThenCandidates)).isOk = true := by decide
    rw [hsolve] at hok
    exact absurd hok (by simp [Except.isOk, Except.toBool])
  | ok solution =>
    have htype : (solveCollectedGenericConstraints
        (fun expected actual => decide (expected = actual))
        (GenericConstraintSet.recordAll packThenCandidates)).toOption.bind (·.types["T"]?)
          = some (.name "str") := by decide +kernel
    rw [hsolve] at htype
    have hfold : foldedCandidates (fun expected actual => decide (expected = actual)) "T"
        packThenCandidates = some (.union [.name "str", .name "int"]) := by decide
    have hfolded := hsolved solution hsolve "T"
    rw [hfold, show solution.types["T"]? = some (.name "str") from htype] at hfolded
    exact absurd hfolded (by decide)

end TypePython.Checking
