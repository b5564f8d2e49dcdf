import TypePython.Checking.GenericInference
import TypePython.Lib.LastEntry

/-!
# What inference binds

A solution is known by what it binds type variables and packs to. Merging keeps the bindings of
both sides where no parameter has two (`GenericSolution.Merges`); an annotation of names,
generics and tuples binds no parameters but its own (`inferFull_bindsOnly`).
-/

namespace TypePython.Checking

open Std
open TypePython.Lib
open TypePython.Lib.Text

/-! ## What a solution binds -/

inductive TypeParam where
  | typeVar (name : String)
  | typePack (name : String)
deriving DecidableEq

/-- What a type parameter is bound to. -/
inductive BoundTo where
  | type (ty : SemanticType)
  | pack (binding : TypePackBinding)

variable {name : String} {ty : SemanticType}

namespace GenericSolution

def bound (solution : GenericSolution) : TypeParam → Option BoundTo
  | .typeVar name => solution.types[name]?.map .type
  | .typePack name => solution.typePacks[name]?.map .pack

/-- A solution without parameter lists that binds no type parameters but these. -/
structure BindsOnly (solution : GenericSolution) (params : List TypeParam) : Prop where
  bound : ∀ param ∉ params, solution.bound param = none
  paramLists : ∀ name : String, solution.paramLists[name]? = none

/-- What one solution binds the other binds to the same. -/
def Extends (solution later : GenericSolution) : Prop :=
  ∀ param value, solution.bound param = some value → later.bound param = some value

/-- Two solutions put together, where no parameter has two bindings. -/
structure Merges (first second merged : GenericSolution) : Prop where
  bound : ∀ param, first.bound param = none ∨ second.bound param = none →
    merged.bound param = (second.bound param).or (first.bound param)
  paramLists : merged.paramLists = first.paramLists

theorem Extends.refl (solution : GenericSolution) : solution.Extends solution :=
  fun _ _ h => h

theorem Extends.trans {first second third : GenericSolution} (h : first.Extends second)
    (h' : second.Extends third) : first.Extends third :=
  fun param value hbound => h' param value (h param value hbound)

theorem Extends.types {solution later : GenericSolution} (h : solution.Extends later)
    (htype : solution.types[name]? = some ty) : later.types[name]? = some ty := by
  have hbound := h (.typeVar name) (.type ty) (by simp [bound, htype])
  simpa [bound] using hbound

theorem Extends.typePacks {solution later : GenericSolution} (h : solution.Extends later)
    {binding : TypePackBinding} (hpack : solution.typePacks[name]? = some binding) :
    later.typePacks[name]? = some binding := by
  have hbound := h (.typePack name) (.pack binding) (by simp [bound, hpack])
  simpa [bound] using hbound

theorem bindsOnly_empty (params : List TypeParam) : ({} : GenericSolution).BindsOnly params where
  bound := by
    intro param _
    cases param <;> simp [GenericSolution.bound]
  paramLists := by simp

theorem BindsOnly.mono {solution : GenericSolution} {params params' : List TypeParam}
    (h : solution.BindsOnly params) (hsub : params ⊆ params') : solution.BindsOnly params' where
  bound := fun param hparam => h.bound param fun hmem => hparam (hsub hmem)
  paramLists := h.paramLists

namespace Merges

variable {first second merged : GenericSolution} {params params' : List TypeParam}

theorem bindsOnly (h : Merges first second merged) (hfirst : first.BindsOnly params)
    (hsecond : second.BindsOnly params') : merged.BindsOnly (params ++ params') where
  bound := by
    intro param hparam
    rw [List.mem_append, not_or] at hparam
    have hnone := hfirst.bound param hparam.1
    rw [h.bound param (.inl hnone), hnone, hsecond.bound param hparam.2]
    rfl
  paramLists := by
    intro name
    rw [h.paramLists]
    exact hfirst.paramLists name

/-- Of two solutions for different parameters both are kept. -/
theorem extends_of_disjoint (h : Merges first second merged) (hfirst : first.BindsOnly params)
    (hsecond : second.BindsOnly params') (hdisjoint : params.Disjoint params') :
    first.Extends merged ∧ second.Extends merged := by
  have hone : ∀ param, first.bound param = none ∨ second.bound param = none := by
    intro param
    by_cases hparam : param ∈ params
    · right
      exact hsecond.bound param fun hmem => hdisjoint hparam hmem
    · left
      exact hfirst.bound param hparam
  constructor
  · intro param value hvalue
    rcases hone param with hnone | hnone
    · rw [hvalue] at hnone
      cases hnone
    · rw [h.bound param (.inr hnone), hnone, hvalue]
      rfl
  · intro param value hvalue
    rw [h.bound param (hone param), hvalue]
    rfl

end Merges

end GenericSolution

/-! ## Merging -/

section

variable {isAssignable : SemanticType → SemanticType → Bool}

theorem enters_mergeNestedType :
    Enters (fun (types : ExtTreeMap String SemanticType) name => types[name]?)
      fun types entry => some (mergeNestedType isAssignable types entry) where
  elsewhere := by
    intro types types' name value other h hname
    cases h
    unfold mergeNestedType
    split
    · split
      · rw [ExtTreeMap.getElem?_insert]
        simp [hname]
      · rfl
    · rw [ExtTreeMap.getElem?_insert]
      simp [hname]
  new := by
    intro types types' name value h hnone
    cases h
    unfold mergeNestedType
    rw [hnone]
    simp

theorem enters_mergeBranchType :
    Enters (fun (types : ExtTreeMap String SemanticType) name => types[name]?)
      fun types entry => some (mergeBranchType types entry) where
  elsewhere := by
    intro types types' name value other h hname
    cases h
    unfold mergeBranchType
    split
    · split
      · rfl
      · rw [ExtTreeMap.getElem?_insert]
        simp [hname]
    · rw [ExtTreeMap.getElem?_insert]
      simp [hname]
  new := by
    intro types types' name value h hnone
    cases h
    unfold mergeBranchType
    rw [hnone]
    simp

/-- Inserting a pack touches nothing but the packs. -/
theorem insertTypePackBinding_frame {solution solution' : GenericSolution}
    {binding : TypePackBinding} (h : insertTypePackBinding solution name binding = some solution') :
    solution'.types = solution.types ∧ solution'.paramLists = solution.paramLists := by
  unfold insertTypePackBinding at h
  split at h
  · split at h
    · cases h
      exact ⟨rfl, rfl⟩
    · obtain ⟨merged, -, hmerged⟩ := Option.bind_eq_some_iff.1 h
      cases hmerged
      exact ⟨rfl, rfl⟩
  · cases h
    exact ⟨rfl, rfl⟩

theorem enters_insertTypePackBinding :
    Enters (fun (solution : GenericSolution) name => solution.typePacks[name]?)
      fun solution (entry : String × TypePackBinding) =>
        insertTypePackBinding solution entry.1 entry.2 where
  elsewhere := by
    intro solution solution' name value other h hname
    unfold insertTypePackBinding at h
    split at h
    · split at h
      · cases h
        rfl
      · obtain ⟨merged, -, hmerged⟩ := Option.bind_eq_some_iff.1 h
        cases hmerged
        simp [ExtTreeMap.getElem?_insert, hname]
    · cases h
      simp [ExtTreeMap.getElem?_insert, hname]
  new := by
    intro solution solution' name value h hnone
    unfold insertTypePackBinding at h
    rw [hnone] at h
    cases h
    simp

theorem insertTypePackBindings_frame {solution solution' : GenericSolution}
    {packs : List (String × TypePackBinding)}
    (h : insertTypePackBindings solution packs = some solution') :
    solution'.types = solution.types ∧ solution'.paramLists = solution.paramLists := by
  unfold insertTypePackBindings at h
  induction packs generalizing solution with
  | nil =>
    rw [List.foldlM_nil] at h
    cases h
    exact ⟨rfl, rfl⟩
  | cons entry rest ih =>
    rw [List.foldlM_cons] at h
    obtain ⟨middle, hmiddle, hrest⟩ := Option.bind_eq_some_iff.1 h
    obtain ⟨htypes, hlists⟩ := insertTypePackBinding_frame hmiddle
    obtain ⟨htypes', hlists'⟩ := ih hrest
    exact ⟨htypes'.trans htypes, hlists'.trans hlists⟩

theorem nodup_keys {β : Type} (table : ExtTreeMap String β) :
    (table.toList.map Prod.fst).Nodup := by
  have hkeys := table.distinct_keys_toList
  rw [List.Nodup, List.pairwise_map]
  exact hkeys.imp fun hne heq => hne (Std.compare_eq_iff_eq.2 heq)

/-- Types entered one way or the other, then packs. -/
theorem merges_of_enters {mergeType : ExtTreeMap String SemanticType → String × SemanticType →
      ExtTreeMap String SemanticType}
    (hstep : Enters (fun (types : ExtTreeMap String SemanticType) name => types[name]?)
      fun types entry => some (mergeType types entry))
    {first second merged : GenericSolution}
    (h : insertTypePackBindings
      { first with types := second.types.toList.foldl mergeType first.types }
      second.typePacks.toList = some merged) :
    GenericSolution.Merges first second merged := by
  obtain ⟨htypes, hlists⟩ := insertTypePackBindings_frame h
  refine ⟨?_, hlists⟩
  intro param hone
  cases param with
  | typeVar name =>
    have hfold : second.types.toList.foldlM (fun types entry => some (mergeType types entry))
        first.types = some (second.types.toList.foldl mergeType first.types) :=
      List.foldlM_pure
    have hlook := hstep.look_foldlM (nodup_keys _) hfold (k := name) (by
      rw [lastEntry_toList]
      simpa [GenericSolution.bound] using hone)
    rw [lastEntry_toList] at hlook
    simp only [GenericSolution.bound]
    rw [htypes, hlook, Option.map_or]
  | typePack name =>
    have hlook := enters_insertTypePackBinding.look_foldlM (nodup_keys _) h (k := name) (by
      rw [lastEntry_toList]
      simpa [GenericSolution.bound] using hone)
    rw [lastEntry_toList] at hlook
    simp only [GenericSolution.bound]
    rw [hlook, Option.map_or]

theorem merges_mergeNested {inferred nested merged : GenericSolution}
    (h : mergeNestedGenericBindings isAssignable inferred nested = some merged) :
    GenericSolution.Merges inferred nested merged :=
  merges_of_enters enters_mergeNestedType h

theorem merges_mergeUnionBranch {merged candidate merged' : GenericSolution}
    (h : mergeUnionBranchBinding merged candidate = some merged') :
    GenericSolution.Merges merged candidate merged' :=
  merges_of_enters enters_mergeBranchType h

end

/-! ## Annotations -/

/-- A list of arguments with at most one that unpacks a type pack. -/
inductive ArgsOf (names : GenericNames) (Arg : SemanticType → Prop) : List SemanticType → Prop where
  | fixed {args : List SemanticType} (hargs : ∀ arg ∈ args, Arg arg) : ArgsOf names Arg args
  | pack {before after : List SemanticType} {text pack : String} (hbefore : ∀ arg ∈ before, Arg arg)
      (hafter : ∀ arg ∈ after, Arg arg) (hpack : names.isTypePack (.name text) = some pack) :
      ArgsOf names Arg (before ++ .unpack (.name text) :: after)

/-- An annotation of names, generics and tuples. `Optional` makes a union. -/
inductive Template (names : GenericNames) : SemanticType → Prop where
  | name (name : String) : Template names (.name name)
  | generic {head : String} {args : List SemanticType} (hhead : head ≠ "Optional")
      (hargs : ArgsOf names (Template names) args) : Template names (.generic head args)

mutual

/-- The type parameters of an annotation, from the left. -/
def typeParamsOf (names : GenericNames) : SemanticType → List TypeParam
  | .name name => if name ∈ names.genericNames then [.typeVar name] else []
  | .generic _ args => typeParamsOfAll names args
  | .unpack inner => (names.isTypePack inner).toList.map .typePack
  | .callable _ _ => []
  | .union _ => []
  | .annotated _ _ => []

def typeParamsOfAll (names : GenericNames) : List SemanticType → List TypeParam
  | [] => []
  | ty :: rest => typeParamsOf names ty ++ typeParamsOfAll names rest

end

variable {args : List SemanticType}

section

variable {names : GenericNames}

@[simp] theorem typeParamsOfAll_append (left right : List SemanticType) :
    typeParamsOfAll names (left ++ right)
      = typeParamsOfAll names left ++ typeParamsOfAll names right := by
  induction left with
  | nil => rfl
  | cons ty rest ih => simp only [List.cons_append, typeParamsOfAll, ih, List.append_assoc]

theorem Template.unpackedInner (h : Template names ty) : ty.unpackedInner = none := by
  cases h <;> rfl

theorem Template.severalBranches (h : Template names ty) : severalBranches ty = none := by
  have hbranches : semanticUnionBranches ty = none := by
    cases h with
    | name name => rfl
    | generic hhead hargs =>
      unfold semanticUnionBranches
      simp only [SemanticType.stripAnnotated]
      split
      · rename_i heq
        cases heq
      · rename_i heq
        cases heq
        exact absurd rfl hhead
      · rfl
  rw [TypePython.Checking.severalBranches, hbranches]
  rfl

/-- Arguments without unpacked ones stay as they are. -/
theorem expandInferred_of_forall (h : ∀ arg ∈ args, arg.unpackedInner = none) :
    expandInferredGenericArgs names args = args := by
  unfold expandInferredGenericArgs
  induction args with
  | nil => rfl
  | cons arg rest ih =>
    rw [List.flatMap_cons, ih fun other hother => h other (List.mem_cons_of_mem _ hother)]
    simp only [h arg List.mem_cons_self]
    rfl

theorem expandInferred_append (left right : List SemanticType) :
    expandInferredGenericArgs names (left ++ right)
      = expandInferredGenericArgs names left ++ expandInferredGenericArgs names right :=
  List.flatMap_append

theorem expandInferred_pack {text pack : String} (hpack : names.isTypePack (.name text) = some pack) :
    expandInferredGenericArgs names [.unpack (.name text)] = [.unpack (.name text)] := by
  simp [expandInferredGenericArgs, SemanticType.unpackedInner, SemanticType.stripAnnotated, hpack]

theorem ArgsOf.expandInferred (h : ArgsOf names (Template names) args) :
    expandInferredGenericArgs names args = args := by
  cases h with
  | fixed hargs => exact expandInferred_of_forall fun arg harg => (hargs arg harg).unpackedInner
  | pack hbefore hafter hpack =>
    rw [← List.singleton_append, expandInferred_append, expandInferred_append,
      expandInferred_pack hpack,
      expandInferred_of_forall fun arg harg => (hbefore arg harg).unpackedInner,
      expandInferred_of_forall fun arg harg => (hafter arg harg).unpackedInner]

/-- What `expectedTypePackIndex` reads off each argument. -/
theorem filterMap_pack_eq_nil (start : Nat) (h : ∀ arg ∈ args, arg.unpackedInner = none) :
    (args.zipIdx start).filterMap (fun (arg, index) =>
      (arg.unpackedInner.bind names.isTypePack).map fun name => (index, name)) = [] := by
  rw [List.filterMap_eq_nil_iff]
  rintro ⟨arg, index⟩ hmem
  simp only
  rw [h arg (List.fst_mem_of_mem_zipIdx hmem)]
  rfl

theorem expectedTypePackIndex_fixed (h : ∀ arg ∈ args, Template names arg) :
    expectedTypePackIndex names args = none := by
  unfold expectedTypePackIndex
  simp only
  rw [filterMap_pack_eq_nil 0 fun arg harg => (h arg harg).unpackedInner]

theorem expectedTypePackIndex_pack {before after : List SemanticType} {text pack : String}
    (hbefore : ∀ arg ∈ before, Template names arg) (hafter : ∀ arg ∈ after, Template names arg)
    (hpack : names.isTypePack (.name text) = some pack) :
    expectedTypePackIndex names (before ++ .unpack (.name text) :: after)
      = some (before.length, pack) := by
  unfold expectedTypePackIndex
  simp only
  rw [List.zipIdx_append, List.filterMap_append,
    filterMap_pack_eq_nil 0 fun arg harg => (hbefore arg harg).unpackedInner,
    List.zipIdx_cons, List.filterMap_cons,
    filterMap_pack_eq_nil _ fun arg harg => (hafter arg harg).unpackedInner]
  simp [SemanticType.unpackedInner, SemanticType.stripAnnotated, hpack]

theorem mem_typeParamsOfAll {param : TypeParam} {arg : SemanticType} (harg : arg ∈ args)
    (hparam : param ∈ typeParamsOf names arg) : param ∈ typeParamsOfAll names args := by
  induction args with
  | nil => cases harg
  | cons first rest ih =>
    simp only [typeParamsOfAll, List.mem_append]
    rcases List.mem_cons.1 harg with rfl | hrest
    · exact .inl hparam
    · exact .inr (ih hrest)

theorem nodup_typeParamsOf {arg : SemanticType} (harg : arg ∈ args)
    (hdistinct : (typeParamsOfAll names args).Nodup) : (typeParamsOf names arg).Nodup := by
  induction args with
  | nil => cases harg
  | cons first rest ih =>
    simp only [typeParamsOfAll, List.nodup_append] at hdistinct
    rcases List.mem_cons.1 harg with rfl | hrest
    · exact hdistinct.1
    · exact ih hrest hdistinct.2.1

end

/-! ## How the arguments are split -/

variable {start final : GenericSolution}

section

variable {isAssignable : SemanticType → SemanticType → Bool} {names : GenericNames}
  {infer : SemanticType → SemanticType → Option GenericSolution}
  {actualArgs : List SemanticType} {solution : GenericSolution}

theorem inferArgs_fixed (hargs : ∀ arg ∈ args, Template names arg)
    (h : inferGenericTypeArgBindings isAssignable names infer args actualArgs = some solution) :
    args.length = (expandInferredGenericArgs names actualArgs).length
      ∧ inferPairs isAssignable infer {} (args.zip (expandInferredGenericArgs names actualArgs))
          = some solution := by
  unfold inferGenericTypeArgBindings at h
  simp only [(ArgsOf.fixed hargs).expandInferred, expectedTypePackIndex_fixed hargs] at h
  split at h
  · cases h
  · rename_i hlength
    exact ⟨not_not.1 hlength, h⟩

/-- The arguments around those of the pack are inferred from one by one. -/
theorem inferArgs_pack {before after : List SemanticType} {text pack : String}
    (hbefore : ∀ arg ∈ before, Template names arg) (hafter : ∀ arg ∈ after, Template names arg)
    (hpack : names.isTypePack (.name text) = some pack)
    (h : inferGenericTypeArgBindings isAssignable names infer
      (before ++ .unpack (.name text) :: after) actualArgs = some solution) :
    ∃ xs ys zs first second, expandInferredGenericArgs names actualArgs = xs ++ (ys ++ zs)
      ∧ xs.length = before.length ∧ zs.length = after.length
      ∧ inferPairs isAssignable infer {} (before.zip xs) = some first
      ∧ insertTypePackBinding first pack { types := ys } = some second
      ∧ inferPairs isAssignable infer second (after.zip zs) = some solution := by
  unfold inferGenericTypeArgBindings at h
  simp only [(ArgsOf.pack hbefore hafter hpack).expandInferred,
    expectedTypePackIndex_pack hbefore hafter hpack] at h
  generalize expandInferredGenericArgs names actualArgs = actual at h ⊢
  have hsuffix : (before ++ SemanticType.unpack (.name text) :: after).length - (before.length + 1)
      = after.length := by
    simp only [List.length_append, List.length_cons]
    omega
  have htake : (before ++ SemanticType.unpack (.name text) :: after).take before.length = before :=
    List.take_left
  have hdrop : (before ++ SemanticType.unpack (.name text) :: after).drop (before.length + 1)
      = after := by
    rw [← List.drop_drop, List.drop_left]
    rfl
  simp only [hsuffix, htake, hdrop] at h
  split at h
  · cases h
  · rename_i hlength
    obtain ⟨first, hfirst, h⟩ := Option.bind_eq_some_iff.1 h
    obtain ⟨second, hsecond, h⟩ := Option.bind_eq_some_iff.1 h
    refine ⟨_, _, _, first, second, ?_, ?_, ?_, hfirst, hsecond, h⟩
    · have hinside : actual.take before.length
          = (actual.take (actual.length - after.length)).take before.length := by
        rw [List.take_take, Nat.min_eq_left (by omega)]
      rw [hinside, ← List.append_assoc, List.take_append_drop, List.take_append_drop]
    · rw [List.length_take]
      omega
    · rw [List.length_drop]
      omega

theorem inferPairs_cons {expected actual : SemanticType}
    {pairs : List (SemanticType × SemanticType)}
    (h : inferPairs isAssignable infer start ((expected, actual) :: pairs) = some final) :
    ∃ nested merged, infer expected actual = some nested
      ∧ mergeNestedGenericBindings isAssignable start nested = some merged
      ∧ inferPairs isAssignable infer merged pairs = some final := by
  unfold inferPairs at h
  rw [List.foldlM_cons] at h
  obtain ⟨merged, hmerged, hrest⟩ := Option.bind_eq_some_iff.1 h
  obtain ⟨nested, hnested, hmerged⟩ := Option.bind_eq_some_iff.1 hmerged
  exact ⟨nested, merged, hnested, hmerged, hrest⟩

theorem merges_insertTypePackBinding {binding : TypePackBinding}
    (h : insertTypePackBinding start name binding = some final) : GenericSolution.Merges start
      { typePacks := (∅ : ExtTreeMap String TypePackBinding).insert name binding } final := by
  obtain ⟨htypes, hlists⟩ := insertTypePackBinding_frame h
  refine ⟨?_, hlists⟩
  intro param hone
  cases param with
  | typeVar other => simp [GenericSolution.bound, htypes]
  | typePack other =>
    simp only [GenericSolution.bound, ExtTreeMap.getElem?_insert] at hone ⊢
    by_cases hname : name = other
    · rw [← hname] at hone ⊢
      have hfresh : start.typePacks[name]? = none := by simpa using hone
      have hnew : final.typePacks[name]? = some binding :=
        enters_insertTypePackBinding.new h hfresh
      rw [hnew]
      simp
    · have hsame : final.typePacks[other]? = start.typePacks[other]? :=
        enters_insertTypePackBinding.elsewhere h hname
      rw [hsame]
      simp [hname]

theorem bindsOnly_pack (name : String) (binding : TypePackBinding) :
    GenericSolution.BindsOnly
      { typePacks := (∅ : ExtTreeMap String TypePackBinding).insert name binding }
      [.typePack name] where
  bound := by
    intro param hparam
    rw [List.mem_singleton] at hparam
    cases param with
    | typeVar other => simp [GenericSolution.bound]
    | typePack other =>
      have hname : name ≠ other := fun heq => hparam (heq ▸ rfl)
      simp [GenericSolution.bound, hname]
  paramLists := by simp

theorem bindsOnly_boundType (name : String) (ty : SemanticType) :
    (boundType name ty).BindsOnly [.typeVar name] where
  bound := by
    intro param hparam
    rw [List.mem_singleton] at hparam
    cases param with
    | typePack other => simp [GenericSolution.bound, boundType]
    | typeVar other =>
      have hname : name ≠ other := fun heq => hparam (heq ▸ rfl)
      simp [GenericSolution.bound, boundType, hname]
  paramLists := by simp [boundType]

/-! ## An annotation binds its own parameters -/

/-- What is inferred from a pair of annotation and type binds parameters of the annotation. -/
def InfersOwn (names : GenericNames) (infer : SemanticType → SemanticType → Option GenericSolution) :
    Prop :=
  ∀ declared actual solution, Template names declared →
    infer declared actual = some solution →
      solution.BindsOnly (typeParamsOf names declared)

theorem inferPairs_bindsOnly (hinfer : InfersOwn names infer)
    {expected actual : List SemanticType} (hexpected : ∀ arg ∈ expected, Template names arg)
    {params : List TypeParam} (hstart : start.BindsOnly params)
    (h : inferPairs isAssignable infer start (expected.zip actual) = some final) :
    final.BindsOnly (params ++ typeParamsOfAll names expected) := by
  induction expected generalizing actual params start with
  | nil =>
    cases h
    exact hstart.mono (List.subset_append_left _ _)
  | cons arg rest ih =>
    cases actual with
    | nil =>
      cases h
      exact hstart.mono (List.subset_append_left _ _)
    | cons found others =>
      obtain ⟨nested, merged, hnested, hmerged, hrest⟩ := inferPairs_cons h
      have hown := hinfer arg found nested (hexpected arg List.mem_cons_self) hnested
      have hbinds := (merges_mergeNested hmerged).bindsOnly hstart hown
      have hfinal := ih (fun other hother => hexpected other (List.mem_cons_of_mem _ hother))
        hbinds hrest
      rw [List.append_assoc] at hfinal
      exact hfinal

theorem inferArgs_bindsOnly (hinfer : InfersOwn names infer)
    (hargs : ArgsOf names (Template names) args)
    (h : inferGenericTypeArgBindings isAssignable names infer args actualArgs = some solution) :
    solution.BindsOnly (typeParamsOfAll names args) := by
  cases hargs with
  | fixed hargs =>
    obtain ⟨-, hpairs⟩ := inferArgs_fixed hargs h
    exact inferPairs_bindsOnly hinfer hargs (GenericSolution.bindsOnly_empty []) hpairs
  | pack hbefore hafter hpack =>
    obtain ⟨xs, ys, zs, first, second, -, -, -, hfirst, hsecond, hthird⟩ :=
      inferArgs_pack hbefore hafter hpack h
    have hfirst := inferPairs_bindsOnly hinfer hbefore (GenericSolution.bindsOnly_empty []) hfirst
    have hsecond := (merges_insertTypePackBinding hsecond).bindsOnly hfirst (bindsOnly_pack _ _)
    have hthird := inferPairs_bindsOnly hinfer hafter hsecond hthird
    rw [List.nil_append, List.append_assoc] at hthird
    simpa [typeParamsOfAll, typeParamsOf, hpack] using hthird

theorem mergeUnionBranches_bindsOnly {params : List TypeParam} {candidates : List GenericSolution}
    (hcandidates : ∀ candidate ∈ candidates, candidate.BindsOnly params)
    (h : mergeUnionBranchBindings candidates = some solution) : solution.BindsOnly params := by
  have hrun : ∀ {start final : GenericSolution}, start.BindsOnly params →
      candidates.foldlM mergeUnionBranchBinding start = some final → final.BindsOnly params := by
    clear h
    induction candidates with
    | nil =>
      intro start final hstart hfold
      cases hfold
      exact hstart
    | cons candidate rest ih =>
      intro start final hstart hfold
      rw [List.foldlM_cons] at hfold
      obtain ⟨merged, hmerged, hrest⟩ := Option.bind_eq_some_iff.1 hfold
      have hbinds := (merges_mergeUnionBranch hmerged).bindsOnly hstart
        (hcandidates candidate List.mem_cons_self)
      exact ih (fun other hother => hcandidates other (List.mem_cons_of_mem _ hother))
        (hbinds.mono (List.append_subset.2 ⟨List.Subset.refl _, List.Subset.refl _⟩)) hrest
  exact hrun (GenericSolution.bindsOnly_empty params) h

variable {substitutions : GenericSolution}

theorem typeParam_eq_some (h : names.typeParam ty = some name) :
    ty = .name name ∧ name ∈ names.genericNames := by
  unfold GenericNames.typeParam at h
  split at h
  · split at h
    · rename_i hmem
      cases h
      exact ⟨rfl, hmem⟩
    · cases h
  · cases h

theorem inferStep_bindsOnly (hinfer : InfersOwn names infer) :
    InfersOwn names (inferStep isAssignable names substitutions infer) := by
  intro declared actual solution hdeclared h
  unfold inferStep at h
  split at h
  · cases h
    exact GenericSolution.bindsOnly_empty _
  · split at h
    · rename_i name hname
      obtain ⟨rfl, hmem⟩ := typeParam_eq_some hname
      cases h
      simp only [typeParamsOf, hmem, if_true]
      exact bindsOnly_boundType _ _
    · rw [hdeclared.severalBranches] at h
      rcases hbranches : severalBranches actual with _ | branches
      · -- neither is a union
        rw [hbranches] at h
        simp only at h
        unfold inferGenericTypeParamBindingsSemantic at h
        have hunlike : ∀ {test : Bool}, (if test = true then some ({} : GenericSolution) else none)
            = some solution → solution.BindsOnly (typeParamsOf names declared) := by
          intro test htest
          split at htest
          · cases htest
            exact GenericSolution.bindsOnly_empty _
          · cases htest
        simp only at h
        split at h
        · rename_i head args _ actualArgs hparts _
          split at h
          · cases hdeclared with
            | name name => cases hparts
            | generic hhead hargs =>
              cases hparts
              exact inferArgs_bindsOnly hinfer hargs h
          · exact hunlike h
        · exact hunlike h
      · rw [hbranches] at h
        simp only at h
        obtain ⟨candidates, hcandidates, hmerge⟩ := Option.bind_eq_some_iff.1 h
        refine mergeUnionBranches_bindsOnly ?_ hmerge
        intro candidate hmem
        obtain ⟨branch, -, hbranch⟩ := (mapM_spec hcandidates candidate).1 hmem
        unfold inferBranch at hbranch
        obtain ⟨inferred, hinferred, hbranch⟩ := Option.bind_eq_some_iff.1 hbranch
        simp only at hbranch
        split at hbranch
        · cases hbranch
          exact hinfer declared branch _ hdeclared hinferred
        · cases hbranch

/-- An annotation binds no parameters but its own. -/
theorem inferBindings_bindsOnly (fuel : Nat) :
    InfersOwn names (inferBindings isAssignable names substitutions fuel) := by
  induction fuel with
  | zero =>
    intro declared actual solution _ h
    cases h
  | succ fuel ih => exact inferStep_bindsOnly ih

theorem inferFull_bindsOnly :
    InfersOwn names (inferGenericTypeParamBindingsFull isAssignable names substitutions) :=
  fun declared actual => inferBindings_bindsOnly _ declared actual

end

end TypePython.Checking
