import TypePython.Checking.Assignability
import TypePython.Checking.InferredBindings

/-!
# Substituting what was inferred

The bindings inferred from an annotation and a type are put back into the annotation. Where the
type has the shape of the annotation (`Fits`) it comes out again, up to the unpacked fixed tuples
among its arguments (`Alike`).

* `recovered`: one annotation;
* `inferredArgs_recovered`: a list of arguments, with the run of arguments its pack takes.
-/

namespace TypePython.Checking

open Std
open TypePython.Lib
open TypePython.Lib.Text

mutual

/-- A type has the shape of an annotation: a type variable meets any type that is not blank, a
pack any run of arguments, another name itself, and a generic one with the same head. -/
inductive Fits (names : GenericNames) : SemanticType → SemanticType → Prop where
  | typeVar {name : String} {actual : SemanticType} (hname : name ∈ names.genericNames)
      (hactual : actual ≠ .name "") : Fits names (.name name) actual
  | name {name : String} (hname : name ∉ names.genericNames) : Fits names (.name name) (.name name)
  | generic {head : String} {args actualArgs : List SemanticType}
      (hargs : FitsArgs names args (expandInferredGenericArgs names actualArgs)) :
      Fits names (.generic head args) (.generic head actualArgs)

inductive FitsArgs (names : GenericNames) : List SemanticType → List SemanticType → Prop where
  | nil : FitsArgs names [] []
  | cons {arg actual : SemanticType} {args actualArgs : List SemanticType}
      (harg : Fits names arg actual) (hargs : FitsArgs names args actualArgs) :
      FitsArgs names (arg :: args) (actual :: actualArgs)
  | pack {text : String} {args taken actualArgs : List SemanticType}
      (hargs : FitsArgs names args actualArgs) :
      FitsArgs names (.unpack (.name text) :: args) (taken ++ actualArgs)

end

/-- The same type, once the unpacked fixed tuples among the arguments of the second are taken
as their elements. -/
inductive Alike (names : GenericNames) : SemanticType → SemanticType → Prop where
  | same (ty : SemanticType) : Alike names ty ty
  | generic {head : String} {args actualArgs : List SemanticType}
      (hargs : List.Forall₂ (Alike names) args (expandInferredGenericArgs names actualArgs)) :
      Alike names (.generic head args) (.generic head actualArgs)

variable {actualArgs args before after : List SemanticType} {text : String}

section

variable {names : GenericNames} {solution : GenericSolution}

/-! ## Substitution -/

/-- A solution without parameter lists in which no names but type variables have types. -/
structure GenericSolution.For (solution : GenericSolution) (names : GenericNames) : Prop where
  types : ∀ name ∉ names.genericNames, solution.types[name]? = none
  paramLists : ∀ name : String, solution.paramLists[name]? = none

mutual

theorem mem_genericNames_of_typeVar {name : String} : ∀ ty : SemanticType,
    .typeVar name ∈ typeParamsOf names ty → name ∈ names.genericNames
  | .name text, h => by
    rw [typeParamsOf] at h
    split at h
    · rename_i hmem
      cases List.mem_singleton.1 h
      exact hmem
    · cases h
  | .generic _ args, h => mem_genericNames_of_typeVarAll args h
  | .unpack inner, h => by
    rw [typeParamsOf] at h
    rcases List.mem_map.1 h with ⟨pack, -, heq⟩
    cases heq
  | .callable _ _, h => by cases h
  | .union _, h => by cases h
  | .annotated _ _, h => by cases h

theorem mem_genericNames_of_typeVarAll {name : String} : ∀ types : List SemanticType,
    .typeVar name ∈ typeParamsOfAll names types → name ∈ names.genericNames
  | [], h => by cases h
  | ty :: rest, h => by
    rw [typeParamsOfAll, List.mem_append] at h
    rcases h with h | h
    · exact mem_genericNames_of_typeVar ty h
    · exact mem_genericNames_of_typeVarAll rest h

end

theorem GenericSolution.BindsOnly.for_names (h : solution.BindsOnly (typeParamsOfAll names args)) :
    solution.For names where
  types := by
    intro name hname
    have hnone := h.bound (.typeVar name) fun hmem => hname (mem_genericNames_of_typeVarAll args hmem)
    simpa [GenericSolution.bound] using hnone
  paramLists := h.paramLists

theorem paramListOf_eq_none (hsolution : solution.For names) (ty : SemanticType) :
    solution.paramListOf ty = none := by
  cases ty with
  | name name => exact hsolution.paramLists _
  | _ => rfl

theorem expandSubstituted_append (left right : List SemanticType) :
    expandSubstitutedSemanticGenericArgs solution (left ++ right)
      = expandSubstitutedSemanticGenericArgs solution left
        ++ expandSubstitutedSemanticGenericArgs solution right := by
  induction left with
  | nil => rfl
  | cons arg rest ih =>
    rw [List.cons_append]
    simp only [expandSubstitutedSemanticGenericArgs]
    rw [ih, List.append_assoc]

theorem expandSubstituted_cons (hsolution : solution.For names) {arg : SemanticType}
    (harg : Template names arg) (rest : List SemanticType) :
    expandSubstitutedSemanticGenericArgs solution (arg :: rest)
      = substituteSemanticTypeParams solution arg
        :: expandSubstitutedSemanticGenericArgs solution rest := by
  simp only [expandSubstitutedSemanticGenericArgs]
  rw [paramListOf_eq_none hsolution]
  unfold unpackedSemanticArgs
  rw [harg.unpackedInner]
  rfl

theorem expandSubstituted_pack (hsolution : solution.For names) {pack : String}
    {taken rest : List SemanticType} (hpack : names.isTypePack (.name text) = some pack)
    (htaken : solution.typePacks[pack]? = some { types := taken }) :
    expandSubstitutedSemanticGenericArgs solution (.unpack (.name text) :: rest)
      = taken ++ expandSubstitutedSemanticGenericArgs solution rest := by
  have htext : String.ofList (trim text.toList) = pack := by
    unfold GenericNames.isTypePack at hpack
    simp only at hpack
    split at hpack
    · exact Option.some.inj hpack
    · cases hpack
  have hargs : unpackedSemanticArgs solution (.unpack (.name text)) = some taken := by
    simp [unpackedSemanticArgs, SemanticType.unpackedInner, SemanticType.stripAnnotated,
      GenericSolution.typePackOf, htext, htaken, TypePackBinding.expanded]
  simp only [expandSubstitutedSemanticGenericArgs]
  rw [paramListOf_eq_none hsolution, hargs]

/-! ## What each argument contributes -/

variable {isAssignable : SemanticType → SemanticType → Bool}
  {infer : SemanticType → SemanticType → Option GenericSolution}

/-- What is inferred from an argument of the annotation and one of the type is part of a
solution. -/
def ContributesTo (infer : SemanticType → SemanticType → Option GenericSolution)
    (solution : GenericSolution) (expected actual : SemanticType) : Prop :=
  ∃ nested, infer expected actual = some nested ∧ nested.Extends solution

theorem inferPairs_contribute (hinfer : InfersOwn names infer) {expected actual : List SemanticType}
    (hexpected : ∀ arg ∈ expected, Template names arg) (hlength : expected.length = actual.length)
    {params : List TypeParam} {start final : GenericSolution} (hstart : start.BindsOnly params)
    (hdistinct : (params ++ typeParamsOfAll names expected).Nodup)
    (h : inferPairs isAssignable infer start (expected.zip actual) = some final) :
    start.Extends final ∧ List.Forall₂ (ContributesTo infer final) expected actual := by
  induction expected generalizing actual params start with
  | nil =>
    cases h
    rw [List.length_eq_zero_iff.1 hlength.symm]
    exact ⟨.refl _, .nil⟩
  | cons arg rest ih =>
    cases actual with
    | nil => cases hlength
    | cons found others =>
      obtain ⟨nested, merged, hnested, hmerged, hrest⟩ := inferPairs_cons h
      have hown := hinfer arg found nested (hexpected arg List.mem_cons_self) hnested
      have hmerges := merges_mergeNested hmerged
      rw [typeParamsOfAll, ← List.append_assoc] at hdistinct
      have hdisjoint : params.Disjoint (typeParamsOf names arg) :=
        List.disjoint_of_nodup_append (List.nodup_append.1 hdistinct).1
      obtain ⟨hstartExt, hnestedExt⟩ := hmerges.extends_of_disjoint hstart hown hdisjoint
      obtain ⟨hext, hall⟩ := ih (fun other hother => hexpected other (List.mem_cons_of_mem _ hother))
        (Nat.succ.inj hlength) (hmerges.bindsOnly hstart hown) hdistinct hrest
      exact ⟨hstartExt.trans hext, .cons ⟨nested, hnested, hnestedExt.trans hext⟩ hall⟩

theorem inferArgs_fixed_contribute (hinfer : InfersOwn names infer)
    (hargs : ∀ arg ∈ args, Template names arg) (hdistinct : (typeParamsOfAll names args).Nodup)
    (h : inferGenericTypeArgBindings isAssignable names infer args actualArgs = some solution) :
    List.Forall₂ (ContributesTo infer solution) args
      (expandInferredGenericArgs names actualArgs) := by
  obtain ⟨hlength, hpairs⟩ := inferArgs_fixed hargs h
  exact (inferPairs_contribute hinfer hargs hlength (GenericSolution.bindsOnly_empty [])
    (by simpa using hdistinct) hpairs).2

/-- The arguments of the type are those before the pack, those it takes and those after it. -/
theorem inferArgs_pack_contribute (hinfer : InfersOwn names infer) {pack : String}
    (hbefore : ∀ arg ∈ before, Template names arg) (hafter : ∀ arg ∈ after, Template names arg)
    (hpack : names.isTypePack (.name text) = some pack)
    (hdistinct : (typeParamsOfAll names (before ++ .unpack (.name text) :: after)).Nodup)
    (h : inferGenericTypeArgBindings isAssignable names infer
      (before ++ .unpack (.name text) :: after) actualArgs = some solution) :
    ∃ xs ys zs, expandInferredGenericArgs names actualArgs = xs ++ (ys ++ zs)
      ∧ List.Forall₂ (ContributesTo infer solution) before xs
      ∧ solution.typePacks[pack]? = some { types := ys }
      ∧ List.Forall₂ (ContributesTo infer solution) after zs := by
  obtain ⟨xs, ys, zs, first, second, hsplit, hxs, hzs, hfirst, hsecond, hthird⟩ :=
    inferArgs_pack hbefore hafter hpack h
  have hparams : typeParamsOfAll names (before ++ .unpack (.name text) :: after)
      = typeParamsOfAll names before ++ ([.typePack pack] ++ typeParamsOfAll names after) := by
    simp [typeParamsOfAll, typeParamsOf, hpack]
  rw [hparams] at hdistinct
  have hempty := GenericSolution.bindsOnly_empty []
  have hbindsFirst := inferPairs_bindsOnly hinfer hbefore hempty hfirst
  rw [List.nil_append] at hbindsFirst
  have hmerges := merges_insertTypePackBinding hsecond
  have hbindsSecond := hmerges.bindsOnly hbindsFirst (bindsOnly_pack _ _)
  obtain ⟨hnodupBefore, -, hdisjoint⟩ := List.nodup_append.1 hdistinct
  have hdisjointPack : (typeParamsOfAll names before).Disjoint [.typePack pack] := by
    intro param hmem hone
    exact hdisjoint param hmem param (List.mem_append_left _ hone) rfl
  obtain ⟨hextFirst, hextPack⟩ :=
    hmerges.extends_of_disjoint hbindsFirst (bindsOnly_pack _ _) hdisjointPack
  rw [← List.append_assoc] at hdistinct
  obtain ⟨-, hcontributeFirst⟩ := inferPairs_contribute hinfer hbefore hxs.symm hempty
    (by simpa using hnodupBefore) hfirst
  obtain ⟨hextSecond, hcontributeAfter⟩ :=
    inferPairs_contribute hinfer hafter hzs.symm hbindsSecond hdistinct hthird
  refine ⟨xs, ys, zs, hsplit, ?_, ?_, hcontributeAfter⟩
  · refine hcontributeFirst.imp ?_
    rintro expected actual ⟨nested, hnested, hext⟩
    exact ⟨nested, hnested, (hext.trans hextFirst).trans hextSecond⟩
  · exact (hextPack.trans hextSecond).typePacks (by simp)

/-! ## The shape of the annotation -/

theorem FitsArgs.forall₂ (h : FitsArgs names args actualArgs)
    (hargs : ∀ arg ∈ args, Template names arg) : List.Forall₂ (Fits names) args actualArgs := by
  induction args generalizing actualArgs with
  | nil =>
    cases h
    exact .nil
  | cons arg rest ih =>
    have hrest := fun other hother => hargs other (List.mem_cons_of_mem _ hother)
    cases h with
    | cons harg hfits => exact .cons harg (ih hfits hrest)
    | pack hfits => exact absurd (hargs _ List.mem_cons_self).unpackedInner (by
        simp [SemanticType.unpackedInner, SemanticType.stripAnnotated])

theorem FitsArgs.append {rest : List SemanticType}
    (h : FitsArgs names (before ++ rest) actualArgs)
    (hbefore : ∀ arg ∈ before, Template names arg) :
    ∃ xs others, actualArgs = xs ++ others ∧ List.Forall₂ (Fits names) before xs
      ∧ FitsArgs names rest others := by
  induction before generalizing actualArgs with
  | nil => exact ⟨[], actualArgs, rfl, .nil, h⟩
  | cons arg before ih =>
    have hrest := fun other hother => hbefore other (List.mem_cons_of_mem _ hother)
    cases h with
    | cons harg hfits =>
      obtain ⟨xs, others, rfl, hxs, hothers⟩ := ih hfits hrest
      exact ⟨_ :: xs, others, rfl, .cons harg hxs, hothers⟩
    | pack hfits => exact absurd (hbefore _ List.mem_cons_self).unpackedInner (by
        simp [SemanticType.unpackedInner, SemanticType.stripAnnotated])

/-- The split of the shape is that of the lengths. -/
theorem FitsArgs.pack_split {xs ys zs : List SemanticType}
    (h : FitsArgs names (before ++ .unpack (.name text) :: after) (xs ++ (ys ++ zs)))
    (hbefore : ∀ arg ∈ before, Template names arg) (hafter : ∀ arg ∈ after, Template names arg)
    (hxs : before.length = xs.length) (hzs : after.length = zs.length) :
    List.Forall₂ (Fits names) before xs ∧ List.Forall₂ (Fits names) after zs := by
  obtain ⟨xs', others, hsplit, hfitsBefore, hothers⟩ := h.append hbefore
  cases hothers with
  | cons harg _ => cases harg
  | pack hfits =>
    rename_i taken zs'
    have hfitsAfter := hfits.forall₂ hafter
    obtain ⟨rfl, hmiddle⟩ := List.append_inj hsplit (hxs.symm.trans hfitsBefore.length_eq)
    obtain ⟨-, rfl⟩ := List.append_inj' hmiddle (hzs.symm.trans hfitsAfter.length_eq)
    exact ⟨hfitsBefore, hfitsAfter⟩

theorem ArgsOf.around_pack
    (h : ArgsOf names (Template names) (before ++ .unpack (.name text) :: after)) :
    (∀ arg ∈ before, Template names arg) ∧ ∀ arg ∈ after, Template names arg := by
  have hunpack : ¬ Template names (.unpack (.name text)) := by
    intro htemplate
    cases htemplate
  generalize hargs : before ++ SemanticType.unpack (.name text) :: after = args at h
  cases h with
  | fixed hall =>
    rw [← hargs] at hall
    exact absurd (hall _ (List.mem_append_right _ List.mem_cons_self)) hunpack
  | pack hbefore hafter hpack =>
    obtain ⟨rfl, -, rfl⟩ := (List.append_cons_inj_of_notMem (fun hmem => hunpack (hbefore _ hmem))
      fun hmem => hunpack (hafter _ hmem)).1 hargs.symm
    exact ⟨hbefore, hafter⟩

/-! ## Recovery -/

/-- An annotation gives back each type of its shape that it was inferred from. -/
def Recovers (names : GenericNames) (infer : SemanticType → SemanticType → Option GenericSolution)
    (solution : GenericSolution) (expected : SemanticType) : Prop :=
  ∀ actual, Fits names expected actual → ContributesTo infer solution expected actual →
    Alike names (substituteSemanticTypeParams solution expected) actual

theorem alike_of_recovers (hsolution : solution.For names)
    (hargs : ∀ arg ∈ args, Template names arg)
    (hrecovers : ∀ arg ∈ args, Recovers names infer solution arg)
    (hfits : List.Forall₂ (Fits names) args actualArgs)
    (hcontribute : List.Forall₂ (ContributesTo infer solution) args actualArgs) :
    List.Forall₂ (Alike names) (expandSubstitutedSemanticGenericArgs solution args) actualArgs := by
  induction hfits with
  | nil => exact .nil
  | cons hfit _ ih =>
    cases hcontribute with
    | cons hfirst hrest =>
      rw [expandSubstituted_cons hsolution (hargs _ List.mem_cons_self)]
      constructor
      · exact hrecovers _ List.mem_cons_self _ hfit hfirst
      · exact ih (fun other hother => hargs other (List.mem_cons_of_mem _ hother))
          (fun other hother => hrecovers other (List.mem_cons_of_mem _ hother)) hrest

/-- A list of arguments, when each of them gives back what it was inferred from. -/
theorem recoveredArgs (hinfer : InfersOwn names infer) {nested : GenericSolution}
    (hargs : ArgsOf names (Template names) args) (hdistinct : (typeParamsOfAll names args).Nodup)
    (h : inferGenericTypeArgBindings isAssignable names infer args actualArgs = some nested)
    (hext : nested.Extends solution) (hsolution : solution.For names)
    (hfits : FitsArgs names args (expandInferredGenericArgs names actualArgs))
    (hrecovers : ∀ arg ∈ args, Template names arg → Recovers names infer solution arg) :
    List.Forall₂ (Alike names) (expandSubstitutedSemanticGenericArgs solution args)
      (expandInferredGenericArgs names actualArgs) := by
  have hlater : ∀ expected actual, ContributesTo infer nested expected actual →
      ContributesTo infer solution expected actual := by
    rintro expected actual ⟨inner, hinner, hextends⟩
    exact ⟨inner, hinner, hextends.trans hext⟩
  cases hargs with
  | fixed hall =>
    have hcontribute := inferArgs_fixed_contribute hinfer hall hdistinct h
    exact alike_of_recovers hsolution hall (fun arg harg => hrecovers arg harg (hall arg harg))
      (hfits.forall₂ hall) (hcontribute.imp hlater)
  | pack hbefore hafter hpack =>
    obtain ⟨xs, ys, zs, hsplit, hcontributeBefore, htaken, hcontributeAfter⟩ :=
      inferArgs_pack_contribute hinfer hbefore hafter hpack hdistinct h
    rw [hsplit] at hfits ⊢
    obtain ⟨hfitsBefore, hfitsAfter⟩ := hfits.pack_split hbefore hafter
      hcontributeBefore.length_eq hcontributeAfter.length_eq
    rw [expandSubstituted_append, expandSubstituted_pack hsolution hpack (hext.typePacks htaken)]
    refine List.rel_append ?_ (List.rel_append ?_ ?_)
    · exact alike_of_recovers hsolution hbefore
        (fun arg harg => hrecovers arg (List.mem_append_left _ harg) (hbefore arg harg))
        hfitsBefore (hcontributeBefore.imp hlater)
    · exact List.forall₂_same.2 fun ty _ => .same ty
    · exact alike_of_recovers hsolution hafter
        (fun arg harg => hrecovers arg
          (List.mem_append_right _ (List.mem_cons_of_mem _ harg)) (hafter arg harg))
        hfitsAfter (hcontributeAfter.imp hlater)

variable {substitutions : GenericSolution}

/-- Two generics with the same head, neither of which is `Optional`, are compared by their
arguments. -/
theorem inferFull_generic {head : String} (hhead : head ≠ "Optional") :
    inferGenericTypeParamBindingsFull isAssignable names substitutions (.generic head args)
        (.generic head actualArgs)
      = inferGenericTypeArgBindings isAssignable names
          (inferGenericTypeParamBindingsFull isAssignable names substitutions) args actualArgs := by
  have hbranches : ∀ args, severalBranches (.generic head args) = none := by
    intro args
    have hunion : semanticUnionBranches (.generic head args) = none := by
      unfold semanticUnionBranches
      simp only [SemanticType.stripAnnotated]
      split
      · rename_i heq
        cases heq
      · rename_i heq
        cases heq
        exact absurd rfl hhead
      · rfl
    unfold severalBranches
    rw [hunion]
    rfl
  have hblank : SemanticType.generic head actualArgs ≠ .name "" := by simp
  rw [inferGenericTypeParamBindingsFull_eq]
  simp [inferStep, hblank, GenericNames.typeParam, hbranches,
    inferGenericTypeParamBindingsSemantic, SemanticType.genericParts, SemanticType.stripAnnotated]

theorem inferFull_typeVar {name : String} {actual : SemanticType} (hname : name ∈ names.genericNames)
    (hfresh : substitutions.types[name]? = none) (hactual : actual ≠ .name "") :
    inferGenericTypeParamBindingsFull isAssignable names substitutions (.name name) actual
      = some (boundType name actual) := by
  rw [inferGenericTypeParamBindingsFull_eq]
  simp [inferStep, hactual, GenericNames.typeParam, hname, typeParamCandidate, hfresh]

/-- An annotation whose type variables are not bound yet gives back the types of its shape. -/
theorem recovered {declared : SemanticType} (hdeclared : Template names declared)
    (hdistinct : (typeParamsOf names declared).Nodup)
    (hfresh : ∀ name, .typeVar name ∈ typeParamsOf names declared →
      substitutions.types[name]? = none)
    (hsolution : solution.For names) :
    Recovers names (inferGenericTypeParamBindingsFull isAssignable names substitutions) solution
      declared := by
  induction hsize : declared.size using Nat.strong_induction_on generalizing declared with
  | _ size ih =>
    rintro actual hfits ⟨nested, hnested, hext⟩
    cases hfits with
    | typeVar hname hactual =>
      rename_i name
      rw [inferFull_typeVar hname (hfresh name (by simp [typeParamsOf, hname])) hactual] at hnested
      cases hnested
      have hbound : (boundType name actual).types[name]? = some actual := by simp [boundType]
      rw [substituteSemanticTypeParams, hext.types hbound]
      exact .same actual
    | name hname =>
      rw [substituteSemanticTypeParams, hsolution.types _ hname]
      exact .same _
    | generic hfits =>
      cases hdeclared with
      | generic hhead hargs =>
        rw [inferFull_generic hhead] at hnested
        rw [substituteSemanticTypeParams]
        refine .generic (recoveredArgs inferFull_bindsOnly hargs hdistinct hnested hext hsolution
          hfits ?_)
        -- the arguments are smaller and bind parameters of the annotation
        intro arg harg htemplate
        have hless := size_le_sizeOfAll harg
        simp only [SemanticType.size] at hsize
        refine ih arg.size (by omega) htemplate (nodup_typeParamsOf harg hdistinct) ?_ rfl
        intro name hname
        exact hfresh name (mem_typeParamsOfAll harg hname)

/-- Inference splits the arguments around the pack without overlap or loss, and substitution gives
arguments of the shape of the annotation back. -/
theorem inferredArgs_recovered {args actualArgs : List SemanticType}
    (hargs : ArgsOf names (Template names) args) (hdistinct : (typeParamsOfAll names args).Nodup)
    (hfresh : ∀ name, .typeVar name ∈ typeParamsOfAll names args →
      substitutions.types[name]? = none)
    (hinfer : inferGenericTypeArgBindings isAssignable names
      (inferGenericTypeParamBindingsFull isAssignable names substitutions) args actualArgs
        = some solution) :
    (FitsArgs names args (expandInferredGenericArgs names actualArgs) →
        List.Forall₂ (Alike names) (expandSubstitutedSemanticGenericArgs solution args)
          (expandInferredGenericArgs names actualArgs))
      ∧ ∀ before text pack after, args = before ++ .unpack (.name text) :: after →
          names.isTypePack (.name text) = some pack →
          ∃ xs ys zs, expandInferredGenericArgs names actualArgs = xs ++ (ys ++ zs)
            ∧ xs.length = before.length ∧ zs.length = after.length
            ∧ solution.typePacks[pack]? = some { types := ys } := by
  have hbinds := inferArgs_bindsOnly inferFull_bindsOnly hargs hinfer
  constructor
  · intro hfits
    refine recoveredArgs inferFull_bindsOnly hargs hdistinct hinfer (.refl _) hbinds.for_names hfits ?_
    intro arg harg htemplate
    refine recovered htemplate (nodup_typeParamsOf harg hdistinct) ?_ hbinds.for_names
    intro name hname
    exact hfresh name (mem_typeParamsOfAll harg hname)
  · rintro before text pack after rfl hpack
    obtain ⟨hbefore, hafter⟩ := hargs.around_pack
    obtain ⟨xs, ys, zs, hsplit, hxs, htaken, hzs⟩ :=
      inferArgs_pack_contribute inferFull_bindsOnly hbefore hafter hpack hdistinct hinfer
    exact ⟨xs, ys, zs, hsplit, hxs.length_eq.symm, hzs.length_eq.symm, htaken⟩

end

/-! ## Examples -/

/-- Two type variables and a pack. -/
def exampleNames : GenericNames := ⟨["T", "U"], ["Ts"]⟩

/-- `T, Unpack[Ts], list[U]` -/
def exampleArgs : List SemanticType :=
  [.name "T", .unpack (.name "Ts"), .generic "list" [.name "U"]]

/-- `Unpack[tuple[int, str]], Unpack[tuple[bytes, list[bool]]]` -/
def straddlingArgs : List SemanticType := [
  .unpack (.generic "tuple" [.name "int", .name "str"]),
  .unpack (.generic "tuple" [.name "bytes", .generic "list" [.name "bool"]])]

/-- The assignability of types that the first rules decide. -/
def assignableAtOnce (expected actual : SemanticType) : Bool :=
  (decidedAtOnce {} expected actual).getD false

def inferExample (substitutions : GenericSolution) (args actualArgs : List SemanticType) :
    Option GenericSolution :=
  inferGenericTypeArgBindings assignableAtOnce exampleNames
    (inferGenericTypeParamBindingsFull assignableAtOnce exampleNames substitutions) args actualArgs

/-- Both tuples give an end to the pack between them. -/
theorem straddlingArgs_recovered :
    ∃ solution, inferExample {} exampleArgs straddlingArgs = some solution
      ∧ List.Forall₂ (Alike exampleNames)
          (expandSubstitutedSemanticGenericArgs solution exampleArgs)
          [.name "int", .name "str", .name "bytes", .generic "list" [.name "bool"]] := by
  have hsome : (inferExample {} exampleArgs straddlingArgs).isSome = true := by decide
  obtain ⟨solution, hinfer⟩ := Option.isSome_iff_exists.1 hsome
  have hargs : ArgsOf exampleNames (Template exampleNames)
      ([.name "T"] ++ .unpack (.name "Ts") :: [.generic "list" [.name "U"]]) := by
    apply ArgsOf.pack
    · intro arg harg
      rw [List.mem_singleton.1 harg]
      exact .name "T"
    · intro arg harg
      rw [List.mem_singleton.1 harg]
      refine .generic (by decide) (.fixed ?_)
      intro inner hinner
      rw [List.mem_singleton.1 hinner]
      exact .name "U"
    · rfl
  have hfits : FitsArgs exampleNames exampleArgs
      ([.name "int"] ++ ([.name "str", .name "bytes"] ++ [.generic "list" [.name "bool"]])) := by
    have hlist : FitsArgs exampleNames [.generic "list" [.name "U"]]
        [.generic "list" [.name "bool"]] :=
      .cons (.generic (.cons (.typeVar (by decide) (by decide)) .nil)) .nil
    have hpack := @FitsArgs.pack exampleNames "Ts" _ [.name "str", .name "bytes"] _ hlist
    exact .cons (.typeVar (by decide) (by decide)) hpack
  have hrecovered := inferredArgs_recovered hargs (by decide) (by simp) hinfer
  exact ⟨solution, hinfer, hrecovered.1 hfits⟩

/-- Whatever is inferred gives the arguments of the type back. -/
def GivesBack (substitutions : GenericSolution) (args actualArgs : List SemanticType) : Prop :=
  ∀ solution, inferExample substitutions args actualArgs = some solution →
    List.Forall₂ (Alike exampleNames) (expandSubstitutedSemanticGenericArgs solution args)
      (expandInferredGenericArgs exampleNames actualArgs)

theorem not_givesBack (result : SemanticType) {substitutions : GenericSolution}
    {expected actual : SemanticType}
    (h : (inferExample substitutions [expected] [actual]).map
      (fun solution => expandSubstitutedSemanticGenericArgs solution [expected]) = some [result])
    (hactual : expandInferredGenericArgs exampleNames [actual] = [actual])
    (hdiffer : ¬ Alike exampleNames result actual) :
    ¬ GivesBack substitutions [expected] [actual] := by
  intro hgives
  obtain ⟨solution, hinfer, hresult⟩ := Option.map_eq_some_iff.1 h
  have hall := hgives solution hinfer
  rw [hresult, hactual] at hall
  cases hall with
  | cons halike _ => exact hdiffer halike

/-- `list[T]` accepts `Any` without a binding, is joined over the branches of a union, and a type
variable that is bound already is merged with what it meets. -/
theorem acceptedArguments_not_givenBack :
    ¬ GivesBack {} [.generic "list" [.name "T"]] [.name "Any"]
      ∧ ¬ GivesBack {} [.generic "list" [.name "T"]]
          [.union [.generic "list" [.name "int"], .generic "list" [.name "str"]]]
      ∧ ¬ GivesBack (boundType "T" (.name "str")) [.name "T"] [.name "int"] := by
  refine ⟨not_givesBack (.generic "list" [.name "T"]) (by decide +kernel) rfl ?_,
    not_givesBack (.generic "list" [.union [.name "int", .name "str"]])
      (by decide +kernel) rfl ?_,
    not_givesBack (.union [.name "str", .name "int"]) (by decide +kernel) rfl ?_⟩
  · intro h
    cases h
  · intro h
    cases h
  · intro h
    cases h

end TypePython.Checking
