import TypePython.Checking.MemberLookup

/-!
# The arguments of an owner

The type parameters of a class are bound to the arguments of an owner's type by one index into
them; a type pack ends where the parameters behind it begin.

* `bindOwnerArgs_ok_iff`: when no slice is taken out of range;
* `ownerArguments_iff`: when every parameter gets its own arguments.
-/

namespace TypePython.Checking

open Std
open TypePython.Binding

def AtMostOnePack (typeParams : List GenericTypeParam) : Prop :=
  (typeParams.filter fun typeParam => typeParam.kind = .typeVarTuple).length ≤ 1

/-- A class with type parameters, of which at most one is a pack. -/
structure GenericClass where
  declaration : Declaration
  onePack : AtMostOnePack declaration.typeParams

namespace GenericClass

def typeParams (cls : GenericClass) : List GenericTypeParam := cls.declaration.typeParams

/-- The arguments with the unpacked tuples in them spliced in. -/
def arguments (cls : GenericClass) (args : List SemanticType) : List SemanticType :=
  expandInferredGenericArgs
    { genericNames := []
      typePackNames := (cls.typeParams.filter fun typeParam => typeParam.kind = .typeVarTuple).map
        GenericTypeParam.name } args

end GenericClass

/-! ## What each parameter is to get -/

/-- Every parameter with its own arguments: one each, for the pack those that are left. -/
def argumentRuns : List GenericTypeParam → List SemanticType →
    List (GenericTypeParam × List SemanticType)
  | [], _ => []
  | typeParam :: rest, args =>
    let count := if typeParam.kind = .typeVarTuple then args.length - rest.length else 1
    (typeParam, args.take count) :: argumentRuns rest (args.drop count)

def HasPack (typeParams : List GenericTypeParam) : Prop :=
  ∃ typeParam ∈ typeParams, typeParam.kind = .typeVarTuple

/-- As many arguments as parameters; a pack takes any number of them. -/
structure FillsParams (typeParams : List GenericTypeParam) (count : Nat) : Prop where
  pack : HasPack typeParams → typeParams.length ≤ count + 1
  noPack : ¬ HasPack typeParams → count = typeParams.length

/-- A parameter is bound to its arguments, a parameter specification to anything at all. -/
def BindsOwn (solution : GenericSolution) (typeParam : GenericTypeParam)
    (own : List SemanticType) : Prop :=
  match typeParam.kind with
  | .typeVar => ∃ ty, own = [ty] ∧ solution.types[typeParam.name]? = some ty
  | .typeVarTuple => solution.typePacks[typeParam.name]? = some { types := own }
  | .paramSpec => (solution.paramLists[typeParam.name]?).isSome = true

/-- Every parameter is bound to its own arguments, unless a later one of its kind has its name. -/
def AllBound (typeParams : List GenericTypeParam) (args : List SemanticType)
    (solution : GenericSolution) : Prop :=
  ∀ before typeParam own after,
    argumentRuns typeParams args = before ++ (typeParam, own) :: after →
      (∀ later ∈ after, later.1.kind = typeParam.kind → later.1.name ≠ typeParam.name) →
        BindsOwn solution typeParam own

/-- The owner's arguments are matched without a panic, and rightly when they fit: none is left out
or given to two parameters. -/
def MatchedRightly (cls : GenericClass) (args : List SemanticType) : Prop :=
  ∃ solution,
    ownerGenericSubstitutions (.generic cls.declaration.name args) cls.declaration = .ok solution
      ∧ (FillsParams cls.typeParams (cls.arguments args).length →
        AllBound cls.typeParams (cls.arguments args) solution
          ∧ (argumentRuns cls.typeParams (cls.arguments args)).flatMap Prod.snd
            = cls.arguments args)

def countTypeVars (typeParams : List GenericTypeParam) : Nat :=
  (typeParams.filter fun typeParam => typeParam.kind = .typeVar).length

/-- The arguments reach to the pack but not through the parameters behind it, so that these would
take back arguments that the parameters before it have. -/
def PackCut (typeParams : List GenericTypeParam) (taken count : Nat) : Prop :=
  ∃ before pack after, typeParams = before ++ pack :: after ∧ pack.kind = .typeVarTuple
    ∧ 0 < taken + countTypeVars before ∧ taken + countTypeVars before ≤ count
    ∧ count < taken + countTypeVars before + after.length

/-! ## Parameter lists -/

variable {typeParam : GenericTypeParam} {rest : List GenericTypeParam}

theorem AtMostOnePack.tail (h : AtMostOnePack (typeParam :: rest)) : AtMostOnePack rest := by
  unfold AtMostOnePack at h ⊢
  have hsublist := (List.sublist_cons_self typeParam rest).filter
    fun typeParam => typeParam.kind = .typeVarTuple
  exact Nat.le_trans hsublist.length_le h

theorem AtMostOnePack.not_hasPack (h : AtMostOnePack (typeParam :: rest))
    (hkind : typeParam.kind = .typeVarTuple) : ¬ HasPack rest := by
  rintro ⟨pack, hmem, hpack⟩
  unfold AtMostOnePack at h
  rw [List.filter_cons_of_pos (by exact decide_eq_true hkind), List.length_cons] at h
  have hpos : 0 < (rest.filter fun typeParam => typeParam.kind = .typeVarTuple).length :=
    List.length_pos_of_mem (List.mem_filter.mpr ⟨hmem, decide_eq_true hpack⟩)
  omega

/-- The source counts the parameters behind the pack that are no packs. -/
theorem AtMostOnePack.trailing (h : AtMostOnePack (typeParam :: rest))
    (hkind : typeParam.kind = .typeVarTuple) :
    (rest.filter fun candidate => candidate.kind ≠ .typeVarTuple).length = rest.length := by
  rw [List.filter_eq_self.mpr]
  exact fun candidate hmem => decide_eq_true fun hpack => h.not_hasPack hkind ⟨candidate, hmem, hpack⟩

variable {count : Nat}

theorem fits_tail (h : FillsParams (typeParam :: rest) count)
    (hkind : typeParam.kind ≠ .typeVarTuple) : 0 < count ∧ FillsParams rest (count - 1) := by
  have hiff : HasPack (typeParam :: rest) ↔ HasPack rest := by
    unfold HasPack
    rw [List.exists_mem_cons_iff]
    exact or_iff_right hkind
  by_cases hpack : HasPack rest
  · have hlength := h.pack (hiff.mpr hpack)
    rcases hpack with ⟨pack, hmem, hpackKind⟩
    have hpos := List.length_pos_of_mem hmem
    rw [List.length_cons] at hlength
    exact ⟨by omega, fun _ => by omega, fun hno => absurd ⟨pack, hmem, hpackKind⟩ hno⟩
  · have hlength := h.noPack fun hcons => hpack (hiff.mp hcons)
    rw [List.length_cons] at hlength
    exact ⟨by omega, fun hyes => absurd hyes hpack, fun _ => by omega⟩

/-- Behind a pack the arguments that are left fit. -/
theorem fits_pack (h : FillsParams (typeParam :: rest) count)
    (honce : AtMostOnePack (typeParam :: rest)) (hkind : typeParam.kind = .typeVarTuple) :
    rest.length ≤ count ∧ FillsParams rest (count - (count - rest.length)) := by
  have hlength := h.pack ⟨typeParam, List.mem_cons_self, hkind⟩
  rw [List.length_cons] at hlength
  exact ⟨by omega, fun hyes => absurd hyes (honce.not_hasPack hkind), fun _ => by omega⟩

theorem argumentRuns_params (typeParams : List GenericTypeParam) :
    ∀ args, (argumentRuns typeParams args).map Prod.fst = typeParams := by
  induction typeParams with
  | nil => exact fun _ => rfl
  | cons typeParam rest ih =>
    intro args
    rw [argumentRuns, List.map_cons, ih]

/-- When they fit, the arguments are dealt out whole and in order. -/
theorem argumentRuns_whole {typeParams : List GenericTypeParam} : ∀ {args : List SemanticType},
    AtMostOnePack typeParams → FillsParams typeParams args.length →
      (argumentRuns typeParams args).flatMap Prod.snd = args := by
  induction typeParams with
  | nil =>
    intro args _ hfits
    have hlength := hfits.noPack nofun
    rw [List.eq_nil_of_length_eq_zero hlength]
    rfl
  | cons typeParam rest ih =>
    intro args honce hfits
    rw [argumentRuns]
    by_cases hkind : typeParam.kind = .typeVarTuple
    · have hrest := fits_pack hfits honce hkind
      rw [if_pos hkind, List.flatMap_cons, ih honce.tail (by rw [List.length_drop]; exact hrest.2)]
      exact List.take_append_drop _ args
    · have hrest := fits_tail hfits hkind
      rw [if_neg hkind, List.flatMap_cons, ih honce.tail (by rw [List.length_drop]; exact hrest.2)]
      exact List.take_append_drop _ args

variable {args : List SemanticType} {solution : GenericSolution}

theorem allBound_cons
    (hcount : count = if typeParam.kind = .typeVarTuple then args.length - rest.length else 1)
    (hhead : (∀ later ∈ rest, later.kind = typeParam.kind → later.name ≠ typeParam.name) →
      BindsOwn solution typeParam (args.take count))
    (hrest : AllBound rest (args.drop count) solution) :
    AllBound (typeParam :: rest) args solution := by
  intro before param own after hsplit hlast
  rw [argumentRuns, ← hcount] at hsplit
  cases before with
  | nil =>
    rcases List.cons.inj hsplit with ⟨hparam, hafter⟩
    rcases Prod.mk.inj hparam with ⟨rfl, rfl⟩
    refine hhead fun later hmem => ?_
    rw [← argumentRuns_params rest (args.drop count), hafter] at hmem
    rcases List.mem_map.mp hmem with ⟨entry, hentry, rfl⟩
    exact hlast entry hentry
  | cons first before =>
    rcases List.cons.inj hsplit with ⟨-, htail⟩
    exact hrest before param own after htail hlast

theorem AllBound.tail
    (hcount : count = if typeParam.kind = .typeVarTuple then args.length - rest.length else 1)
    (h : AllBound (typeParam :: rest) args solution) :
    AllBound rest (args.drop count) solution := by
  intro before param own after hsplit hlast
  refine h ((typeParam, args.take count) :: before) param own after ?_ hlast
  rw [argumentRuns, ← hcount, hsplit]
  rfl

/-! ## Binding -/

/-- What a run over parameters leaves as it is: the names of none of them, and all lists of
parameters. -/
theorem bindOwnerArgs_keeps {typeParams : List GenericTypeParam} :
    ∀ {argIndex : Nat} {substitutions solution : GenericSolution},
      bindOwnerArgs args typeParams argIndex substitutions = .ok solution →
        (∀ name, (∀ later ∈ typeParams, later.kind = .typeVar → later.name ≠ name) →
          solution.types[name]? = substitutions.types[name]?)
        ∧ (∀ name, (∀ later ∈ typeParams, later.kind = .typeVarTuple → later.name ≠ name) →
          solution.typePacks[name]? = substitutions.typePacks[name]?)
        ∧ solution.paramLists = substitutions.paramLists := by
  induction typeParams with
  | nil =>
    intro argIndex substitutions solution h
    rw [← Except.ok.inj h]
    exact ⟨fun _ _ => rfl, fun _ _ => rfl, rfl⟩
  | cons typeParam rest ih =>
    intro argIndex substitutions solution h
    rw [bindOwnerArgs] at h
    cases hkind : typeParam.kind with
    | typeVar =>
      rw [hkind] at h
      dsimp only at h
      split at h
      · rw [← Except.ok.inj h]
        exact ⟨fun _ _ => rfl, fun _ _ => rfl, rfl⟩
      · rcases ih h with ⟨htypes, hpacks, hlists⟩
        refine ⟨fun name hname => ?_, fun name hname => ?_, hlists⟩
        · rw [htypes name fun later hmem => hname later (List.mem_cons_of_mem _ hmem),
            ExtTreeMap.getElem?_insert]
          have hne := hname typeParam List.mem_cons_self hkind
          simp [hne]
        · exact hpacks name fun later hmem => hname later (List.mem_cons_of_mem _ hmem)
    | typeVarTuple =>
      rw [hkind] at h
      dsimp only at h
      split at h
      · cases h
      · rcases ih h with ⟨htypes, hpacks, hlists⟩
        refine ⟨fun name hname => ?_, fun name hname => ?_, hlists⟩
        · exact htypes name fun later hmem => hname later (List.mem_cons_of_mem _ hmem)
        · rw [hpacks name fun later hmem => hname later (List.mem_cons_of_mem _ hmem),
            ExtTreeMap.getElem?_insert]
          have hne := hname typeParam List.mem_cons_self hkind
          simp [hne]
    | paramSpec =>
      rw [hkind] at h
      rcases ih h with ⟨htypes, hpacks, hlists⟩
      exact ⟨fun name hname => htypes name fun later hmem => hname later (List.mem_cons_of_mem _ hmem),
        fun name hname => hpacks name fun later hmem => hname later (List.mem_cons_of_mem _ hmem),
        hlists⟩

/-- Arguments that fit are bound as they are dealt out, where no parameter is a parameter
specification. -/
theorem bindOwnerArgs_allBound {typeParams : List GenericTypeParam} :
    ∀ {argIndex : Nat} {substitutions solution : GenericSolution}, AtMostOnePack typeParams →
      (∀ typeParam ∈ typeParams, typeParam.kind ≠ .paramSpec) → argIndex ≤ args.length →
      FillsParams typeParams (args.drop argIndex).length →
      bindOwnerArgs args typeParams argIndex substitutions = .ok solution →
        AllBound typeParams (args.drop argIndex) solution := by
  induction typeParams with
  | nil =>
    intro argIndex substitutions solution _ _ _ _ _ before param own after hsplit
    exact absurd hsplit.symm (List.append_ne_nil_of_right_ne_nil _ (List.cons_ne_nil _ _))
  | cons typeParam rest ih =>
    intro argIndex substitutions solution honce hspec hindex hfits h
    have hspecRest := fun other hmem => hspec other (List.mem_cons_of_mem _ hmem)
    rw [bindOwnerArgs] at h
    cases hkind : typeParam.kind with
    | paramSpec => exact absurd hkind (hspec typeParam List.mem_cons_self)
    | typeVar =>
      rw [hkind] at h
      dsimp only at h
      have hnotPack : typeParam.kind ≠ .typeVarTuple := by
        rw [hkind]
        decide
      rcases fits_tail hfits hnotPack with ⟨hpos, hrestFits⟩
      rw [List.length_drop] at hpos hrestFits
      have hlt : argIndex < args.length := by omega
      rw [List.getElem?_eq_getElem hlt] at h
      have hrest := ih honce.tail hspecRest (by omega)
        (by rw [List.length_drop]; rwa [Nat.sub_sub] at hrestFits) h
      refine allBound_cons (if_neg hnotPack).symm (fun hlast => ?_) (by rwa [List.drop_drop])
      unfold BindsOwn
      rw [hkind]
      refine ⟨args[argIndex], by rw [List.drop_eq_getElem_cons hlt]; rfl, ?_⟩
      rw [hkind] at hlast
      rw [(bindOwnerArgs_keeps h).1 typeParam.name hlast]
      exact ExtTreeMap.getElem?_insert_self
    | typeVarTuple =>
      rw [hkind] at h
      dsimp only at h
      rw [honce.trailing hkind] at h
      rcases fits_pack hfits honce hkind with ⟨hle, hrestFits⟩
      rw [List.length_drop] at hle hrestFits
      rw [if_neg (by omega)] at h
      have hrest := ih honce.tail hspecRest (by omega) (by
        rw [List.length_drop]
        have hcount : args.length - (args.length - rest.length)
            = args.length - argIndex - (args.length - argIndex - rest.length) := by omega
        rwa [hcount]) h
      have hcount : (args.drop argIndex).length - rest.length
          = args.length - rest.length - argIndex := by
        rw [List.length_drop]
        omega
      have hstop : argIndex + (args.length - rest.length - argIndex)
          = args.length - rest.length := by omega
      refine allBound_cons ((if_pos hkind).trans hcount).symm (fun hlast => ?_) ?_
      · unfold BindsOwn
        rw [hkind]
        rw [hkind] at hlast
        dsimp only
        rw [(bindOwnerArgs_keeps h).2.1 typeParam.name hlast, List.drop_take]
        exact ExtTreeMap.getElem?_insert_self
      · rwa [List.drop_drop, hstop]

/-! ## Slices -/

theorem countTypeVars_cons (typeParam : GenericTypeParam) (rest : List GenericTypeParam) :
    countTypeVars (typeParam :: rest) = countTypeVars [typeParam] + countTypeVars rest := by
  unfold countTypeVars
  rw [← List.singleton_append, List.filter_append, List.length_append]

theorem packCut_cons_iff {taken : Nat} (hkind : typeParam.kind ≠ .typeVarTuple) :
    PackCut (typeParam :: rest) taken count
      ↔ PackCut rest (taken + countTypeVars [typeParam]) count := by
  constructor
  · rintro ⟨before, pack, after, hsplit, hpack, hpos, hreach, hshort⟩
    cases before with
    | nil =>
      rcases List.cons.inj hsplit with ⟨rfl, -⟩
      exact absurd hpack hkind
    | cons first before =>
      rcases List.cons.inj hsplit with ⟨rfl, hrest⟩
      rw [countTypeVars_cons] at hpos hreach hshort
      exact ⟨before, pack, after, hrest, hpack, by omega, by omega, by omega⟩
  · rintro ⟨before, pack, after, rfl, hpack, hpos, hreach, hshort⟩
    refine ⟨typeParam :: before, pack, after, rfl, hpack, ?_, ?_, ?_⟩ <;> rw [countTypeVars_cons] <;>
      omega

theorem packCut_pack_iff {taken : Nat} (honce : AtMostOnePack (typeParam :: rest))
    (hkind : typeParam.kind = .typeVarTuple) : PackCut (typeParam :: rest) taken count
      ↔ 0 < taken ∧ taken ≤ count ∧ count < taken + rest.length := by
  constructor
  · rintro ⟨before, pack, after, hsplit, hpack, hpos, hreach, hshort⟩
    cases before with
    | nil =>
      rcases List.cons.inj hsplit with ⟨rfl, rfl⟩
      exact ⟨hpos, hreach, hshort⟩
    | cons first before =>
      rcases List.cons.inj hsplit with ⟨rfl, hrest⟩
      refine absurd ⟨pack, ?_, hpack⟩ (honce.not_hasPack hkind)
      rw [hrest]
      exact List.mem_append_right _ List.mem_cons_self
  · rintro ⟨hpos, hreach, hshort⟩
    exact ⟨[], typeParam, rest, rfl, hkind, hpos, hreach, hshort⟩

/-- No slice is out of range exactly when the arguments are not cut off behind the pack. -/
theorem bindOwnerArgs_ok_iff {args : List SemanticType} {typeParams : List GenericTypeParam} :
    ∀ {argIndex : Nat} {substitutions : GenericSolution}, AtMostOnePack typeParams →
      argIndex ≤ args.length →
        ((∃ solution, bindOwnerArgs args typeParams argIndex substitutions = .ok solution)
          ↔ ¬ PackCut typeParams argIndex args.length) := by
  induction typeParams with
  | nil =>
    intro argIndex substitutions _ _
    refine ⟨fun _ => ?_, fun _ => ⟨substitutions, rfl⟩⟩
    rintro ⟨before, pack, after, hsplit, -⟩
    exact absurd hsplit.symm (List.append_ne_nil_of_right_ne_nil _ (List.cons_ne_nil _ _))
  | cons typeParam rest ih =>
    intro argIndex substitutions honce hle
    rw [bindOwnerArgs]
    cases hkind : typeParam.kind with
    | typeVar =>
      have hvars : countTypeVars [typeParam] = 1 := by
        unfold countTypeVars
        rw [List.filter_cons_of_pos (by exact decide_eq_true hkind)]
        rfl
      rw [packCut_cons_iff (by rw [hkind]; decide), hvars]
      dsimp only
      by_cases hlt : argIndex < args.length
      · rw [List.getElem?_eq_getElem hlt]
        exact ih honce.tail hlt
      · -- no argument is left, so the loop ends before it comes to a pack
        rw [List.getElem?_eq_none (Nat.not_lt.mp hlt)]
        refine ⟨fun _ => ?_, fun _ => ⟨substitutions, rfl⟩⟩
        rintro ⟨before, pack, after, -, -, -, hreach, -⟩
        omega
    | typeVarTuple =>
      rw [packCut_pack_iff honce hkind]
      dsimp only
      rw [honce.trailing hkind]
      by_cases hcut : args.length - rest.length < argIndex
      · rw [if_pos hcut]
        exact ⟨nofun, fun hno => absurd ⟨by omega, hle, by omega⟩ hno⟩
      · rw [if_neg hcut]
        have hrest := @ih (args.length - rest.length)
          { substitutions with
            typePacks := substitutions.typePacks.insert typeParam.name
              { types := (args.take (args.length - rest.length)).drop argIndex } }
          honce.tail (by omega)
        refine ⟨fun _ hno => by omega, fun _ => hrest.mpr ?_⟩
        rintro ⟨before, pack, after, hsplit, hpack, -⟩
        refine honce.not_hasPack hkind ⟨pack, ?_, hpack⟩
        rw [hsplit]
        exact List.mem_append_right _ List.mem_cons_self
    | paramSpec =>
      have hvars : countTypeVars [typeParam] = 0 := by
        unfold countTypeVars
        rw [List.filter_cons_of_neg (by rw [hkind]; decide)]
        rfl
      rw [packCut_cons_iff (by rw [hkind]; decide), hvars]
      exact ih honce.tail hle

/-! ## The result -/

/-- A parameter specification is bound to nothing. -/
theorem not_allBound_of_paramSpec {typeParams : List GenericTypeParam}
    (hlists : solution.paramLists = ∅) : ∀ {args : List SemanticType},
      (∃ typeParam ∈ typeParams, typeParam.kind = .paramSpec) →
        ¬ AllBound typeParams args solution := by
  induction typeParams with
  | nil =>
    rintro args ⟨typeParam, hmem, -⟩
    exact absurd hmem List.not_mem_nil
  | cons first rest ih =>
    intro args h hall
    by_cases hrest : ∃ typeParam ∈ rest, typeParam.kind = .paramSpec
    · exact ih hrest (hall.tail rfl)
    · -- the last parameter specification of the list
      have hkind : first.kind = .paramSpec := by
        rcases (List.exists_mem_cons_iff _ _ _).mp h with hfirst | htail
        · exact hfirst
        · exact absurd htail hrest
      have hbound := hall [] first _ _ rfl fun later hmem hlater => by
        refine absurd ⟨later.1, ?_, hlater.trans hkind⟩ hrest
        rw [← argumentRuns_params rest]
        exact List.mem_map_of_mem hmem
      unfold BindsOwn at hbound
      rw [hkind] at hbound
      dsimp only at hbound
      rw [hlists, ExtTreeMap.getElem?_empty] at hbound
      cases hbound

/-- The arguments of an owner are matched safely and rightly exactly when they are not cut off
behind a pack and, where they fit, no parameter is a parameter specification. -/
theorem ownerArguments_iff (cls : GenericClass) (args : List SemanticType) :
    MatchedRightly cls args ↔ ¬ PackCut cls.typeParams 0 (cls.arguments args).length
      ∧ (FillsParams cls.typeParams (cls.arguments args).length →
        ∀ typeParam ∈ cls.typeParams, typeParam.kind ≠ .paramSpec) := by
  have hrun : ownerGenericSubstitutions (.generic cls.declaration.name args) cls.declaration
      = bindOwnerArgs (cls.arguments args) cls.typeParams 0 {} := by
    unfold ownerGenericSubstitutions GenericClass.arguments GenericClass.typeParams
    cases hparams : cls.declaration.typeParams with
    | nil => rfl
    | cons first rest =>
      rw [if_neg (by rw [List.isEmpty_cons]; decide)]
      show (if cls.declaration.name ≠ cls.declaration.name then _ else _) = _
      rw [if_neg (not_not.mpr rfl)]
  have hok := @bindOwnerArgs_ok_iff (cls.arguments args) cls.typeParams 0 {} cls.onePack
    (Nat.zero_le _)
  unfold MatchedRightly
  rw [hrun]
  constructor
  · rintro ⟨solution, hsolution, hbound⟩
    refine ⟨hok.mp ⟨solution, hsolution⟩, fun hfits typeParam hmem hkind => ?_⟩
    exact not_allBound_of_paramSpec (bindOwnerArgs_keeps hsolution).2.2
      ⟨typeParam, hmem, hkind⟩ (hbound hfits).1
  · rintro ⟨hcut, hspec⟩
    rcases hok.mpr hcut with ⟨solution, hsolution⟩
    refine ⟨solution, hsolution, fun hfits => ?_⟩
    have hbound := bindOwnerArgs_allBound cls.onePack (hspec hfits) (Nat.zero_le _)
      (by rwa [List.drop_zero]) hsolution
    rw [List.drop_zero] at hbound
    exact ⟨hbound, argumentRuns_whole cls.onePack hfits⟩

/-- `class C[T, *Ts, U]` -/
def packInTheMiddle : GenericClass where
  declaration :=
    { name := "C"
      kind := .classDecl
      typeParams := [{ kind := .typeVar, name := "T" }, { kind := .typeVarTuple, name := "Ts" },
        { kind := .typeVar, name := "U" }] }
  onePack := Nat.le_refl 1

/-- `C[int]` -/
theorem oneArgument_not_matched : ¬ MatchedRightly packInTheMiddle [.name "int"] := by
  rintro ⟨solution, hsolution, -⟩
  have hparts : (SemanticType.generic "C" [.name "int"]).genericParts = some ("C", [.name "int"]) := rfl
  unfold ownerGenericSubstitutions at hsolution
  cases hsolution

end TypePython.Checking
