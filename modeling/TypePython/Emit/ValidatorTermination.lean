import TypePython.Emit.RuntimeValidators
import TypePython.Lib.Cycles
import TypePython.Lib.PartialMaps

/-!
# Validators of recursive TypedDicts

The checks of a field go into a TypedDict and from there into the TypedDicts its own fields name.
Nothing remembers which ones they are in, so the validators of a text are generated exactly when
no TypedDict that is reached refers back to itself (`injectRuntimeValidators_returns_iff`).
-/

namespace TypePython.Emit

open Std (ExtTreeMap)
open Relation
open TypePython.Lib
open TypePython.Lib.Text
open TypePython.Syntax

variable {typedDicts : TypedDicts}

/-! ## Wrappers -/

theorem length_trim_le (text : Chars) : (trim text).length ≤ text.length := by
  have hstart : (trimStart text).length ≤ text.length :=
    (List.dropWhile_suffix _).length_le
  have hend : (trimEnd (trimStart text)).length ≤ (trimStart text).length := by
    rw [trimEnd, List.length_reverse]
    exact Nat.le_trans (List.dropWhile_suffix _).length_le (Nat.le_of_eq List.length_reverse)
  exact Nat.le_trans hend hstart

variable {declared inner : Chars}

theorem length_stripWrapper {wrapper : String} (h : stripWrapper wrapper declared = some inner) :
    inner.length < declared.length := by
  simp only [stripWrapper, Option.bind_eq_some_iff, Option.map_eq_some_iff] at h
  rcases h with ⟨rest, ⟨subscript, hwrapper, hbracket⟩, between, hclose, rfl⟩
  have h1 := eq_of_stripPrefix hwrapper
  have h2 := eq_of_stripPrefix hbracket
  have h3 := eq_of_stripSuffix hclose
  have h4 := length_trim_le between
  subst h1 h2 h3
  simp only [List.length_append, List.length_cons, List.length_nil]
  omega

/-- What a wrapper is around is shorter. -/
theorem length_unwrapped (h : unwrapped declared = some inner) :
    inner.length < declared.length := by
  simp only [unwrapped, Option.or_eq_some_iff] at h
  rcases h with (h | ⟨-, h⟩) | ⟨-, h | ⟨-, h⟩⟩ <;> exact length_stripWrapper h

/-! ## References -/

/-- What the checks of an annotation do next. -/
inductive Shape where
  | wrapped (inner : Chars)
  | typedDict (className : String) (fields : List ValidatorField)
  | checked

def shapeOf (typedDicts : TypedDicts) (declared : Chars) : Shape :=
  let declared := trim declared
  if declared = [] then .checked
  else
    match unwrapped declared with
    | some inner => .wrapped inner
    | none =>
      if 1 < (splitUnion declared).length then .checked
      else
        match typedDicts[String.ofList declared]? with
        | some fields => .typedDict (String.ofList declared) fields
        | none => .checked

theorem length_of_wrapped (h : shapeOf typedDicts declared = .wrapped inner) :
    inner.length < declared.length := by
  have htrim := length_trim_le declared
  simp only [shapeOf] at h
  split at h
  · cases h
  · split at h
    · rename_i inner' hinner
      cases h
      have := length_unwrapped hinner
      omega
    · split at h
      · cases h
      · split at h <;> cases h

variable {className : String} {fields : List ValidatorField}

theorem fields_of_typedDict (h : shapeOf typedDicts declared = .typedDict className fields) :
    typedDicts[className]? = some fields := by
  simp only [shapeOf] at h
  split at h
  · cases h
  · split at h
    · cases h
    · split at h
      · cases h
      · split at h
        · rename_i fields' hfields
          cases h
          exact hfields
        · cases h

/-- The TypedDict that the checks of an annotation go into. -/
def checkedDictFrom (typedDicts : TypedDicts) : Nat → Chars → Option String
  | 0, _ => none
  | left + 1, declared =>
    match shapeOf typedDicts declared with
    | .wrapped inner => checkedDictFrom typedDicts left inner
    | .typedDict className _ => some className
    | .checked => none

def checkedDict (typedDicts : TypedDicts) (declared : Chars) : Option String :=
  checkedDictFrom typedDicts (declared.length + 1) declared

/-- Some field of a TypedDict has checks that go into another one. -/
def Refers (typedDicts : TypedDicts) (className other : String) : Prop :=
  ∃ fields, typedDicts[className]? = some fields ∧ ∃ field ∈ fields,
    checkedDict typedDicts field.annotation.toList = some other

theorem checkedDictFrom_fuel {left left' : Nat} (h : declared.length < left)
    (h' : declared.length < left') :
    checkedDictFrom typedDicts left declared = checkedDictFrom typedDicts left' declared := by
  induction left generalizing left' declared with
  | zero => omega
  | succ left ih =>
    cases left' with
    | zero => omega
    | succ left' =>
      rw [checkedDictFrom, checkedDictFrom]
      cases hshape : shapeOf typedDicts declared with
      | wrapped inner =>
        have hshorter := length_of_wrapped hshape
        exact ih (by omega) (by omega)
      | typedDict className fields => rfl
      | checked => rfl

/-- The checks of a wrapped annotation go where those of the inner one do. -/
theorem checkedDict_wrapped (h : shapeOf typedDicts declared = .wrapped inner) :
    checkedDict typedDicts declared = checkedDict typedDicts inner := by
  have hshorter := length_of_wrapped h
  rw [checkedDict, checkedDictFrom, h, checkedDict]
  exact checkedDictFrom_fuel (by omega) (by omega)

theorem checkedDict_typedDict (h : shapeOf typedDicts declared = .typedDict className fields) :
    checkedDict typedDicts declared = some className := by
  rw [checkedDict, checkedDictFrom, h]

theorem checkedDict_checked (h : shapeOf typedDicts declared = .checked) :
    checkedDict typedDicts declared = none := by
  rw [checkedDict, checkedDictFrom, h]

theorem mem_of_checkedDict {left : Nat}
    (h : checkedDictFrom typedDicts left declared = some className) : className ∈ typedDicts := by
  induction left generalizing declared with
  | zero => cases h
  | succ left ih =>
    rw [checkedDictFrom] at h
    cases hshape : shapeOf typedDicts declared with
    | wrapped inner =>
      rw [hshape] at h
      exact ih h
    | typedDict name fields =>
      rw [hshape] at h
      cases h
      have hfields := fields_of_typedDict hshape
      rw [← ExtTreeMap.isSome_getElem?_iff_mem, hfields]
      rfl
    | checked =>
      rw [hshape] at h
      cases h

theorem refers_finite : {other | ∃ className, Refers typedDicts className other}.Finite := by
  apply (List.finite_toSet typedDicts.keys).subset
  rintro other ⟨className, fields, -, field, -, hfield⟩
  exact ExtTreeMap.mem_keys.2 (mem_of_checkedDict hfield)

/-! ## Bounds -/

/-- Whether a bound on the depth is enough for an annotation. -/
def boundSuffices (typedDicts : TypedDicts) : Nat → Chars → Bool
  | 0, _ => false
  | fuel + 1, declared =>
    match shapeOf typedDicts declared with
    | .wrapped inner => boundSuffices typedDicts fuel inner
    | .typedDict _ fields =>
      fields.all fun field => boundSuffices typedDicts fuel field.annotation.toList
    | .checked => true

theorem isSome_mapM {α β : Type} {f : α → Option β} {items : List α} :
    (items.mapM f).isSome = items.all fun item => (f item).isSome := by
  induction items with
  | nil => rfl
  | cons item rest ih =>
    rw [List.mapM_cons, List.all_cons, ← ih]
    cases f item with
    | none => rfl
    | some b => cases rest.mapM f <;> simp

/-- The bound decides alone whether the lines are found. -/
theorem emitValidationLines_isSome (fuel : Nat) (target declared fieldPath : String)
    (indent : Nat) :
    (emitValidationLines typedDicts fuel target declared fieldPath indent).isSome
      = boundSuffices typedDicts fuel declared.toList := by
  induction fuel generalizing target declared fieldPath indent with
  | zero => rfl
  | succ fuel ih =>
    simp only [emitValidationLines, boundSuffices, shapeOf]
    by_cases hempty : trim declared.toList = []
    · simp only [hempty, if_true, Option.isSome_some]
    · simp only [hempty, if_false]
      cases hinner : unwrapped (trim declared.toList) with
      | some inner =>
        show (emitValidationLines typedDicts fuel target _ fieldPath indent).isSome = _
        rw [ih, String.toList_ofList]
      | none =>
        by_cases hunion : 1 < (splitUnion (trim declared.toList)).length
        · simp only [hunion, if_true]
          split <;> rfl
        · simp only [hunion, if_false]
          cases hfields : typedDicts[String.ofList (trim declared.toList)]? with
          | none =>
            dsimp only
            split <;> rfl
          | some fields =>
            -- the fields of a TypedDict, one after the other
            show (Option.map _ _).isSome = _
            rw [Option.isSome_map, isSome_mapM]
            apply all_congr_mem
            intro field hfield
            rw [emitFieldLines]
            split <;> rw [Option.isSome_map, ih]

theorem boundSuffices_succ {fuel : Nat} (h : boundSuffices typedDicts fuel declared = true) :
    boundSuffices typedDicts (fuel + 1) declared = true := by
  induction fuel generalizing declared with
  | zero => cases h
  | succ fuel ih =>
    rw [boundSuffices] at h ⊢
    cases hshape : shapeOf typedDicts declared with
    | wrapped inner =>
      rw [hshape] at h
      exact ih h
    | typedDict className fields =>
      rw [hshape] at h
      rw [List.all_eq_true] at h ⊢
      exact fun field hfield => ih (h field hfield)
    | checked => rfl

theorem boundSuffices_mono {fuel fuel' : Nat} (hle : fuel ≤ fuel')
    (h : boundSuffices typedDicts fuel declared = true) :
    boundSuffices typedDicts fuel' declared = true := by
  induction hle with
  | refl => exact h
  | step _ ih => exact boundSuffices_succ ih

/-- One bound for several annotations. -/
theorem exists_bound
    (h : ∀ field ∈ fields, ∃ fuel, boundSuffices typedDicts fuel field.annotation.toList = true) :
    ∃ fuel, ∀ field ∈ fields, boundSuffices typedDicts fuel field.annotation.toList = true := by
  induction fields with
  | nil => exact ⟨0, fun field hfield => absurd hfield List.not_mem_nil⟩
  | cons field rest ih =>
    rw [List.forall_mem_cons] at h
    rcases h.1 with ⟨fuel, hfuel⟩
    rcases ih h.2 with ⟨fuel', hfuel'⟩
    refine ⟨max fuel fuel', ?_⟩
    rw [List.forall_mem_cons]
    exact ⟨boundSuffices_mono (Nat.le_max_left _ _) hfuel,
      fun other hother => boundSuffices_mono (Nat.le_max_right _ _) (hfuel' other hother)⟩

/-- Where the checks come to an end, every reference does. -/
theorem acc_of_bound {fuel : Nat} (h : boundSuffices typedDicts fuel declared = true)
    (hchecked : checkedDict typedDicts declared = some className) :
    Acc (flip (Refers typedDicts)) className := by
  induction fuel generalizing declared className with
  | zero => cases h
  | succ fuel ih =>
    rw [boundSuffices] at h
    cases hshape : shapeOf typedDicts declared with
    | wrapped inner =>
      rw [hshape] at h
      rw [checkedDict_wrapped hshape] at hchecked
      exact ih h hchecked
    | typedDict name fields =>
      rw [hshape] at h
      rw [checkedDict_typedDict hshape] at hchecked
      obtain rfl := Option.some.inj hchecked
      rw [List.all_eq_true] at h
      constructor
      rintro other ⟨fields', hfields', field, hfield, hother⟩
      rw [fields_of_typedDict hshape] at hfields'
      obtain rfl := Option.some.inj hfields'
      exact ih (h field hfield) hother
    | checked =>
      rw [checkedDict_checked hshape] at hchecked
      cases hchecked

/-- Some bound is enough for an annotation, if one is for the fields it leads to. -/
theorem exists_bound_of_fields
    (h : ∀ className fields, checkedDict typedDicts declared = some className →
      typedDicts[className]? = some fields → ∃ fuel, ∀ field ∈ fields,
        boundSuffices typedDicts fuel field.annotation.toList = true) :
    ∃ fuel, boundSuffices typedDicts fuel declared = true := by
  -- the wrappers come off one by one
  induction hlength : declared.length using Nat.strong_induction_on generalizing declared with
  | _ length ih =>
    cases hshape : shapeOf typedDicts declared with
    | wrapped inner =>
      have hshorter := length_of_wrapped hshape
      rw [checkedDict_wrapped hshape] at h
      rcases ih inner.length (hlength ▸ hshorter) h rfl with ⟨fuel, hfuel⟩
      refine ⟨fuel + 1, ?_⟩
      rw [boundSuffices, hshape]
      exact hfuel
    | typedDict className fields =>
      rcases h className fields (checkedDict_typedDict hshape) (fields_of_typedDict hshape)
        with ⟨fuel, hfuel⟩
      refine ⟨fuel + 1, ?_⟩
      rw [boundSuffices, hshape, List.all_eq_true]
      exact hfuel
    | checked =>
      refine ⟨1, ?_⟩
      rw [boundSuffices, hshape]

theorem exists_bound_of_acc (h : Acc (flip (Refers typedDicts)) className) :
    ∀ fields, typedDicts[className]? = some fields → ∃ fuel, ∀ field ∈ fields,
      boundSuffices typedDicts fuel field.annotation.toList = true := by
  induction h with
  | intro className _ ih =>
    intro fields hfields
    apply exists_bound
    intro field hfield
    apply exists_bound_of_fields
    intro other otherFields hother hotherFields
    exact ih other ⟨fields, hfields, field, hfield, hother⟩ otherFields hotherFields

/-- No TypedDict that the checks of an annotation come to leads back to itself. -/
def NoCycle (typedDicts : TypedDicts) (declared : Chars) : Prop :=
  ∀ className other, checkedDict typedDicts declared = some className →
    ReflTransGen (Refers typedDicts) className other → ¬ TransGen (Refers typedDicts) other other

theorem exists_bound_iff :
    (∃ fuel, boundSuffices typedDicts fuel declared = true) ↔ NoCycle typedDicts declared := by
  constructor
  · rintro ⟨fuel, hfuel⟩ className other hchecked
    exact (acc_iff_no_cycle refers_finite).1 (acc_of_bound hfuel hchecked) other
  · intro h
    apply exists_bound_of_fields
    intro className fields hchecked hfields
    have hacc := (acc_iff_no_cycle refers_finite).2 fun other => h className other hchecked
    exact exists_bound_of_acc hacc fields hfields

/-! ## Injection -/

theorem buildValidatorLines_isSome (fuel : Nat) (boundary : BoundaryClass) :
    (buildValidatorLines typedDicts fuel boundary).isSome = true ↔
      (boundary.adapter = .builtin → ∀ field ∈ boundary.fields,
        boundSuffices typedDicts fuel field.annotation.toList = true) := by
  unfold buildValidatorLines
  cases hadapter : boundary.adapter with
  | builtin =>
    have hfield : ∀ field, (emitDataclassField typedDicts fuel boundary.classIndent field).isSome
        = boundSuffices typedDicts fuel field.annotation.toList := by
      intro field
      rw [emitDataclassField]
      split <;> rw [Option.isSome_map, emitValidationLines_isSome]
    dsimp only
    rw [Option.isSome_map, isSome_mapM, List.all_eq_true]
    simp only [hfield, forall_const]
  | pydantic => simp
  | msgspec => simp
  | cattrs => simp

/-- A bound is enough for a text if it is for the fields of its boundary dataclasses. -/
theorem injectRuntimeValidators_isSome (fuel : Nat) (sourcePath python : String) :
    (∃ result, injectRuntimeValidators fuel sourcePath python = some result)
      ↔ ∀ boundary ∈ collectBoundaryClasses (sourceLines python.toList),
        boundary.adapter = .builtin → ∀ field ∈ boundary.fields,
          boundSuffices (collectTypedDictFields (sourceLines python.toList)) fuel
            field.annotation.toList = true := by
  rw [← Option.isSome_iff_exists, injectRuntimeValidators]
  dsimp only
  rw [Option.isSome_map, isSome_mapM, List.all_eq_true]
  simp only [buildValidatorLines_isSome]

/-- Validators are generated exactly when no TypedDict that the fields of a boundary dataclass
come to leads back to itself. -/
theorem injectRuntimeValidators_returns_iff (sourcePath python : String) :
    (∃ fuel result, injectRuntimeValidators fuel sourcePath python = some result)
      ↔ ∀ boundary ∈ collectBoundaryClasses (sourceLines python.toList),
        boundary.adapter = .builtin → ∀ field ∈ boundary.fields,
          NoCycle (collectTypedDictFields (sourceLines python.toList)) field.annotation.toList := by
  simp only [injectRuntimeValidators_isSome]
  constructor
  · rintro ⟨fuel, hfuel⟩ boundary hboundary hadapter field hfield
    exact exists_bound_iff.1 ⟨fuel, hfuel boundary hboundary hadapter field hfield⟩
  · intro h
    -- one bound for the fields of all boundaries
    let builtinClasses := (collectBoundaryClasses (sourceLines python.toList)).filter
      fun boundary => boundary.adapter = .builtin
    have hfields : ∀ field ∈ builtinClasses.flatMap BoundaryClass.fields,
        ∃ fuel, boundSuffices (collectTypedDictFields (sourceLines python.toList)) fuel
          field.annotation.toList = true := by
      intro field hfield
      rcases List.mem_flatMap.1 hfield with ⟨boundary, hboundary, hfield⟩
      rw [List.mem_filter, decide_eq_true_eq] at hboundary
      exact exists_bound_iff.2 (h boundary hboundary.1 hboundary.2 field hfield)
    rcases exists_bound hfields with ⟨fuel, hfuel⟩
    refine ⟨fuel, ?_⟩
    intro boundary hboundary hadapter field hfield
    apply hfuel
    rw [List.mem_flatMap]
    refine ⟨boundary, ?_, hfield⟩
    rw [List.mem_filter, decide_eq_true_eq]
    exact ⟨hboundary, hadapter⟩

/-! ## A TypedDict that refers to itself -/

/-- A linked node as the payload of a request. -/
def linkedNodes : String :=
  "class Node(TypedDict):\n    next: NotRequired[Node]\n\n@dataclass\nclass Request:\n    node: Node\n"

/-- No bound is enough. -/
theorem linkedNodes_not_returned :
    ¬ ∃ fuel result, injectRuntimeValidators fuel "m.tpy" linkedNodes = some result := by
  rintro ⟨fuel, hreturns⟩
  have hnode : checkedDict (collectTypedDictFields (sourceLines linkedNodes.toList)) "Node".toList
      = some "Node" := by
    decide +kernel
  have hrefers : Refers (collectTypedDictFields (sourceLines linkedNodes.toList)) "Node" "Node" :=
    ⟨[⟨"next", "NotRequired[Node]", false⟩], by decide +kernel,
      ⟨"next", "NotRequired[Node]", false⟩, List.mem_cons_self, by decide +kernel⟩
  have hboundary : ∃ boundary ∈ collectBoundaryClasses (sourceLines linkedNodes.toList),
      boundary.adapter = .builtin ∧ ⟨"node", "Node", false⟩ ∈ boundary.fields := by
    decide +kernel
  rcases hboundary with ⟨boundary, hmem, hadapter, hfield⟩
  have hbound := (injectRuntimeValidators_isSome fuel "m.tpy" linkedNodes).1 hreturns boundary hmem
    hadapter _ hfield
  exact not_transGen_of_acc (acc_of_bound hbound hnode) (TransGen.single hrefers)

end TypePython.Emit
