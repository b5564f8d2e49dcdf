import Mathlib.Data.List.Basic
import TypePython.Checking.SemanticType

/-!
# Typed dict literals

The entries of a dict display against the shape of the typed dict that it is assigned to. A value
is known by its type: a dict says for every key which type the value under it has.

* `builds_last`: the value under a key is that of the last entry that sets it;
* `literalSound_iff`: when a display without diagnostics builds dicts of the shape.
-/

namespace TypePython.Checking.DictLiterals

/-! ## Shapes -/

structure TypedDictFieldShape where
  semanticValueType : Option SemanticType
  required : Bool

structure TypedDictExtraItemsShape where
  semanticValueType : Option SemanticType
  renderedValueType : String

/-- The shape of a typed dict, with one field for each key. -/
structure TypedDictShape where
  name : String
  fields : List (String × TypedDictFieldShape)
  closed : Bool := false
  extraItems : Option TypedDictExtraItemsShape := none
  distinct : (fields.map Prod.fst).Nodup

def TypedDictShape.hasUnboundedExtraKeys (shape : TypedDictShape) : Bool :=
  !shape.closed && shape.extraItems.isNone

def TypedDictShape.field (shape : TypedDictShape) (key : String) : Option TypedDictFieldShape :=
  shape.fields.lookup key

inductive TypedDictFieldShapeRef where
  | known (field : TypedDictFieldShape)
  | extra (items : TypedDictExtraItemsShape)

def TypedDictFieldShapeRef.semanticValueType : TypedDictFieldShapeRef → Option SemanticType
  | .known field => field.semanticValueType
  | .extra items => items.semanticValueType

def typedDictKnownOrExtraField (shape : TypedDictShape) (key : String) :
    Option TypedDictFieldShapeRef :=
  match shape.field key with
  | some field => some (.known field)
  | none => shape.extraItems.map .extra

/-! ## Diagnostics -/

inductive LiteralReport where
  | invalidExpansion
  | invalidExpansionOf (ty : SemanticType)
  | openExpansion (expansion : String)
  | expandsUnknownKey (key : String)
  | expandsWith (key : String) (actual expected : SemanticType)
  | additionalKeys (expansion : String) (renderedValueType : String)
  | nonLiteralKey
  | unknownKey (key : String)
  | assigns (actual : SemanticType) (key : String) (expected : SemanticType)
  | missingKey (key : String)

def LiteralReport.message (target : String) (report : LiteralReport) : String :=
  "TypedDict literal for \x60" ++ target ++ "\x60" ++
    match report with
    | .invalidExpansion => " uses invalid \x60**\x60 expansion"
    | .invalidExpansionOf ty => " uses invalid \x60**\x60 expansion of \x60" ++ renderSemanticType ty ++ "\x60"
    | .openExpansion expansion =>
      " cannot expand open TypedDict \x60" ++ expansion ++ "\x60 because it may contain undeclared keys"
    | .expandsUnknownKey key => " expands unknown key \x60" ++ key ++ "\x60"
    | .expandsWith key actual expected =>
      " expands \x60" ++ key ++ "\x60 with \x60" ++ renderSemanticType actual ++ "\x60 where \x60" ++ key
        ++ "\x60 expects \x60" ++ renderSemanticType expected ++ "\x60"
    | .additionalKeys expansion renderedValueType =>
      " expands \x60" ++ expansion ++ "\x60 with additional keys of type \x60" ++ renderedValueType
        ++ "\x60 that are not accepted by the target"
    | .nonLiteralKey => " uses a non-literal key"
    | .unknownKey key => " uses unknown key \x60" ++ key ++ "\x60"
    | .assigns actual key expected =>
      " assigns \x60" ++ renderSemanticType actual ++ "\x60 to key \x60" ++ key ++ "\x60 where \x60" ++ key
        ++ "\x60 expects \x60" ++ renderSemanticType expected ++ "\x60"
    | .missingKey key => " is missing required key \x60" ++ key ++ "\x60"

/-- An entry of a dict display; an expansion has no key. -/
structure TypedDictLiteralEntry (Expr : Type) where
  key : Option String
  value : Expr
  isExpansion : Bool := false

/-- What the checker finds out about values and types. -/
structure LiteralContext (Expr : Type) where
  valueType : Expr → Option SemanticType
  shapeOf : SemanticType → Option TypedDictShape
  isAssignable : SemanticType → SemanticType → Bool

section

variable {Expr : Type} (context : LiteralContext Expr) (target : TypedDictShape)

/-- One field of an expansion: what is reported, and the keys that are now guaranteed. -/
def checkExpandedField (item : String × TypedDictFieldShape) : List LiteralReport × List String :=
  match typedDictKnownOrExtraField target item.1 with
  | none => ([.expandsUnknownKey item.1], [])
  | some targetField =>
    match targetField.semanticValueType, item.2.semanticValueType with
    | some expected, some actual =>
      (if context.isAssignable expected actual then [] else [.expandsWith item.1 actual expected],
        if item.2.required then [item.1] else [])
    | _, _ => ([], [])

/-- Whether the extra items of an expansion may not stand among those of the target. -/
def refusesExtraItems (extra : TypedDictExtraItemsShape) : Bool :=
  match target.extraItems with
  | none => true
  | some targetExtra =>
    match targetExtra.semanticValueType, extra.semanticValueType with
    | some expected, some actual => !context.isAssignable expected actual
    | _, _ => true

def checkExpansion (shape : TypedDictShape) : List LiteralReport × List String :=
  if shape.hasUnboundedExtraKeys = true ∧ target.extraItems.isNone = true then
    ([.openExpansion shape.name], [])
  else
    let checked := shape.fields.map (checkExpandedField context target)
    let additional :=
      match shape.extraItems with
      | some extra =>
        if refusesExtraItems context target extra then
          [.additionalKeys shape.name extra.renderedValueType]
        else []
      | none => []
    (checked.flatMap Prod.fst ++ additional, checked.flatMap Prod.snd)

def checkKeyed (key : String) (value : Expr) : List LiteralReport × List String :=
  match typedDictKnownOrExtraField target key with
  | none => ([.unknownKey key], [])
  | some targetField =>
    match context.valueType value with
    | none => ([], [key])
    | some actual =>
      match targetField.semanticValueType with
      | none => ([], [])
      | some expected =>
        (if context.isAssignable expected actual then [] else [.assigns actual key expected], [key])

def checkEntry (entry : TypedDictLiteralEntry Expr) : List LiteralReport × List String :=
  if entry.isExpansion then
    match context.valueType entry.value with
    | none => ([.invalidExpansion], [])
    | some ty =>
      match context.shapeOf ty with
      | none => ([.invalidExpansionOf ty], [])
      | some shape => checkExpansion context target shape
  else
    match entry.key with
    | none => ([.nonLiteralKey], [])
    | some key => checkKeyed context target key entry.value

def typedDictLiteralEntryDiagnostics (entries : List (TypedDictLiteralEntry Expr)) :
    List LiteralReport :=
  let checked := entries.map (checkEntry context target)
  let guaranteedKeys := checked.flatMap Prod.snd
  checked.flatMap Prod.fst
    ++ (target.fields.filter fun item => item.2.required && !guaranteedKeys.contains item.1).map
      fun item => .missingKey item.1

end

/-! ## The dict that is built -/

/-- The types of the values that stand under the keys. -/
abbrev Dict := String → Option SemanticType

/-- A value of a known type has that type; one of an unknown type may have any. -/
def MayHave (known : Option SemanticType) (actual : SemanticType) : Prop :=
  ∀ ty, known = some ty → actual = ty

def TypedDictShape.AllowsExtra (shape : TypedDictShape) (actual : SemanticType) : Prop :=
  match shape.extraItems with
  | some extra => MayHave extra.semanticValueType actual
  | none => shape.closed = false

/-- A value of a typed dict: all required keys, any of the others, and what it may have besides. -/
structure HasShape (shape : TypedDictShape) (dict : Dict) : Prop where
  required : ∀ key field, shape.field key = some field → field.required = true →
    (dict key).isSome = true
  fields : ∀ key field, shape.field key = some field →
    ∀ actual, dict key = some actual → MayHave field.semanticValueType actual
  extra : ∀ key, shape.field key = none → ∀ actual, dict key = some actual → shape.AllowsExtra actual

def single (key : String) (actual : SemanticType) : Dict :=
  fun other => if other = key then some actual else none

section

variable {Expr : Type} (context : LiteralContext Expr) (target : TypedDictShape)

def TypedDictLiteralEntry.shape (entry : TypedDictLiteralEntry Expr) : Option TypedDictShape :=
  if entry.isExpansion then (context.valueType entry.value).bind context.shapeOf else none

/-- What an entry with a literal key, or an expansion of a typed dict, can put into the dict. -/
inductive Gives (entry : TypedDictLiteralEntry Expr) : Dict → Prop
  | keyed {key : String} {actual : SemanticType} : entry.isExpansion = false → entry.key = some key →
      MayHave (context.valueType entry.value) actual → Gives entry (single key actual)
  | expansion {shape : TypedDictShape} {dict : Dict} : entry.shape context = some shape →
      HasShape shape dict → Gives entry dict

/-- The entries are applied in order, so that a later one wins. -/
def Builds : List (TypedDictLiteralEntry Expr) → Dict → Prop
  | [], dict => dict = fun _ => none
  | entry :: rest, dict =>
    ∃ part later, Gives context entry part ∧ Builds rest later
      ∧ dict = fun key => (later key).or (part key)

/-- The target has a place for a value of a type under a key. -/
def Admits (key : String) (actual : SemanticType) : Prop :=
  ∃ targetField, typedDictKnownOrExtraField target key = some targetField
    ∧ ∀ expected, targetField.semanticValueType = some expected →
      context.isAssignable expected actual = true

structure Conforms (dict : Dict) : Prop where
  required : ∀ key field, (key, field) ∈ target.fields → field.required = true →
    (dict key).isSome = true
  values : ∀ key actual, dict key = some actual → Admits context target key actual

def LiteralSound (entries : List (TypedDictLiteralEntry Expr)) : Prop :=
  ∀ dict, Builds context entries dict → Conforms context target dict

/-! ## What is not compared -/

def SurelySets (entry : TypedDictLiteralEntry Expr) (key : String) : Prop :=
  (entry.isExpansion = false ∧ entry.key = some key)
    ∨ ∃ shape field, entry.shape context = some shape ∧ shape.field key = some field
      ∧ field.required = true

/-- A key whose value the diagnostics do not look at: one without a type, and a further key of an
expansion that the target declares or that an open expansion has. -/
inductive Unchecked (entry : TypedDictLiteralEntry Expr) (key : String) : Prop
  | keyed : entry.isExpansion = false → entry.key = some key →
      context.valueType entry.value = none → Unchecked entry key
  | field {shape : TypedDictShape} {field : TypedDictFieldShape} : entry.shape context = some shape →
      shape.field key = some field → field.semanticValueType = none → Unchecked entry key
  | extra {shape : TypedDictShape} : entry.shape context = some shape → shape.field key = none →
      (target.field key).isSome = true ∨ shape.hasUnboundedExtraKeys = true → Unchecked entry key

/-- Every value under a key that is not looked at has a place in the target, unless a later entry
surely sets the key. -/
def UncheckedFit (entries : List (TypedDictLiteralEntry Expr)) : Prop :=
  ∀ before entry after, entries = before ++ entry :: after →
    ∀ key actual part, Unchecked context target entry key → Gives context entry part →
      part key = some actual → (∀ later ∈ after, ¬ SurelySets context later key) →
        Admits context target key actual

end

/-! ## Fields -/

theorem field_of_mem {shape : TypedDictShape} {key : String} {field : TypedDictFieldShape}
    (h : (key, field) ∈ shape.fields) : shape.field key = some field := by
  rcases List.append_of_mem h with ⟨front, back, hfields⟩
  refine List.lookup_eq_some_iff.mpr ⟨front, back, hfields, fun other hother => ?_⟩
  have hdistinct := shape.distinct
  rw [hfields, List.map_append, List.map_cons] at hdistinct
  have hne := (List.nodup_append.mp hdistinct).2.2 other.1 (List.mem_map_of_mem hother) key
    List.mem_cons_self
  exact bne_iff_ne.mpr (Ne.symm hne)

theorem mem_of_field {shape : TypedDictShape} {key : String} {field : TypedDictFieldShape}
    (h : shape.field key = some field) : (key, field) ∈ shape.fields := by
  rcases List.lookup_eq_some_iff.mp h with ⟨front, back, hfields, -⟩
  rw [hfields]
  exact List.mem_append_right _ List.mem_cons_self

/-! ## What no diagnostic means -/

section

variable {Expr : Type} {context : LiteralContext Expr} {target : TypedDictShape}

/-- The field of an expansion that nothing is reported of. -/
theorem admits_of_checkExpandedField {key : String} {field : TypedDictFieldShape}
    {actual : SemanticType} (h : (checkExpandedField context target (key, field)).1 = [])
    (hactual : field.semanticValueType = some actual) : Admits context target key actual := by
  unfold checkExpandedField at h
  dsimp only at h
  cases htarget : typedDictKnownOrExtraField target key with
  | none =>
    rw [htarget] at h
    cases h
  | some targetField =>
    refine ⟨targetField, htarget, fun expected hexpected => ?_⟩
    rw [htarget] at h
    dsimp only at h
    rw [hexpected, hactual] at h
    dsimp only at h
    by_contra hnot
    rw [if_neg hnot] at h
    cases h

theorem admits_of_extraItems {extra : TypedDictExtraItemsShape} {key : String}
    {actual : SemanticType} (h : refusesExtraItems context target extra = false)
    (hkey : target.field key = none) (hactual : MayHave extra.semanticValueType actual) :
    Admits context target key actual := by
  unfold refusesExtraItems at h
  cases htarget : target.extraItems with
  | none =>
    rw [htarget] at h
    cases h
  | some targetExtra =>
    rw [htarget] at h
    dsimp only at h
    split at h
    · rename_i expected known hexpected hknown
      refine ⟨.extra targetExtra, ?_, fun other hother => ?_⟩
      · unfold typedDictKnownOrExtraField
        rw [hkey, htarget]
        rfl
      · have hother : targetExtra.semanticValueType = some other := hother
        rw [hexpected] at hother
        rw [hactual known hknown, ← Option.some.inj hother]
        rwa [Bool.not_eq_false'] at h
    · cases h

theorem admits_of_checkKeyed {key : String} {value : Expr} {actual : SemanticType}
    (h : (checkKeyed context target key value).1 = [])
    (hactual : context.valueType value = some actual) : Admits context target key actual := by
  unfold checkKeyed at h
  cases htarget : typedDictKnownOrExtraField target key with
  | none =>
    rw [htarget] at h
    cases h
  | some targetField =>
    refine ⟨targetField, htarget, fun expected hexpected => ?_⟩
    rw [htarget] at h
    dsimp only at h
    rw [hactual] at h
    dsimp only at h
    rw [hexpected] at h
    dsimp only at h
    by_contra hnot
    rw [if_neg hnot] at h
    cases h

theorem checkEntry_keyed {entry : TypedDictLiteralEntry Expr} {key : String}
    (hkind : entry.isExpansion = false) (hkey : entry.key = some key) :
    checkEntry context target entry = checkKeyed context target key entry.value := by
  unfold checkEntry
  rw [hkind, if_neg (by decide), hkey]

theorem shape_eq_some {entry : TypedDictLiteralEntry Expr} {shape : TypedDictShape}
    (h : entry.shape context = some shape) : entry.isExpansion = true
      ∧ ∃ ty, context.valueType entry.value = some ty ∧ context.shapeOf ty = some shape := by
  unfold TypedDictLiteralEntry.shape at h
  split at h
  · rename_i hkind
    exact ⟨hkind, Option.bind_eq_some_iff.mp h⟩
  · cases h

theorem checkEntry_expansion {entry : TypedDictLiteralEntry Expr} {shape : TypedDictShape}
    (h : entry.shape context = some shape) :
    checkEntry context target entry = checkExpansion context target shape := by
  rcases shape_eq_some h with ⟨hkind, ty, hty, hshape⟩
  unfold checkEntry
  rw [hkind, if_pos rfl, hty]
  dsimp only
  rw [hshape]

/-- An expansion of which nothing is reported. -/
theorem checkExpansion_silent {shape : TypedDictShape}
    (h : (checkExpansion context target shape).1 = []) :
    (∀ item ∈ shape.fields, (checkExpandedField context target item).1 = [])
      ∧ ∀ extra, shape.extraItems = some extra → refusesExtraItems context target extra = false := by
  unfold checkExpansion at h
  split at h
  · cases h
  · rcases List.append_eq_nil_iff.mp h with ⟨hfields, hextra⟩
    refine ⟨fun item hmem => ?_, fun extra hitems => ?_⟩
    · exact List.flatMap_eq_nil_iff.mp hfields _ (List.mem_map_of_mem hmem)
    · rw [hitems] at hextra
      dsimp only at hextra
      rw [← Bool.not_eq_true]
      intro hrefuses
      rw [if_pos hrefuses] at hextra
      cases hextra

/-- What is looked at and not reported has a place in the target. -/
theorem admits_of_checked {entry : TypedDictLiteralEntry Expr} {key : String}
    {actual : SemanticType} {part : Dict} (h : (checkEntry context target entry).1 = [])
    (hgives : Gives context entry part) (hpart : part key = some actual)
    (hchecked : ¬ Unchecked context target entry key) : Admits context target key actual := by
  cases hgives with
  | @keyed other given hkind hkey hmay =>
    unfold single at hpart
    split at hpart
    · rename_i heq
      rw [checkEntry_keyed hkind hkey] at h
      rw [← Option.some.inj hpart, heq]
      cases hvalue : context.valueType entry.value with
      | none => exact absurd (Unchecked.keyed hkind (heq ▸ hkey) hvalue) hchecked
      | some ty =>
        rw [hmay ty hvalue]
        exact admits_of_checkKeyed h hvalue
    · cases hpart
  | @expansion shape _ hshape hhas =>
    rw [checkEntry_expansion hshape] at h
    rcases checkExpansion_silent h with ⟨hfields, hextra⟩
    cases hfield : shape.field key with
    | some field =>
      cases hvalue : field.semanticValueType with
      | none => exact absurd (Unchecked.field hshape hfield hvalue) hchecked
      | some ty =>
        rw [hhas.fields key field hfield actual hpart ty hvalue]
        exact admits_of_checkExpandedField (hfields _ (mem_of_field hfield)) hvalue
    | none =>
      have hnot := fun hor => hchecked (Unchecked.extra hshape hfield hor)
      have hkey : target.field key = none := by
        rw [← Option.not_isSome_iff_eq_none]
        exact fun hsome => hnot (Or.inl hsome)
      have hallows := hhas.extra key hfield actual hpart
      unfold TypedDictShape.AllowsExtra at hallows
      cases hitems : shape.extraItems with
      | some extra =>
        rw [hitems] at hallows
        exact admits_of_extraItems (hextra extra hitems) hkey hallows
      | none =>
        rw [hitems] at hallows
        refine absurd (Or.inr ?_) hnot
        unfold TypedDictShape.hasUnboundedExtraKeys
        rw [hallows, hitems]
        rfl

theorem checkEntry_valid {entry : TypedDictLiteralEntry Expr}
    (h : (checkEntry context target entry).1 = []) :
    (entry.isExpansion = false ∧ ∃ key, entry.key = some key)
      ∨ ∃ shape, entry.shape context = some shape := by
  unfold checkEntry at h
  split at h
  · rename_i hkind
    refine Or.inr ?_
    cases hty : context.valueType entry.value with
    | none =>
      rw [hty] at h
      cases h
    | some ty =>
      rw [hty] at h
      dsimp only at h
      cases hshape : context.shapeOf ty with
      | none =>
        rw [hshape] at h
        cases h
      | some shape =>
        refine ⟨shape, ?_⟩
        unfold TypedDictLiteralEntry.shape
        rw [if_pos hkind, hty]
        exact hshape
  · rename_i hkind
    refine Or.inl ⟨Bool.not_eq_true _ ▸ hkind, ?_⟩
    cases hkey : entry.key with
    | none =>
      rw [hkey] at h
      cases h
    | some key => exact ⟨key, rfl⟩

theorem mem_checkKeyed {key other : String} {value : Expr}
    (h : other ∈ (checkKeyed context target key value).2) : other = key := by
  unfold checkKeyed at h
  split at h
  · exact absurd h List.not_mem_nil
  · split at h
    · exact List.mem_singleton.mp h
    · split at h
      · exact absurd h List.not_mem_nil
      · exact List.mem_singleton.mp h

theorem mem_checkExpandedField {item : String × TypedDictFieldShape} {key : String}
    (h : key ∈ (checkExpandedField context target item).2) :
    key = item.1 ∧ item.2.required = true := by
  unfold checkExpandedField at h
  split at h
  · exact absurd h List.not_mem_nil
  · split at h
    · dsimp only at h
      split at h
      · rename_i hrequired
        exact ⟨List.mem_singleton.mp h, hrequired⟩
      · exact absurd h List.not_mem_nil
    · exact absurd h List.not_mem_nil

theorem mem_checkExpansion {shape : TypedDictShape} {key : String}
    (h : key ∈ (checkExpansion context target shape).2) :
    ∃ field, shape.field key = some field ∧ field.required = true := by
  unfold checkExpansion at h
  split at h
  · exact absurd h List.not_mem_nil
  · rcases List.mem_flatMap.mp h with ⟨checked, hchecked, hkey⟩
    rcases List.mem_map.mp hchecked with ⟨item, hitem, rfl⟩
    rcases mem_checkExpandedField hkey with ⟨rfl, hrequired⟩
    exact ⟨item.2, field_of_mem hitem, hrequired⟩

/-- A guaranteed key is set whatever the values are. -/
theorem surelySets_of_guaranteed {entry : TypedDictLiteralEntry Expr} {key : String}
    (hsilent : (checkEntry context target entry).1 = [])
    (h : key ∈ (checkEntry context target entry).2) : SurelySets context entry key := by
  rcases checkEntry_valid hsilent with ⟨hkind, other, hother⟩ | ⟨shape, hshape⟩
  · rw [checkEntry_keyed hkind hother] at h
    rw [mem_checkKeyed h]
    exact Or.inl ⟨hkind, hother⟩
  · rw [checkEntry_expansion hshape] at h
    rcases mem_checkExpansion h with ⟨field, hfield, hrequired⟩
    exact Or.inr ⟨shape, field, hshape, hfield, hrequired⟩

/-- A display without diagnostics: nothing is reported of an entry, and every required key of the
target is surely set. -/
theorem diagnostics_silent {entries : List (TypedDictLiteralEntry Expr)}
    (h : typedDictLiteralEntryDiagnostics context target entries = []) :
    (∀ entry ∈ entries, (checkEntry context target entry).1 = [])
      ∧ ∀ key field, (key, field) ∈ target.fields → field.required = true →
        ∃ entry ∈ entries, SurelySets context entry key := by
  unfold typedDictLiteralEntryDiagnostics at h
  rcases List.append_eq_nil_iff.mp h with ⟨hentries, hmissing⟩
  have hsilent : ∀ entry ∈ entries, (checkEntry context target entry).1 = [] := fun entry hmem =>
    List.flatMap_eq_nil_iff.mp hentries _ (List.mem_map_of_mem hmem)
  refine ⟨hsilent, fun key field hmem hrequired => ?_⟩
  by_contra hnone
  have hmissing := List.map_eq_nil_iff.mp hmissing
  refine List.filter_eq_nil_iff.mp hmissing (key, field) hmem ?_
  dsimp only
  rw [hrequired, Bool.true_and, Bool.not_eq_true', List.contains_eq_mem, decide_eq_false_iff_not]
  intro hin
  rcases List.mem_flatMap.mp hin with ⟨checked, hchecked, hkey⟩
  rcases List.mem_map.mp hchecked with ⟨entry, hentry, rfl⟩
  exact hnone ⟨entry, hentry, surelySets_of_guaranteed (hsilent entry hentry) hkey⟩

/-! ## Building dicts -/

theorem isSome_of_surelySets {entry : TypedDictLiteralEntry Expr} {key : String} {part : Dict}
    (h : SurelySets context entry key) (hgives : Gives context entry part) :
    (part key).isSome = true := by
  cases hgives with
  | @keyed other actual hkind hkey hmay =>
    rcases h with ⟨-, hother⟩ | ⟨shape, field, hshape, -⟩
    · have heq : key = other := Option.some.inj (hother.symm.trans hkey)
      unfold single
      rw [if_pos heq]
      rfl
    · rw [(shape_eq_some hshape).1] at hkind
      cases hkind
  | @expansion shape _ hshape hhas =>
    rcases h with ⟨hkind, -⟩ | ⟨other, field, hother, hfield, hrequired⟩
    · rw [(shape_eq_some hshape).1] at hkind
      cases hkind
    · rw [hshape] at hother
      rw [← Option.some.inj hother] at hfield
      exact hhas.required key field hfield hrequired

/-- What is surely set by an entry is in the dict. -/
theorem builds_surelySets {entries : List (TypedDictLiteralEntry Expr)} : ∀ {dict : Dict},
    Builds context entries dict → ∀ entry ∈ entries, ∀ key, SurelySets context entry key →
      (dict key).isSome = true := by
  induction entries with
  | nil => exact fun _ _ hmem => absurd hmem List.not_mem_nil
  | cons first rest ih =>
    rintro dict ⟨part, later, hgives, hrest, rfl⟩ entry hmem key hsets
    dsimp only
    rw [Option.isSome_or, Bool.or_eq_true]
    rcases List.mem_cons.mp hmem with rfl | hmem
    · exact Or.inr (isSome_of_surelySets hsets hgives)
    · exact Or.inl (ih hrest entry hmem key hsets)

/-- The value under a key is that of the last entry that sets it. -/
theorem builds_last {entries : List (TypedDictLiteralEntry Expr)} : ∀ {dict : Dict},
    Builds context entries dict → ∀ key actual, dict key = some actual →
      ∃ before entry after part, entries = before ++ entry :: after ∧ Gives context entry part
        ∧ part key = some actual ∧ ∀ later ∈ after, ¬ SurelySets context later key := by
  induction entries with
  | nil =>
    intro dict h key actual hkey
    rw [show dict = fun _ => none from h] at hkey
    cases hkey
  | cons first rest ih =>
    rintro dict ⟨part, later, hgives, hrest, rfl⟩ key actual hkey
    cases hlater : later key with
    | some found =>
      have hfound : later key = some actual := by
        dsimp only at hkey
        rw [hlater, Option.some_or] at hkey
        rw [hlater, hkey]
      rcases ih hrest key actual hfound with ⟨before, entry, after, given, rfl, hlast⟩
      exact ⟨first :: before, entry, after, given, rfl, hlast⟩
    | none =>
      dsimp only at hkey
      rw [hlater, Option.none_or] at hkey
      refine ⟨[], first, rest, part, rfl, hgives, hkey, fun entry hmem hsets => ?_⟩
      have hsome := builds_surelySets hrest entry hmem key hsets
      rw [hlater] at hsome
      cases hsome

/-- The required keys of a shape and no others. -/
def leastDict (shape : TypedDictShape) : Dict := fun key =>
  (shape.field key).bind fun field =>
    if field.required then some (field.semanticValueType.getD (.name "object")) else none

theorem hasShape_leastDict (shape : TypedDictShape) : HasShape shape (leastDict shape) where
  required key field hfield hrequired := by
    unfold leastDict
    rw [hfield, Option.bind_some, if_pos hrequired]
    rfl
  fields key field hfield actual hactual ty hty := by
    unfold leastDict at hactual
    rw [hfield, Option.bind_some] at hactual
    split at hactual
    · rw [← Option.some.inj hactual, hty]
      rfl
    · cases hactual
  extra key hfield actual hactual := by
    unfold leastDict at hactual
    rw [hfield] at hactual
    cases hactual

/-- An entry that need not set a key can leave it out. -/
theorem exists_gives_without {entry : TypedDictLiteralEntry Expr} {key : String}
    (hvalid : (checkEntry context target entry).1 = []) (h : ¬ SurelySets context entry key) :
    ∃ part, Gives context entry part ∧ part key = none := by
  rcases checkEntry_valid hvalid with ⟨hkind, other, hother⟩ | ⟨shape, hshape⟩
  · have hmay : MayHave (context.valueType entry.value)
        ((context.valueType entry.value).getD (.name "object")) := by
      intro ty hty
      rw [hty]
      rfl
    refine ⟨_, Gives.keyed hkind hother hmay, ?_⟩
    unfold single
    rw [if_neg]
    rintro rfl
    exact h (Or.inl ⟨hkind, hother⟩)
  · refine ⟨_, Gives.expansion hshape (hasShape_leastDict shape), ?_⟩
    unfold leastDict
    cases hfield : shape.field key with
    | none => rfl
    | some field =>
      rw [Option.bind_some, if_neg]
      exact fun hrequired => h (Or.inr ⟨shape, field, hshape, hfield, hrequired⟩)

theorem exists_gives {entry : TypedDictLiteralEntry Expr}
    (hvalid : (checkEntry context target entry).1 = []) : ∃ part, Gives context entry part := by
  rcases checkEntry_valid hvalid with ⟨hkind, key, hkey⟩ | ⟨shape, hshape⟩
  · have hmay : MayHave (context.valueType entry.value)
        ((context.valueType entry.value).getD (.name "object")) := by
      intro ty hty
      rw [hty]
      rfl
    exact ⟨_, Gives.keyed hkind hkey hmay⟩
  · exact ⟨_, Gives.expansion hshape (hasShape_leastDict shape)⟩

theorem exists_builds_without {entries : List (TypedDictLiteralEntry Expr)} {key : String}
    (hvalid : ∀ entry ∈ entries, (checkEntry context target entry).1 = [])
    (h : ∀ entry ∈ entries, ¬ SurelySets context entry key) :
    ∃ dict, Builds context entries dict ∧ dict key = none := by
  induction entries with
  | nil => exact ⟨fun _ => none, rfl, rfl⟩
  | cons first rest ih =>
    rcases ih (fun entry hmem => hvalid entry (List.mem_cons_of_mem _ hmem))
      (fun entry hmem => h entry (List.mem_cons_of_mem _ hmem)) with ⟨later, hlater, hkey⟩
    rcases exists_gives_without (hvalid first List.mem_cons_self) (h first List.mem_cons_self)
      with ⟨part, hgives, hpart⟩
    refine ⟨_, ⟨part, later, hgives, hlater, rfl⟩, ?_⟩
    rw [hkey, hpart]
    rfl

/-- A value that an entry can give stands in a dict when no later entry surely sets its key. -/
theorem exists_builds_with {before : List (TypedDictLiteralEntry Expr)}
    {entry : TypedDictLiteralEntry Expr} {after : List (TypedDictLiteralEntry Expr)} {key : String}
    {actual : SemanticType} {part : Dict}
    (hvalid : ∀ other ∈ before ++ entry :: after, (checkEntry context target other).1 = [])
    (hgives : Gives context entry part) (hpart : part key = some actual)
    (h : ∀ later ∈ after, ¬ SurelySets context later key) :
    ∃ dict, Builds context (before ++ entry :: after) dict ∧ dict key = some actual := by
  induction before with
  | nil =>
    rcases exists_builds_without (fun other hmem => hvalid other (List.mem_cons_of_mem _ hmem)) h
      with ⟨later, hlater, hkey⟩
    refine ⟨_, ⟨part, later, hgives, hlater, rfl⟩, ?_⟩
    rw [hkey, hpart]
    rfl
  | cons first rest ih =>
    rcases ih fun other hmem => hvalid other (List.mem_cons_of_mem _ hmem)
      with ⟨later, hlater, hkey⟩
    rcases exists_gives (hvalid first List.mem_cons_self) with ⟨own, hown⟩
    refine ⟨_, ⟨own, later, hown, hlater, rfl⟩, ?_⟩
    rw [hkey]
    rfl

/-- A display of which nothing is reported builds dicts of the target's shape exactly when the
values that are not looked at have a place in it. -/
theorem literalSound_iff {entries : List (TypedDictLiteralEntry Expr)}
    (h : typedDictLiteralEntryDiagnostics context target entries = []) :
    LiteralSound context target entries ↔ UncheckedFit context target entries := by
  rcases diagnostics_silent h with ⟨hsilent, hrequired⟩
  constructor
  · rintro hsound before entry after rfl key actual part _ hgives hpart hlast
    rcases exists_builds_with hsilent hgives hpart hlast with ⟨dict, hbuilds, hkey⟩
    exact (hsound dict hbuilds).values key actual hkey
  · intro hfit dict hbuilds
    refine ⟨fun key field hmem hfield => ?_, fun key actual hkey => ?_⟩
    · rcases hrequired key field hmem hfield with ⟨entry, hentry, hsets⟩
      exact builds_surelySets hbuilds entry hentry key hsets
    · rcases builds_last hbuilds key actual hkey
        with ⟨before, entry, after, part, rfl, hgives, hpart, hlast⟩
      by_cases hunchecked : Unchecked context target entry key
      · exact hfit before entry after rfl key actual part hunchecked hgives hpart hlast
      · have hentry : entry ∈ before ++ entry :: after :=
          List.mem_append_right _ List.mem_cons_self
        exact admits_of_checked (hsilent entry hentry) hgives hpart hunchecked

end

/-! ## A further key that the target declares -/

def intItems : TypedDictExtraItemsShape where
  semanticValueType := some (.name "int")
  renderedValueType := "int"

/-- `class Numbers(TypedDict, extra_items=int)` with the key `id: int` -/
def numbers : TypedDictShape where
  name := "Numbers"
  fields := [("id", { semanticValueType := some (.name "int"), required := true })]
  extraItems := some intItems
  distinct := by decide

/-- `class Named(TypedDict, extra_items=int)` with the keys `id: int` and `name: NotRequired[str]` -/
def named : TypedDictShape where
  name := "Named"
  fields := [("id", { semanticValueType := some (.name "int"), required := true }),
    ("name", { semanticValueType := some (.name "str"), required := false })]
  extraItems := some intItems
  distinct := by decide

/-- The only value is one of the type `Numbers`. -/
def numbersContext : LiteralContext Unit where
  valueType _ := some (.name "Numbers")
  shapeOf _ := some numbers
  isAssignable expected actual := expected = actual

/-- `{**numbers}` -/
def numbersExpanded : TypedDictLiteralEntry Unit := { key := none, value := (), isExpansion := true }

theorem literalSound_iff_numbers : LiteralSound numbersContext named [numbersExpanded]
    ↔ UncheckedFit numbersContext named [numbersExpanded] :=
  literalSound_iff rfl

/-- `{"id": 1, "name": 2}` -/
def twoNumbers : Dict := fun key => if key = "id" ∨ key = "name" then some (.name "int") else none

theorem twoNumbers_int {key : String} {actual : SemanticType} (h : twoNumbers key = some actual) :
    actual = .name "int" := by
  unfold twoNumbers at h
  split at h
  · exact (Option.some.inj h).symm
  · cases h

theorem hasShape_twoNumbers : HasShape numbers twoNumbers where
  required key field hfield _ := by
    have hkey : key = "id" := (Prod.mk.inj (List.mem_singleton.mp (mem_of_field hfield))).1
    unfold twoNumbers
    rw [if_pos (Or.inl hkey)]
    rfl
  fields key field hfield actual hactual ty hty := by
    rw [(Prod.mk.inj (List.mem_singleton.mp (mem_of_field hfield))).2] at hty
    rw [twoNumbers_int hactual]
    exact Option.some.inj hty
  extra _ _ actual hactual ty hty := by
    rw [twoNumbers_int hactual]
    exact Option.some.inj hty

/-- A value of `Numbers` may have a number under the key `name`. -/
theorem numbersExpanded_unsound :
    typedDictLiteralEntryDiagnostics numbersContext named [numbersExpanded] = []
      ∧ ¬ LiteralSound numbersContext named [numbersExpanded] := by
  refine ⟨rfl, fun hsound => ?_⟩
  have hbuilds : Builds numbersContext [numbersExpanded] fun key =>
      (none : Option SemanticType).or (twoNumbers key) :=
    ⟨twoNumbers, fun _ => none, .expansion rfl hasShape_twoNumbers, rfl, rfl⟩
  rcases (hsound _ hbuilds).values "name" (.name "int") rfl with ⟨targetField, htarget, hassign⟩
  rw [← Option.some.inj htarget] at hassign
  exact absurd (hassign (.name "str") rfl) (by decide)

end TypePython.Checking.DictLiterals
