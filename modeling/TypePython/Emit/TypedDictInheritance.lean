import TypePython.Emit.TypedDictTransforms
import TypePython.Lib.InheritanceWalk

/-!
# What a TypedDict inherits

Which declaration of a field the lowering ends up with: the last of the class itself, else the one
of the last base that has the field, with the type parameters of that base replaced
(`resolveLocalTypedDictShape_spec`). The search is a walk over bases.
-/

namespace TypePython.Emit

open TypePython.Lib
open TypePython.Lib.Text
open TypePython.Syntax

section

variable (classes : List NamedBlockStatement)

/-- The class a base names, when it is not `TypedDict` or one of its companions. -/
def localBase (base : String) : Option NamedBlockStatement :=
  if isTypedDictBase base || isTypedDictSupportBase base then none
  else blockNamed classes (localBaseName base)

inductive IsTypedDict : NamedBlockStatement → Prop
  | listed {block : NamedBlockStatement} {base : String} :
      base ∈ block.bases → isTypedDictBase base = true → IsTypedDict block
  | inherited {block baseBlock : NamedBlockStatement} {base : String} :
      base ∈ block.bases → localBase classes base = some baseBlock → IsTypedDict baseBlock →
        IsTypedDict block

/-- A base that fields are inherited from. -/
structure TypedDictBase (base : String) (baseBlock : NamedBlockStatement) : Prop where
  named : localBase classes base = some baseBlock
  isTypedDict : IsTypedDict classes baseBlock

/-- The last declaration of a field in the body of a class. -/
def ownField (block : NamedBlockStatement) (name : String) : Option ShapeProjectionField :=
  lastItem ShapeProjectionField.name (ShapeProjection.fromTypedDictBlock block).fields name

/-- The class or a TypedDict it derives from declares the field. -/
inductive Brings : NamedBlockStatement → String → Prop
  | own {block : NamedBlockStatement} {name : String} :
      (ownField block name).isSome = true → Brings block name
  | inherited {block baseBlock : NamedBlockStatement} {base name : String} :
      base ∈ block.bases → TypedDictBase classes base baseBlock → Brings baseBlock name →
        Brings block name

/-- The field as the class has it: its own, else that of the last base that brings it. -/
inductive Written : NamedBlockStatement → String → ShapeProjectionField → Prop
  | own {block : NamedBlockStatement} {name : String} {field : ShapeProjectionField} :
      ownField block name = some field → Written block name field
  | inherited {block baseBlock : NamedBlockStatement} {before after : List String}
      {base name : String} {field : ShapeProjectionField} :
      ownField block name = none → block.bases = before ++ base :: after →
        TypedDictBase classes base baseBlock → Written baseBlock name field →
          (∀ later ∈ after, ∀ laterBlock, TypedDictBase classes later laterBlock →
            ¬ Brings classes laterBlock name) →
            Written block name (substituteProjectionFieldType base baseBlock field)

/-! ## The search as a walk -/

def blockHierarchy :
    Hierarchy String String NamedBlockStatement ShapeProjectionField String where
  find := blockNamed classes
  bases := NamedBlockStatement.bases
  target base :=
    if isTypedDictBase base || isTypedDictSupportBase base then none
    else some (localBaseName base)
  isListed block := block.bases.any isTypedDictBase
  own block := (ShapeProjection.fromTypedDictBlock block).fields
  key := ShapeProjectionField.name
  inherit := substituteProjectionFieldType
  key_inherit _ _ _ := rfl

end

def reportedError :
    WalkError String String NamedBlockStatement → TypedDictInheritanceError
  | .unknown owner base => .unknownBase owner.name (String.ofList (trim base.toList))
  | .cycle path => .cycle path
  | .outOfFuel => .cycle []

def foundShape (name : String) :
    Except (WalkError String String NamedBlockStatement) (Option (List ShapeProjectionField)) →
      Except TypedDictInheritanceError (Option ShapeProjection)
  | .error error => .error (reportedError error)
  | .ok found => .ok (found.map fun fields => { name, sourceKind := .typedDict, fields })

def inheritedShape :
    Except (WalkError String String NamedBlockStatement) (Inherited ShapeProjectionField) →
      Except TypedDictInheritanceError InheritedShape
  | .error error => .error (reportedError error)
  | .ok inherited => .ok { fields := inherited.items, isTypedDict := inherited.isMember }

variable {block : NamedBlockStatement} {name : String}

section

variable {classes : List NamedBlockStatement}

theorem blockNamed_spec (h : blockNamed classes name = some block) :
    block ∈ classes ∧ block.name = name := by
  have htest := List.find?_some h
  exact ⟨List.mem_of_find?_eq_some h, by simpa using htest⟩

theorem addBase_eq {resolve : String → Except TypedDictInheritanceError (Option ShapeProjection)}
    {walk : String →
      Except (WalkError String String NamedBlockStatement) (Option (List ShapeProjectionField))}
    (h : ∀ name, resolve name = foundShape name (walk name)) (block : NamedBlockStatement)
    (inherited : Inherited ShapeProjectionField) (base : String) :
    addBase classes resolve block
        { fields := inherited.items, isTypedDict := inherited.isMember } base
      = inheritedShape ((blockHierarchy classes).addBase walk block inherited base) := by
  unfold addBase Hierarchy.addBase blockHierarchy
  by_cases hcompanion : (isTypedDictBase base || isTypedDictSupportBase base) = true
  · rw [if_pos hcompanion]
    simp only [if_pos hcompanion]
    rfl
  · rw [if_neg hcompanion]
    simp only [if_neg hcompanion]
    cases hblock : blockNamed classes (localBaseName base) with
    | none => rfl
    | some baseBlock =>
      simp only [h]
      cases walk (localBaseName base) with
      | error error => rfl
      | ok found =>
        cases found with
        | none => rfl
        | some fields => rfl

theorem foldlM_addBase_eq
    {resolve : String → Except TypedDictInheritanceError (Option ShapeProjection)}
    {walk : String →
      Except (WalkError String String NamedBlockStatement) (Option (List ShapeProjectionField))}
    (h : ∀ name, resolve name = foundShape name (walk name)) (block : NamedBlockStatement)
    (bases : List String) (inherited : Inherited ShapeProjectionField) :
    bases.foldlM (addBase classes resolve block)
        { fields := inherited.items, isTypedDict := inherited.isMember }
      = inheritedShape (bases.foldlM ((blockHierarchy classes).addBase walk block) inherited) := by
  induction bases generalizing inherited with
  | nil => rfl
  | cons base rest ih =>
    rw [List.foldlM_cons, List.foldlM_cons, addBase_eq h]
    cases (blockHierarchy classes).addBase walk block inherited base with
    | error error => rfl
    | ok next => exact ih next

/-- While the classes on the way are different ones, the search is the walk. -/
theorem resolveLocalTypedDictShapeInner_eq {fuel : Nat} {stack : List String}
    (hway : Hierarchy.OnTheWay (blockHierarchy classes) (classes.map NamedBlockStatement.name)
      fuel stack) (name : String) :
    resolveLocalTypedDictShapeInner classes fuel stack name
      = foundShape name ((blockHierarchy classes).walk fuel stack name) := by
  induction fuel generalizing stack name with
  | zero => exact absurd rfl hway.ne_zero
  | succ fuel ih =>
    rw [resolveLocalTypedDictShapeInner, Hierarchy.walk]
    by_cases hseen : name ∈ stack
    · rw [if_pos hseen, if_pos hseen]
      rfl
    · rw [if_neg hseen, if_neg hseen]
      have hfind : (blockHierarchy classes).find name = blockNamed classes name := rfl
      rw [hfind]
      cases hblock : blockNamed classes name with
      | none => rfl
      | some block =>
        obtain ⟨-, hname⟩ := blockNamed_spec hblock
        have hbases := @foldlM_addBase_eq classes _ _ (ih (hway.push hseen hblock)) block
          block.bases { items := [], isMember := block.bases.any isTypedDictBase }
        have hstart : (blockHierarchy classes).bases block = block.bases := rfl
        have hlisted : (blockHierarchy classes).isListed block
            = block.bases.any isTypedDictBase := rfl
        simp only
        rw [hstart, hlisted, hbases]
        cases block.bases.foldlM
            ((blockHierarchy classes).addBase
              ((blockHierarchy classes).walk fuel (stack ++ [name])) block)
            { items := [], isMember := block.bases.any isTypedDictBase } with
        | error error => rfl
        | ok inherited =>
          show Except.ok (InheritedShape.complete block _)
            = foundShape name (.ok ((blockHierarchy classes).complete block inherited))
          unfold InheritedShape.complete Hierarchy.complete foundShape
          cases inherited.isMember with
          | false => rfl
          | true =>
            rw [← hname]
            rfl

/-! ## What the walk finds -/

theorem localBase_eq (base : String) :
    localBase classes base = (blockHierarchy classes).baseClass base := by
  have htarget : (blockHierarchy classes).target base
      = if isTypedDictBase base || isTypedDictSupportBase base then none
        else some (localBaseName base) := rfl
  rw [localBase, Hierarchy.baseClass, htarget]
  split
  · rfl
  · rfl

theorem member_iff : (blockHierarchy classes).Member block ↔ IsTypedDict classes block := by
  constructor
  · intro h
    induction h with
    | listed hlisted =>
      rcases List.any_eq_true.1 hlisted with ⟨base, hmem, hbase⟩
      exact .listed hmem hbase
    | inherited hmem hnamed _ ih => exact .inherited hmem ((localBase_eq _).trans hnamed) ih
  · intro h
    induction h with
    | listed hmem hbase => exact .listed (List.any_eq_true.2 ⟨_, hmem, hbase⟩)
    | inherited hmem hnamed _ ih => exact .inherited hmem ((localBase_eq _).symm.trans hnamed) ih

theorem memberBase_iff {base : String} {baseBlock : NamedBlockStatement} :
    (blockHierarchy classes).MemberBase base baseBlock ↔ TypedDictBase classes base baseBlock := by
  constructor
  · exact fun h => ⟨(localBase_eq base).trans h.named, member_iff.1 h.member⟩
  · exact fun h => ⟨(localBase_eq base).symm.trans h.named, member_iff.2 h.isTypedDict⟩

theorem brings_iff : (blockHierarchy classes).Brings block name ↔ Brings classes block name := by
  constructor
  · intro h
    induction h with
    | own hown => exact .own hown
    | inherited hmem hbase _ ih => exact .inherited hmem (memberBase_iff.1 hbase) ih
  · intro h
    induction h with
    | own hown => exact .own hown
    | inherited hmem hbase _ ih => exact .inherited hmem (memberBase_iff.2 hbase) ih

theorem has_iff {field : ShapeProjectionField} :
    (blockHierarchy classes).Has block name field ↔ Written classes block name field := by
  constructor
  · rintro ⟨steps, declared, hwritten, rfl⟩
    induction hwritten with
    | own hown => exact .own hown
    | inherited hown hbases hbase _ hlater ih =>
      refine .inherited hown hbases (memberBase_iff.1 hbase) ih ?_
      intro later hmem laterBlock hlaterBase hbrings
      exact hlater later hmem laterBlock (memberBase_iff.2 hlaterBase) (brings_iff.2 hbrings)
  · intro h
    induction h with
    | own hown => exact ⟨[], _, .own hown, rfl⟩
    | @inherited _ baseBlock _ _ base _ _ hown hbases hbase _ hlater ih =>
      rcases ih with ⟨steps, declared, hwritten, rfl⟩
      refine ⟨(base, baseBlock) :: steps, declared,
        .inherited hown hbases (memberBase_iff.2 hbase) hwritten ?_, rfl⟩
      intro later hmem laterBlock hlaterBase hbrings
      exact hlater later hmem laterBlock (memberBase_iff.1 hlaterBase) (brings_iff.1 hbrings)

/-! ## What is found for a class -/

def lookField (fields : List ShapeProjectionField) (name : String) : Option ShapeProjectionField :=
  lastItem ShapeProjectionField.name fields name

/-- Fields are known under their names only. -/
def PlainAliases (fields : List ShapeProjectionField) : Prop :=
  ∀ field ∈ fields, field.publicAlias = field.name

theorem Written.plain {field : ShapeProjectionField} (h : Written classes block name field) :
    field.publicAlias = field.name := by
  induction h with
  | @own block name field hown =>
    have hfield := List.mem_reverse.1 (List.mem_of_find?_eq_some hown)
    rcases List.mem_map.1 hfield with ⟨member, -, rfl⟩
    rfl
  | inherited _ _ _ _ _ ih => exact ih

variable (classes) in
/-- What is found for a class: a shape exactly if it is a TypedDict, and then with its fields. -/
structure Resolved (block : NamedBlockStatement) (result : Option ShapeProjection) : Prop where
  isSome : result.isSome = true ↔ IsTypedDict classes block
  reads : ∀ shape, result = some shape →
    Hierarchy.Reads (lookField shape.fields) (Written classes block) (Brings classes block)
  plain : ∀ shape, result = some shape → PlainAliases shape.fields

/-- What is found for a local class. -/
theorem resolveLocalTypedDictShape_spec {result : Option ShapeProjection}
    (hblock : blockNamed classes name = some block)
    (h : resolveLocalTypedDictShape classes name = .ok result) : Resolved classes block result := by
  have hway : Hierarchy.OnTheWay (blockHierarchy classes) (classes.map NamedBlockStatement.name)
      (classes.length + 1) [] := by
    refine ⟨?_, List.nodup_nil, List.nil_subset _, by simp⟩
    intro other hother
    rcases Option.isSome_iff_exists.1 hother with ⟨block, hother⟩
    obtain ⟨hmem, hname⟩ := blockNamed_spec hother
    exact hname ▸ List.mem_map_of_mem hmem
  rw [resolveLocalTypedDictShape, resolveLocalTypedDictShapeInner_eq hway] at h
  cases hwalk : (blockHierarchy classes).walk (classes.length + 1) [] name with
  | error error =>
    rw [hwalk] at h
    cases h
  | ok found =>
    rw [hwalk] at h
    obtain rfl := Except.ok.inj h
    have hfound := Hierarchy.walk_found (classes.length + 1) [] name block found hblock hwalk
    have hreads : ∀ fields, found = some fields →
        Hierarchy.Reads (lookField fields) (Written classes block) (Brings classes block) := by
      intro fields hfields
      exact (hfound.reads fields hfields).congr (fun _ _ => has_iff) fun _ => brings_iff
    constructor
    · rw [Option.isSome_map, hfound.isSome, member_iff]
    · intro shape hshape
      rcases Option.map_eq_some_iff.1 hshape with ⟨fields, hfields, rfl⟩
      exact hreads fields hfields
    · intro shape hshape field hfield
      rcases Option.map_eq_some_iff.1 hshape with ⟨fields, hfields, rfl⟩
      have hlast := (mem_iff_lastItem (hfound.nodup fields hfields) field).1 hfield
      exact Written.plain (((hreads fields hfields).written field.name field).1 hlast)

end

end TypePython.Emit
