import TypePython.Checking.TruthinessNarrowing

/-!
# What iteration yields

The element type that a `for` loop and a `yield from` take from the type of what they iterate, and
the values that iterating really yields, under any reading of types as sets of values.

* `iteratesInto_iff`: the element type has them all exactly when the first position of a tuple
  stands for every other one.
-/

namespace TypePython.Checking

/-! ## The element type -/

/-- Generics that yield values of their first argument. -/
def iterableHeads : List String :=
  ["Generator", "typing.Generator", "collections.abc.Generator", "Iterator", "typing.Iterator",
    "collections.abc.Iterator", "Iterable", "typing.Iterable", "collections.abc.Iterable",
    "Sequence", "typing.Sequence", "collections.abc.Sequence", "list", "set", "frozenset"]

def unwrapYieldFromSemanticType (ty : SemanticType) : Option SemanticType :=
  match ty.stripAnnotated with
  | .generic head args =>
    if head ∈ iterableHeads ∧ args ≠ [] then args.head?
    else if head = "tuple" then
      match expandedTupleShapeSemanticArgs args with
      | [element, .name "..."] => some element
      | expanded => expanded.head?
    else none
  | _ => none

def unwrapForIterableSemanticType (ty : SemanticType) : Option SemanticType :=
  match ty.stripAnnotated with
  | .name name => if name = "range" then some (.name "int") else unwrapYieldFromSemanticType ty
  | _ => unwrapYieldFromSemanticType ty

/-! ## Readings of types -/

/-- How the arguments of a tuple type are to be read. -/
inductive TupleArgs where
  | empty
  | anyLength (element : SemanticType)
  | positions (args : List SemanticType)

def tupleArgs : List SemanticType → TupleArgs
  | [.name "()"] => .empty
  | [element, .name "..."] => .anyLength element
  | args => .positions args

/-- A reading of types as sets of values, some of which can be iterated. -/
structure IterationReading where
  Value : Type
  Inhabits : SemanticType → Value → Prop
  Yields : Value → Value → Prop
  tuple : List Value → Value

namespace IterationReading

variable (reading : IterationReading)

/-- The elements that an argument stands for: one of its own, or those of an unpacked tuple. -/
def Segment (arg : SemanticType) (items : List reading.Value) : Prop :=
  match arg.unpackedInner with
  | some inner => reading.Inhabits inner (reading.tuple items)
  | none => ∃ item, items = [item] ∧ reading.Inhabits arg item

/-- Elements by the arguments they are for. -/
def Segments : List SemanticType → List reading.Value → Prop
  | [], items => items = []
  | arg :: rest, items =>
    ∃ front back, items = front ++ back ∧ reading.Segment arg front ∧ Segments rest back

def TupleOf (args : List SemanticType) (items : List reading.Value) : Prop :=
  match tupleArgs args with
  | .empty => items = []
  | .anyLength element => ∀ item ∈ items, reading.Inhabits element item
  | .positions args => reading.Segments args items

/-- What holds of the types of Python: an unpacked type and the dots of a tuple have no values of
their own, containers yield values of their first argument, tuples their elements. -/
structure Faithful : Prop where
  annotated : ∀ ty metadata value,
    reading.Inhabits (.annotated ty metadata) value ↔ reading.Inhabits ty value
  unpack : ∀ inner value, ¬ reading.Inhabits (.unpack inner) value
  range : ∀ value item, reading.Inhabits (.name "range") value → reading.Yields value item →
    reading.Inhabits (.name "int") item
  container : ∀ head ∈ iterableHeads, ∀ arg rest value item,
    reading.Inhabits (.generic head (arg :: rest)) value → reading.Yields value item →
      reading.Inhabits arg item
  tuples : ∀ args value, reading.Inhabits (.generic "tuple" args) value
    ↔ ∃ items, value = reading.tuple items ∧ reading.TupleOf args items
  yields : ∀ items item, reading.Yields (reading.tuple items) item ↔ item ∈ items

/-- Every value that iterating a value of the type yields is one of the element type. -/
def IteratesInto (ty : SemanticType) : Prop :=
  ∀ element, unwrapForIterableSemanticType ty = some element →
    ∀ value item, reading.Inhabits ty value → reading.Yields value item →
      reading.Inhabits element item

/-- The type at the first position, which may be one of an unpacked tuple of fixed length. -/
def leadingElement : List SemanticType → Option SemanticType
  | [] => none
  | arg :: rest =>
    match arg.unpackedInner.bind unpackedFixedTupleSemanticElements with
    | some (element :: _) => some element
    | some [] => leadingElement rest
    | none => some arg

/-- The positions of a tuple type take values only that the type at the first one has; a tuple
type without values has no position to speak of. -/
def LeadingCovers (ty : SemanticType) : Prop :=
  ∀ args positions leading, ty.genericParts = some ("tuple", args) →
    tupleArgs args = .positions positions → leadingElement positions = some leading →
      (∃ value, reading.Inhabits ty value) →
        ∀ arg ∈ positions, ∀ items, reading.Segment arg items →
          ∀ item ∈ items, reading.Inhabits leading item

end IterationReading

structure PythonReading extends IterationReading where
  faithful : toIterationReading.Faithful

/-! ## Types under annotations -/

variable {args : List SemanticType} {ty : SemanticType}

section

variable {reading : IterationReading}

theorem inhabits_stripAnnotated (h : reading.Faithful) (value : reading.Value) :
    ∀ ty : SemanticType, reading.Inhabits ty value ↔ reading.Inhabits ty.stripAnnotated value
  | .annotated inner metadata => by
    rw [SemanticType.stripAnnotated, h.annotated]
    exact inhabits_stripAnnotated h value inner
  | .name _ | .generic _ _ | .callable _ _ | .union _ | .unpack _ => by
    rw [SemanticType.stripAnnotated]
    simp

theorem stripAnnotated_of_genericParts {head : String} (h : ty.genericParts = some (head, args)) :
    ty.stripAnnotated = .generic head args := by
  unfold SemanticType.genericParts at h
  split at h
  · rename_i hstrip
    rcases Prod.mk.inj (Option.some.inj h) with ⟨rfl, rfl⟩
    exact hstrip
  · cases h

theorem not_inhabits_of_unpackedInner (h : reading.Faithful) {inner : SemanticType}
    (hinner : ty.unpackedInner = some inner) (value : reading.Value) :
    ¬ reading.Inhabits ty value := by
  rw [inhabits_stripAnnotated h value ty]
  unfold SemanticType.unpackedInner at hinner
  split at hinner
  · rename_i hstrip
    rw [hstrip]
    exact h.unpack _ value
  · cases hinner

/-! ## The first position -/

theorem head?_expanded (args : List SemanticType) :
    (expandedTupleShapeSemanticArgs args).head? = IterationReading.leadingElement args := by
  induction args with
  | nil => rfl
  | cons arg rest ih =>
    unfold expandedTupleShapeSemanticArgs at ih ⊢
    rw [List.flatMap_cons, IterationReading.leadingElement]
    match arg.unpackedInner.bind unpackedFixedTupleSemanticElements with
    | none => rfl
    | some [] => exact ih
    | some (element :: elements) => rfl

/-- The marker of a tuple of any length changes nothing: either way it is the first element. -/
theorem unwrapForIterable_tuple (h : ty.genericParts = some ("tuple", args)) :
    unwrapForIterableSemanticType ty = IterationReading.leadingElement args := by
  unfold unwrapForIterableSemanticType unwrapYieldFromSemanticType
  rw [stripAnnotated_of_genericParts h, ← head?_expanded]
  dsimp only
  rw [if_neg (by rw [not_and]; exact fun hmem => absurd hmem (by decide)), if_pos rfl]
  split
  · rename_i hexpanded
    rw [hexpanded]
    rfl
  · rfl

/-! ## Elements and positions -/

theorem segments_append {front back : List SemanticType} : ∀ {items : List reading.Value},
    reading.Segments (front ++ back) items
      ↔ ∃ first second, items = first ++ second ∧ reading.Segments front first
        ∧ reading.Segments back second := by
  induction front with
  | nil =>
    intro items
    refine ⟨fun h => ⟨[], items, rfl, rfl, h⟩, ?_⟩
    rintro ⟨first, second, rfl, hfirst, hsecond⟩
    rw [show first = [] from hfirst]
    exact hsecond
  | cons arg front ih =>
    intro items
    constructor
    · rintro ⟨segment, rest, rfl, hsegment, hrest⟩
      rcases ih.mp hrest with ⟨first, second, rfl, hfirst, hsecond⟩
      exact ⟨segment ++ first, second, (List.append_assoc _ _ _).symm,
        ⟨segment, first, rfl, hsegment, hfirst⟩, hsecond⟩
    · rintro ⟨_, second, rfl, ⟨segment, first, rfl, hsegment, hfirst⟩, hsecond⟩
      exact ⟨segment, first ++ second, List.append_assoc _ _ _, hsegment,
        ih.mpr ⟨first, second, rfl, hfirst, hsecond⟩⟩

/-- Every element is one of the segment of an argument. -/
theorem exists_segment_of_mem : ∀ {items : List reading.Value},
    reading.Segments args items → ∀ item ∈ items,
      ∃ arg ∈ args, ∃ segment, reading.Segment arg segment ∧ item ∈ segment := by
  induction args with
  | nil =>
    intro items h item hmem
    rw [show items = [] from h] at hmem
    exact absurd hmem List.not_mem_nil
  | cons arg rest ih =>
    rintro items ⟨segment, back, rfl, hsegment, hback⟩ item hmem
    rcases List.mem_append.mp hmem with hmem | hmem
    · exact ⟨arg, List.mem_cons_self, segment, hsegment, hmem⟩
    · rcases ih hback item hmem with ⟨other, hother, found⟩
      exact ⟨other, List.mem_cons_of_mem _ hother, found⟩

/-- In the elements of a tuple the segment of one argument can be any that it has. -/
theorem segments_replace {items : List reading.Value} (h : reading.Segments args items)
    {arg : SemanticType} (harg : arg ∈ args) {segment : List reading.Value}
    (hsegment : reading.Segment arg segment) :
    ∃ others, reading.Segments args others ∧ ∀ item ∈ segment, item ∈ others := by
  rcases List.append_of_mem harg with ⟨front, back, rfl⟩
  rcases segments_append.mp h with ⟨first, _, -, hfirst, ⟨_, second, -, -, hsecond⟩⟩
  refine ⟨first ++ (segment ++ second), segments_append.mpr ⟨first, segment ++ second, rfl, hfirst,
    segment, second, rfl, hsegment, hsecond⟩, fun item hmem => ?_⟩
  exact List.mem_append_right _ (List.mem_append_left _ hmem)

/-- A tuple of any length yields values of its element type. -/
theorem anyLength_element (h : reading.Faithful) {element leading : SemanticType}
    (hargs : tupleArgs args = .anyLength element)
    (hleading : IterationReading.leadingElement args = some leading) {item : reading.Value}
    (hitem : reading.Inhabits element item) : reading.Inhabits leading item := by
  unfold tupleArgs at hargs
  split at hargs
  · cases hargs
  · cases hargs
    rw [IterationReading.leadingElement] at hleading
    cases hinner : SemanticType.unpackedInner element with
    | none =>
      rw [hinner] at hleading
      rwa [← Option.some.inj hleading]
    | some inner => exact absurd hitem (not_inhabits_of_unpackedInner h hinner item)
  · cases hargs

theorem positions_eq {positions : List SemanticType}
    (hargs : tupleArgs args = .positions positions) : positions = args := by
  unfold tupleArgs at hargs
  split at hargs
  · cases hargs
  · cases hargs
  · exact (TupleArgs.positions.inj hargs).symm

/-- What a type that is no tuple yields. -/
theorem iterated_of_no_tuple (h : reading.Faithful) {element : SemanticType}
    (htuple : ∀ args, ty.genericParts ≠ some ("tuple", args))
    (hunwrap : unwrapForIterableSemanticType ty = some element) {value item : reading.Value}
    (hvalue : reading.Inhabits ty value) (hitem : reading.Yields value item) :
    reading.Inhabits element item := by
  rw [inhabits_stripAnnotated h value ty] at hvalue
  unfold unwrapForIterableSemanticType at hunwrap
  split at hunwrap
  · rename_i name hstrip
    split at hunwrap
    · rename_i hrange
      rw [hstrip, hrange] at hvalue
      rw [← Option.some.inj hunwrap]
      exact h.range value item hvalue hitem
    · unfold unwrapYieldFromSemanticType at hunwrap
      rw [hstrip] at hunwrap
      cases hunwrap
  · unfold unwrapYieldFromSemanticType at hunwrap
    split at hunwrap
    · rename_i head args hstrip
      rw [hstrip] at hvalue
      split_ifs at hunwrap with hhead htupleHead
      · cases args with
        | nil => exact absurd rfl hhead.2
        | cons arg rest =>
          rw [← Option.some.inj hunwrap]
          exact h.container head hhead.1 arg rest value item hvalue hitem
      · refine absurd ?_ (htuple args)
        unfold SemanticType.genericParts
        rw [hstrip, htupleHead]
    · cases hunwrap

end

/-- Iteration yields values of the element type alone exactly when the type is no tuple of fixed
length or its first position stands for all of them. -/
theorem iteratesInto_iff (reading : PythonReading) (ty : SemanticType) :
    reading.IteratesInto ty ↔ reading.LeadingCovers ty := by
  have h := reading.faithful
  constructor
  · rintro hinto args positions leading hparts hargs hleading ⟨value, hvalue⟩ arg harg segment
      hsegment item hitem
    rcases positions_eq hargs with rfl
    have hunwrap := (unwrapForIterable_tuple hparts).trans hleading
    rw [inhabits_stripAnnotated h value ty, stripAnnotated_of_genericParts hparts, h.tuples] at hvalue
    rcases hvalue with ⟨items, -, hitems⟩
    unfold IterationReading.TupleOf at hitems
    rw [hargs] at hitems
    rcases segments_replace hitems harg hsegment with ⟨others, hothers, hin⟩
    refine hinto leading hunwrap (reading.tuple others) item ?_ ((h.yields others item).mpr (hin item hitem))
    rw [inhabits_stripAnnotated h _ ty, stripAnnotated_of_genericParts hparts, h.tuples]
    refine ⟨others, rfl, ?_⟩
    unfold IterationReading.TupleOf
    rw [hargs]
    exact hothers
  · intro hcovers element hunwrap value item hvalue hitem
    by_cases htuple : ∃ args, ty.genericParts = some ("tuple", args)
    · rcases htuple with ⟨args, hparts⟩
      have hleading := (unwrapForIterable_tuple hparts).symm.trans hunwrap
      have hinhabited := hvalue
      rw [inhabits_stripAnnotated h value ty, stripAnnotated_of_genericParts hparts, h.tuples] at hvalue
      rcases hvalue with ⟨items, rfl, hitems⟩
      have hmem := (h.yields items item).mp hitem
      unfold IterationReading.TupleOf at hitems
      cases hargs : tupleArgs args with
      | empty =>
        rw [hargs] at hitems
        rw [show items = [] from hitems] at hmem
        exact absurd hmem List.not_mem_nil
      | anyLength each =>
        rw [hargs] at hitems
        exact anyLength_element h hargs hleading (hitems item hmem)
      | positions positions =>
        rw [hargs] at hitems
        rcases exists_segment_of_mem hitems item hmem with ⟨arg, harg, segment, hsegment, hin⟩
        rcases positions_eq hargs with rfl
        exact hcovers positions positions element hparts hargs hleading ⟨_, hinhabited⟩ arg harg
          segment hsegment item hin
    · exact iterated_of_no_tuple h (fun args hparts => htuple ⟨args, hparts⟩) hunwrap hvalue hitem

/-! ## The builtin types -/

/-- What a type says of a value, and of the elements that it stands for among arguments. -/
structure Meaning where
  value : PyValue → Prop
  segment : List PyValue → Prop

def runtimeMeaning (values : PyValue → Prop) : Meaning where
  value := values
  segment items := ∃ item, items = [item] ∧ values item

def PyValue.iterated : PyValue → List PyValue
  | .list items | .tuple items | .set items | .frozenset items => items
  | .dict entries => entries.map Prod.fst
  | .str text => text.toList.map fun c => .str (String.ofList [c])
  | _ => []

/-- The generics that a container is of. -/
def PyValue.isContainer (head : String) : PyValue → Bool
  | .list _ => head ∈ ["list", "Sequence", "typing.Sequence", "collections.abc.Sequence", "Iterable",
      "typing.Iterable", "collections.abc.Iterable"]
  | .set _ => head ∈ ["set", "Iterable", "typing.Iterable", "collections.abc.Iterable"]
  | .frozenset _ => head ∈ ["frozenset", "Iterable", "typing.Iterable", "collections.abc.Iterable"]
  | _ => false

def firstMeaning : List Meaning → PyValue → Prop
  | [], _ => False
  | first :: _, value => first.value value

def segmentsMeaning : List Meaning → List PyValue → Prop
  | [], items => items = []
  | first :: rest, items =>
    ∃ front back, items = front ++ back ∧ first.segment front ∧ segmentsMeaning rest back

def tupleMeaning (args : List SemanticType) (meanings : List Meaning) (items : List PyValue) : Prop :=
  match tupleArgs args with
  | .empty => items = []
  | .anyLength _ => ∀ item ∈ items, firstMeaning meanings item
  | .positions _ => segmentsMeaning meanings items

def genericMeaning (head : String) (args : List SemanticType) (meanings : List Meaning)
    (value : PyValue) : Prop :=
  if head = "tuple" then ∃ items, value = .tuple items ∧ tupleMeaning args meanings items
  else value.isContainer head = true ∧ ∀ item ∈ value.iterated, firstMeaning meanings item

mutual

def meaningOf : SemanticType → Meaning
  | .name name => runtimeMeaning fun value => name ∈ builtinNames ∧ value.isInstanceOf name = true
  | .generic head args => runtimeMeaning (genericMeaning head args (meaningOfAll args))
  | .annotated value _ => meaningOf value
  | .unpack inner =>
    { value := fun _ => False, segment := fun items => (meaningOf inner).value (.tuple items) }
  | .union branches => runtimeMeaning fun value => ∃ branch ∈ meaningOfAll branches, branch.value value
  | .callable _ _ => runtimeMeaning fun _ => False

def meaningOfAll : List SemanticType → List Meaning
  | [] => []
  | ty :: rest => meaningOf ty :: meaningOfAll rest

end

def builtinIteration : IterationReading where
  Value := PyValue
  Inhabits ty value := (meaningOf ty).value value
  Yields value item := item ∈ value.iterated
  tuple := .tuple

theorem segment_meaningOf (items : List PyValue) : ∀ ty : SemanticType,
    (meaningOf ty).segment items ↔ builtinIteration.Segment ty items
  | .annotated value metadata => by
    rw [meaningOf]
    exact segment_meaningOf items value
  | .unpack inner => by
    rw [meaningOf]
    exact Iff.rfl
  | .name _ | .generic _ _ | .callable _ _ | .union _ => by
    unfold IterationReading.Segment builtinIteration
    rw [meaningOf]
    exact Iff.rfl

theorem segmentsMeaning_iff : ∀ {items : List PyValue},
    segmentsMeaning (meaningOfAll args) items ↔ builtinIteration.Segments args items := by
  induction args with
  | nil => exact Iff.rfl
  | cons arg rest ih =>
    intro items
    rw [meaningOfAll]
    constructor
    · rintro ⟨front, back, hitems, hfront, hback⟩
      exact ⟨front, back, hitems, (segment_meaningOf front arg).mp hfront, ih.mp hback⟩
    · rintro ⟨front, back, hitems, hfront, hback⟩
      exact ⟨front, back, hitems, (segment_meaningOf front arg).mpr hfront, ih.mpr hback⟩

theorem tupleMeaning_iff (args : List SemanticType) (items : List PyValue) :
    tupleMeaning args (meaningOfAll args) items ↔ builtinIteration.TupleOf args items := by
  unfold tupleMeaning IterationReading.TupleOf
  cases hargs : tupleArgs args with
  | empty => exact Iff.rfl
  | anyLength element =>
    unfold tupleArgs at hargs
    split at hargs
    · cases hargs
    · cases hargs
      rw [meaningOfAll]
      exact Iff.rfl
    · cases hargs
  | positions positions =>
    rw [positions_eq hargs]
    exact segmentsMeaning_iff

/-- Numbers, texts, and the builtin containers. -/
def pythonBuiltins : PythonReading where
  toIterationReading := builtinIteration
  faithful :=
    { annotated := by
        intro ty metadata value
        show (meaningOf (.annotated ty metadata)).value value ↔ _
        rw [meaningOf]
        exact Iff.rfl
      unpack := by
        intro inner value h
        have h : (meaningOf (.unpack inner)).value value := h
        rw [meaningOf] at h
        exact h
      range := by
        intro value item h
        have h : (meaningOf (.name "range")).value value := h
        rw [meaningOf] at h
        exact absurd h.1 (by decide)
      container := by
        intro head hhead arg rest value item h hitem
        have h : (meaningOf (.generic head (arg :: rest))).value value := h
        have hhead : head ≠ "tuple" := by
          rintro rfl
          exact absurd hhead (by decide)
        rw [meaningOf] at h
        unfold runtimeMeaning genericMeaning at h
        dsimp only at h
        rw [if_neg hhead, meaningOfAll] at h
        exact h.2 item hitem
      tuples := by
        intro args value
        show (meaningOf (.generic "tuple" args)).value value ↔ _
        rw [meaningOf]
        unfold runtimeMeaning genericMeaning
        dsimp only
        rw [if_pos rfl]
        exact exists_congr fun items => and_congr_right' (tupleMeaning_iff args items)
      yields := fun items item => Iff.rfl }

theorem inhabits_builtin {name : String} {value : PyValue} (hname : name ∈ builtinNames)
    (hvalue : value.isInstanceOf name = true) : (meaningOf (.name name)).value value := by
  rw [meaningOf]
  exact ⟨hname, hvalue⟩

/-- `for item in (1, "a")` -/
theorem pair_not_iteratesInto :
    ¬ pythonBuiltins.IteratesInto (.generic "tuple" [.name "int", .name "str"]) := by
  intro h
  have hint : (meaningOf (.name "int")).value (.str "a") := by
    refine h (.name "int") (by decide) (.tuple [.int 1, .str "a"]) (.str "a") ?_ ?_
    · refine (pythonBuiltins.faithful.tuples _ _).mpr ⟨[.int 1, .str "a"], rfl, ?_⟩
      exact ⟨[.int 1], [.str "a"], rfl, ⟨.int 1, rfl, inhabits_builtin (by decide) (by decide)⟩,
        [.str "a"], [], rfl, ⟨.str "a", rfl, inhabits_builtin (by decide) (by decide)⟩, rfl⟩
    · exact List.mem_cons_of_mem _ List.mem_cons_self
  rw [meaningOf] at hint
  exact absurd hint.2 (by decide)

end TypePython.Checking
