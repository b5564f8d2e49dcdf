import TypePython.Checking.Flow
import TypePython.Checking.ValueModel

/-!
# Narrowing by truthiness

Which values a truthiness test lets through, against what the narrowing leaves of a type. A
union with `None` loses its other branches in the false case when all of them look true, and
looks are decided by the names of a few builtin classes only: a subscripted container, a
literal or a `frozenset` passes for true, empty or not. `truthinessSound_iff` says for which
types nothing is lost.
-/

namespace TypePython.Checking

/-! ## Values -/

/-- The values of the builtin types, and instances of other classes with their truth value.
A number that is infinite or not a number has no rational value. -/
inductive PyValue where
  | none
  | bool (value : Bool)
  | int (value : Int)
  | float (value : Option Rat)
  | complex (re im : Option Rat)
  | str (text : String)
  | bytes (data : List UInt8)
  | bytearray (data : List UInt8)
  | list (items : List PyValue)
  | tuple (items : List PyValue)
  | set (items : List PyValue)
  | frozenset (items : List PyValue)
  | dict (entries : List (PyValue × PyValue))
  | object (className : String) (truth : Bool)

/-- What `bool` makes of a value. -/
def PyValue.isTrue : PyValue → Bool
  | .none => false
  | .bool value => value
  | .int value => value ≠ 0
  | .float value => value ≠ some 0
  | .complex re im => re ≠ some 0 ∨ im ≠ some 0
  | .str text => text ≠ ""
  | .bytes data => !data.isEmpty
  | .bytearray data => !data.isEmpty
  | .list items => !items.isEmpty
  | .tuple items => !items.isEmpty
  | .set items => !items.isEmpty
  | .frozenset items => !items.isEmpty
  | .dict entries => !entries.isEmpty
  | .object _ truth => truth

/-- The values of a builtin class. -/
def PyValue.isInstanceOf (name : String) : PyValue → Bool
  | .none => name = "None"
  | .bool _ => name = "bool" ∨ name = "int"
  | .int _ => name = "int"
  | .float _ => name = "float"
  | .complex _ _ => name = "complex"
  | .str _ => name = "str"
  | .bytes _ => name = "bytes"
  | .bytearray _ => name = "bytearray"
  | .list _ => name = "list"
  | .tuple _ => name = "tuple"
  | .set _ => name = "set"
  | .frozenset _ => name = "frozenset"
  | .dict _ => name = "dict"
  | .object _ _ => false

/-- The builtin classes, with a false value of each. -/
def falsyValues : List (String × PyValue) :=
  [("None", .none), ("bool", .bool false), ("int", .int 0), ("float", .float (some 0)),
    ("complex", .complex (some 0) (some 0)), ("str", .str ""), ("bytes", .bytes []),
    ("bytearray", .bytearray []), ("list", .list []), ("tuple", .tuple []), ("set", .set []),
    ("frozenset", .frozenset []), ("dict", .dict [])]

def builtinNames : List String := falsyValues.map Prod.fst

theorem falsyValues_spec : ∀ entry ∈ falsyValues,
    entry.2.isInstanceOf entry.1 = true ∧ entry.2.isTrue = false := by
  decide

theorem isInstanceOf_none_iff {name : String} : PyValue.none.isInstanceOf name = true
    ↔ name = "None" := by
  simp [PyValue.isInstanceOf]

variable {x : PyValue}

theorem eq_none_of_isInstanceOf (hx : x.isInstanceOf "None" = true) : x = .none := by
  cases x <;> simp_all [PyValue.isInstanceOf]

/-! ## Readings of types -/

/-- What stands outside of the builtin types: the value of the text of a literal, the values
of any other type, and the classes that are containers, of which an empty one exists. -/
structure Reading where
  literal : String → Option PyValue
  literal_none : literal "None" = some .none
  literal_true : literal "True" = some (.bool true)
  literal_false : literal "False" = some (.bool false)
  other : SemanticType → PyValue → Prop
  containers : List String
  container_empty : ∀ head ∈ containers, ∀ args, ∃ x, other (.generic head args) x
    ∧ x.isTrue = false ∧ x ≠ .none

def builtinContainers : List String := ["list", "tuple", "set", "frozenset", "dict"]

/-- The arguments of a tuple of any length. -/
def AnyLength : List SemanticType → Prop
  | [_, .name "..."] => True
  | _ => False

/-- The values of a builtin container, by what its first argument admits, its second, and all
of them in their order. -/
def containerAdmits (head : String) (anyLength : Prop) (first second : PyValue → Prop)
    (each : List PyValue → Prop) : PyValue → Prop
  | .list items => head = "list" ∧ ∀ item ∈ items, first item
  | .set items => head = "set" ∧ ∀ item ∈ items, first item
  | .frozenset items => head = "frozenset" ∧ ∀ item ∈ items, first item
  | .dict entries => head = "dict" ∧ ∀ entry ∈ entries, first entry.1 ∧ second entry.2
  | .tuple items =>
    head = "tuple" ∧ ((anyLength ∧ ∀ item ∈ items, first item) ∨ (¬anyLength ∧ each items))
  | _ => False

section

variable (r : Reading)

mutual

/-- The values a literal type lists. -/
def literalAdmits : SemanticType → PyValue → Prop
  | .name text, x => r.literal text = some x
  | .generic head args, x => head = "Literal" ∧ someLiteralAdmits args x
  | .annotated value _, x => literalAdmits value x
  | _, _ => False

def someLiteralAdmits : List SemanticType → PyValue → Prop
  | [], _ => False
  | arg :: rest, x => literalAdmits arg x ∨ someLiteralAdmits rest x

end

mutual

/-- The values of a type. -/
def TypeAdmits : SemanticType → PyValue → Prop
  | .name name, x =>
    if name ∈ builtinNames then x.isInstanceOf name = true else r.other (.name name) x
  | .generic head args, x =>
    if head = "Literal" then someLiteralAdmits r args x
    else if head = "Optional" ∧ args.length = 1 then FirstAdmits args x ∨ x = .none
    else if head ∈ builtinContainers then
      containerAdmits head (AnyLength args) (fun item => FirstAdmits args item)
        (fun item => SecondAdmits args item) (fun items => EachAdmits args items) x
    else r.other (.generic head args) x
  | .callable params returnType, x => r.other (.callable params returnType) x
  | .union branches, x => SomeAdmits branches x
  | .annotated value _, x => TypeAdmits value x
  | .unpack inner, x => r.other (.unpack inner) x

def SomeAdmits : List SemanticType → PyValue → Prop
  | [], _ => False
  | branch :: rest, x => TypeAdmits branch x ∨ SomeAdmits rest x

/-- The first argument of a container is the type of its elements or keys. -/
def FirstAdmits : List SemanticType → PyValue → Prop
  | [], _ => True
  | arg :: _, x => TypeAdmits arg x

def SecondAdmits : List SemanticType → PyValue → Prop
  | [], _ => True
  | _ :: rest, x => FirstAdmits rest x

/-- The arguments of a tuple of fixed length, one for each item; an unpacked type stands for
the items of a tuple of that type. -/
def EachAdmits : List SemanticType → List PyValue → Prop
  | [], items => items = []
  | .unpack inner :: rest, items =>
    ∃ front back, items = front ++ back ∧ TypeAdmits inner (.tuple front) ∧ EachAdmits rest back
  | arg :: rest, items =>
    ∃ item back, items = item :: back ∧ TypeAdmits arg item ∧ EachAdmits rest back

end

end

attribute [grind =] PyValue.isInstanceOf literalAdmits TypeAdmits

variable {branch base : SemanticType}

section

variable (r : Reading)

/-! ## What is asked of the narrowing -/

/-- The branches whose truth Python settles: a builtin class, a subscripted container, a
literal, a tuple, `None`. -/
def ListedBranch : SemanticType → Prop
  | .name name => name ∈ builtinNames
  | .generic head _ => head = "Literal" ∨ head ∈ builtinContainers ∨ head ∈ r.containers
  | _ => False

/-- A type still contains a branch, or a branch that is a supertype of it. -/
def Survives (narrowed branch : SemanticType) : Prop :=
  ∃ left ∈ leafBranches narrowed, ∀ x, TypeAdmits r branch x → TypeAdmits r left x

/-- No branch that admits a value of the given truth is lost where the test has it. -/
def TruthinessSound (base : SemanticType) : Prop :=
  ∀ branchTrue, ∀ branch ∈ leafBranches base, ListedBranch r branch →
    (∃ x, TypeAdmits r branch x ∧ x.isTrue = branchTrue) →
      Survives r (applyTruthySemanticNarrowing base branchTrue) branch

/-! ## The types that lose a branch -/

/-- Whether a listed branch admits a false value, by its shape. -/
def MayBeFalsy : SemanticType → Prop
  | .name name => name ∈ builtinNames
  | .generic head args =>
    if head = "Literal" then ∃ x, someLiteralAdmits r args x ∧ x.isTrue = false
    else if head = "tuple" then AnyLength args ∨ EachAdmits r args []
    else head ∈ builtinContainers ∨ head ∈ r.containers
  | _ => False

/-- The listed branches with no other value than `None`. -/
def OnlyNone : SemanticType → Prop
  | .name name => name = "None"
  | .generic head args => head = "Literal" ∧ ∀ x, someLiteralAdmits r args x → x = .none
  | _ => False

/-- The unions that a truthiness test splits into `None` and the other branches. -/
def SplitsOffNone (base : SemanticType) (branches : List SemanticType) : Prop :=
  semanticUnionBranches base = some branches
    ∧ (∃ branch ∈ branches, branch.stripAnnotated = .name "None")
    ∧ ∀ branch ∈ branches, branch.stripAnnotated ≠ .name "None" →
        semanticIsDefinitelyTruthyBranch branch = true

/-- Such a union with a branch that may be false and is not `None`. -/
def LosesFalsyBranch (base : SemanticType) : Prop :=
  (∃ branches, SplitsOffNone base branches)
    ∧ ∃ branch ∈ leafBranches base, MayBeFalsy r branch ∧ ¬OnlyNone r branch

attribute [grind =] MayBeFalsy OnlyNone

/-! ## How the narrowing goes -/

variable {r}

theorem truthyNarrowing_of_splits {branches : List SemanticType} (h : SplitsOffNone base branches)
    (branchTrue : Bool) : applyTruthySemanticNarrowing base branchTrue
      = if branchTrue then
          joinSemanticTypeCandidates
            (branches.filter fun branch => branch.stripAnnotated ≠ .name "None")
        else .name "None" := by
  obtain ⟨hbranches, ⟨branch, hbranch, hnone⟩, htruthy⟩ := h
  have hliteral : semanticLiteralBoolValue base = none := by
    unfold semanticLiteralBoolValue SemanticType.genericParts
    unfold semanticUnionBranches at hbranches
    split at hbranches
    · next hstrip => simp [hstrip]
    · next hstrip => simp [hstrip]
    · simp at hbranches
  have hbool : base.stripAnnotated ≠ .name "bool" := by
    intro hstrip
    simp [semanticUnionBranches, hstrip] at hbranches
  have hany : (branches.any fun branch => branch.stripAnnotated = .name "None") = true :=
    List.any_eq_true.2 ⟨branch, hbranch, by simpa using hnone⟩
  have hall : ((branches.filter fun branch => branch.stripAnnotated ≠ .name "None").all
      semanticIsDefinitelyTruthyBranch) = true := by
    refine List.all_eq_true.2 fun branch hbranch => ?_
    obtain ⟨hmem, hne⟩ := List.mem_filter.1 hbranch
    exact htruthy branch hmem (by simpa using hne)
  unfold applyTruthySemanticNarrowing
  simp only [hliteral, if_neg hbool, hbranches, hany, hall, Bool.and_self, if_true]

theorem truthyNarrowing_of_not_splits (hliteral : semanticLiteralBoolValue base = none)
    (h : ¬∃ branches, SplitsOffNone base branches) (branchTrue : Bool) :
    applyTruthySemanticNarrowing base branchTrue = base := by
  unfold applyTruthySemanticNarrowing
  simp only [hliteral]
  split
  · rfl
  · split
    · rfl
    · next branches hbranches =>
        split
        · next hcond =>
            obtain ⟨hany, hall⟩ := Bool.and_eq_true_iff.1 hcond
            obtain ⟨branch, hbranch, hnone⟩ := List.any_eq_true.1 hany
            refine absurd ⟨branches, hbranches, ⟨branch, hbranch, by simpa using hnone⟩,
              fun other hother hne => ?_⟩ h
            exact List.all_eq_true.1 hall other (List.mem_filter.2 ⟨hother, by simpa using hne⟩)
        · rfl

theorem survives_refl (h : branch ∈ leafBranches base) : Survives r base branch :=
  ⟨branch, h, fun _ hx => hx⟩

/-! ### Boolean literals -/

theorem literalAdmits_stripAnnotated (x : PyValue) : ∀ ty : SemanticType,
    literalAdmits r ty.stripAnnotated x ↔ literalAdmits r ty x
  | .annotated value _ => by
    rw [SemanticType.stripAnnotated, literalAdmits_stripAnnotated x value, literalAdmits]
  | .name _ | .generic _ _ | .callable _ _ | .union _ | .unpack _ => by
    rw [SemanticType.stripAnnotated]
    simp

/-- A boolean literal has one branch, with one value. -/
theorem branch_of_literalBool {value : Bool}
    (hliteral : semanticLiteralBoolValue base = some value) (hbranch : branch ∈ leafBranches base)
    (hx : TypeAdmits r branch x) : x = .bool value := by
  unfold semanticLiteralBoolValue SemanticType.genericParts at hliteral
  cases hstrip : base.stripAnnotated with
  | generic head args =>
    match args with
    | [arg] =>
      simp only [hstrip] at hliteral
      split at hliteral
      · simp at hliteral
      · next hhead =>
          obtain rfl : head = "Literal" := not_not.1 hhead
          rw [← leafBranches_stripAnnotated, hstrip, leafBranches, if_neg (by simp),
            List.mem_singleton] at hbranch
          subst hbranch
          rw [TypeAdmits, if_pos rfl, someLiteralAdmits, someLiteralAdmits, or_false,
            ← literalAdmits_stripAnnotated] at hx
          split at hliteral
          · next harg =>
              rw [harg, literalAdmits, r.literal_true, Option.some.injEq] at hx
              rw [← hx, Option.some.inj hliteral]
          · split at hliteral
            · next harg =>
                rw [harg, literalAdmits, r.literal_false, Option.some.injEq] at hx
                rw [← hx, Option.some.inj hliteral]
            · simp at hliteral
    | [] => simp [hstrip] at hliteral
    | _ :: _ :: _ => simp [hstrip] at hliteral
  | name _ => simp [hstrip] at hliteral
  | callable _ _ => simp [hstrip] at hliteral
  | union _ => simp [hstrip] at hliteral
  | annotated _ _ => simp [hstrip] at hliteral
  | unpack _ => simp [hstrip] at hliteral

/-- A test of the truth such a type has leaves it alone. -/
theorem truthyNarrowing_of_literalBool {value : Bool}
    (hliteral : semanticLiteralBoolValue base = some value) :
    applyTruthySemanticNarrowing base value = base := by
  unfold applyTruthySemanticNarrowing
  simp only [hliteral, if_true]

/-! ### False values -/

theorem typeAdmits_literal (args : List SemanticType) (x : PyValue) :
    TypeAdmits r (.generic "Literal" args) x ↔ someLiteralAdmits r args x := by
  rw [TypeAdmits, if_pos rfl]

theorem typeAdmits_container {head : String} (hhead : head ∈ builtinContainers)
    (args : List SemanticType) (x : PyValue) :
    TypeAdmits r (.generic head args) x
      ↔ containerAdmits head (AnyLength args) (fun item => FirstAdmits r args item)
          (fun item => SecondAdmits r args item) (fun items => EachAdmits r args items) x := by
  have hliteral : head ≠ "Literal" := by
    rintro rfl
    exact absurd hhead (by decide)
  have hoptional : ¬(head = "Optional" ∧ args.length = 1) := by
    rintro ⟨rfl, -⟩
    exact absurd hhead (by decide)
  rw [TypeAdmits, if_neg hliteral, if_neg hoptional, if_pos hhead]

theorem typeAdmits_tuple_nil (args : List SemanticType) :
    TypeAdmits r (.generic "tuple" args) (.tuple []) ↔ AnyLength args ∨ EachAdmits r args [] := by
  rw [typeAdmits_container (by decide), containerAdmits]
  by_cases hany : AnyLength args <;> simp [hany]

/-- The only false value of a tuple type is the empty tuple. -/
theorem eq_nil_of_tuple {args : List SemanticType} (hx : TypeAdmits r (.generic "tuple" args) x)
    (hfalse : x.isTrue = false) : x = .tuple [] := by
  rw [typeAdmits_container (by decide)] at hx
  cases x with
  | tuple items =>
    rw [PyValue.isTrue, Bool.not_eq_false', List.isEmpty_iff] at hfalse
    rw [hfalse]
  | list _ => exact absurd hx.1 (by decide)
  | set _ => exact absurd hx.1 (by decide)
  | frozenset _ => exact absurd hx.1 (by decide)
  | dict _ => exact absurd hx.1 (by decide)
  | _ => exact absurd hx id

/-- A container type that may be false has a false value, and it is not `None`. -/
theorem exists_empty {head : String} {args : List SemanticType} (hliteral : head ≠ "Literal")
    (hleaf : semanticUnionBranches (.generic head args) = none)
    (h : MayBeFalsy r (.generic head args)) :
    ∃ x, TypeAdmits r (.generic head args) x ∧ x.isTrue = false ∧ x ≠ .none := by
  rw [MayBeFalsy, if_neg hliteral] at h
  by_cases htuple : head = "tuple"
  · subst htuple
    rw [if_pos rfl] at h
    exact ⟨.tuple [], (typeAdmits_tuple_nil args).2 h, rfl, by simp⟩
  rw [if_neg htuple] at h
  by_cases hbuiltin : head ∈ builtinContainers
  · simp only [typeAdmits_container hbuiltin]
    simp only [builtinContainers, List.mem_cons, List.not_mem_nil, or_false] at hbuiltin
    rcases hbuiltin with rfl | rfl | rfl | rfl | rfl
    · exact ⟨.list [], ⟨rfl, by simp⟩, rfl, by simp⟩
    · exact absurd rfl htuple
    · exact ⟨.set [], ⟨rfl, by simp⟩, rfl, by simp⟩
    · exact ⟨.frozenset [], ⟨rfl, by simp⟩, rfl, by simp⟩
    · exact ⟨.dict [], ⟨rfl, by simp⟩, rfl, by simp⟩
  · obtain ⟨x, hx, hfalse, hnone⟩ := r.container_empty head (h.resolve_left hbuiltin) args
    have hoptional : ¬(head = "Optional" ∧ args.length = 1) := by
      rintro ⟨rfl, hlength⟩
      obtain ⟨inner, rfl⟩ := List.length_eq_one_iff.1 hlength
      simp [semanticUnionBranches, SemanticType.stripAnnotated] at hleaf
    refine ⟨x, ?_, hfalse, hnone⟩
    rw [TypeAdmits, if_neg hliteral, if_neg hoptional, if_neg hbuiltin]
    exact hx

/-- What may be false by its shape has a false value, and the other listed types have none. -/
theorem exists_falsy_iff (hlisted : ListedBranch r branch)
    (hleaf : semanticUnionBranches branch = none) :
    (∃ x, TypeAdmits r branch x ∧ x.isTrue = false) ↔ MayBeFalsy r branch := by
  cases branch with
  | name name =>
    refine iff_of_true ?_ hlisted
    have hname : name ∈ builtinNames := hlisted
    obtain ⟨entry, hentry, rfl⟩ := List.mem_map.1 hname
    obtain ⟨hinstance, hfalse⟩ := falsyValues_spec entry hentry
    exact ⟨entry.2, by rw [TypeAdmits, if_pos hname]; exact hinstance, hfalse⟩
  | generic head args =>
    by_cases hliteral : head = "Literal"
    · subst hliteral
      rw [MayBeFalsy, if_pos rfl]
      simp only [typeAdmits_literal]
    constructor
    · rintro ⟨x, hx, hfalse⟩
      rw [MayBeFalsy, if_neg hliteral]
      split
      · next htuple =>
          subst htuple
          rw [← typeAdmits_tuple_nil, ← eq_nil_of_tuple hx hfalse]
          exact hx
      · exact hlisted.resolve_left hliteral
    · intro h
      obtain ⟨x, hx, hfalse, -⟩ := exists_empty hliteral hleaf h
      exact ⟨x, hx, hfalse⟩
  | callable _ _ => exact absurd hlisted id
  | union _ => exact absurd hlisted id
  | annotated _ _ => exact absurd hlisted id
  | unpack _ => exact absurd hlisted id

theorem listedBranch_of_mayBeFalsy (h : MayBeFalsy r branch) : ListedBranch r branch := by
  cases branch with
  | name name => exact h
  | generic head args =>
    rw [MayBeFalsy] at h
    split at h
    · next hliteral => exact .inl hliteral
    · split at h
      · next htuple => exact .inr (.inl (by rw [htuple]; decide))
      · exact .inr h
  | callable _ _ => exact absurd h id
  | union _ => exact absurd h id
  | annotated _ _ => exact absurd h id
  | unpack _ => exact absurd h id

theorem eq_none_of_onlyNone (h : OnlyNone r branch) (hx : TypeAdmits r branch x) : x = .none := by
  cases branch with
  | name name =>
    obtain rfl : name = "None" := h
    rw [TypeAdmits, if_pos (by decide)] at hx
    exact eq_none_of_isInstanceOf hx
  | generic head args =>
    obtain ⟨rfl, hnone⟩ := h
    exact hnone x ((typeAdmits_literal args x).1 hx)
  | callable _ _ => exact absurd h id
  | union _ => exact absurd h id
  | annotated _ _ => exact absurd h id
  | unpack _ => exact absurd h id

/-- A listed type that may be false and is more than `None` has a value other than `None`. -/
theorem exists_not_none (h : MayBeFalsy r branch) (hnone : ¬OnlyNone r branch)
    (hleaf : semanticUnionBranches branch = none) : ∃ x, TypeAdmits r branch x ∧ x ≠ .none := by
  cases branch with
  | name name =>
    have hname : name ∈ builtinNames := h
    obtain ⟨entry, hentry, rfl⟩ := List.mem_map.1 hname
    refine ⟨entry.2, ?_, fun hentryNone => ?_⟩
    · rw [TypeAdmits, if_pos hname]
      exact (falsyValues_spec entry hentry).1
    · refine hnone (isInstanceOf_none_iff.1 ?_)
      rw [← hentryNone]
      exact (falsyValues_spec entry hentry).1
  | generic head args =>
    by_cases hliteral : head = "Literal"
    · subst hliteral
      simp only [typeAdmits_literal]
      by_contra hall
      push Not at hall
      exact hnone ⟨rfl, hall⟩
    · obtain ⟨x, hx, -, hne⟩ := exists_empty hliteral hleaf h
      exact ⟨x, hx, hne⟩
  | callable _ _ => exact absurd h id
  | union _ => exact absurd h id
  | annotated _ _ => exact absurd h id
  | unpack _ => exact absurd h id

/-! ### Unions with `None` -/

theorem leafBranches_none : leafBranches (.name "None") = [.name "None"] := by
  rw [leafBranches]

theorem typeAdmits_none (x : PyValue) : TypeAdmits r (.name "None") x ↔ x = .none := by
  rw [TypeAdmits, if_pos (by decide)]
  exact ⟨eq_none_of_isInstanceOf, fun h => by rw [h]; decide⟩

theorem survives_none_iff :
    Survives r (.name "None") branch ↔ ∀ x, TypeAdmits r branch x → x = .none := by
  unfold Survives
  rw [leafBranches_none]
  simp only [List.mem_singleton, exists_eq_left, typeAdmits_none]

/-- The true case keeps every branch but `None`, which is never true. -/
theorem truthyBranch_survives {branches : List SemanticType} (h : SplitsOffNone base branches)
    (hbranch : branch ∈ leafBranches base) (hx : TypeAdmits r branch x) (htrue : x.isTrue = true) :
    Survives r (applyTruthySemanticNarrowing base true) branch := by
  rw [truthyNarrowing_of_splits h, if_pos rfl]
  obtain ⟨candidate, hcandidate, hleaf⟩ := (mem_leafBranches_union h.1).1 hbranch
  refine survives_refl (mem_leafBranches_join.2 ⟨candidate, ?_, hleaf⟩)
  refine List.mem_filter.2 ⟨hcandidate, ?_⟩
  simp only [ne_eq, decide_not, Bool.not_eq_true', decide_eq_false_iff_not]
  intro hnone
  rw [← leafBranches_stripAnnotated, hnone, leafBranches_none, List.mem_singleton] at hleaf
  rw [hleaf, typeAdmits_none] at hx
  rw [hx] at htrue
  exact absurd htrue (by decide)

/-- Narrowing by truthiness loses a reachable branch of exactly the unions with `None` whose
other branches all look true though one of them may be false. -/
theorem truthinessSound_iff (r : Reading) (base : SemanticType) :
    TruthinessSound r base ↔ ¬LosesFalsyBranch r base := by
  constructor
  · rintro hsound ⟨⟨branches, hsplits⟩, branch, hbranch, hfalsy, hnone⟩
    have hleaf := no_union_of_mem_leafBranches base hbranch
    have hlisted := listedBranch_of_mayBeFalsy hfalsy
    have hsurvives := hsound false branch hbranch hlisted
      ((exists_falsy_iff hlisted hleaf).2 hfalsy)
    rw [truthyNarrowing_of_splits hsplits, if_neg (by decide), survives_none_iff] at hsurvives
    obtain ⟨x, hx, hne⟩ := exists_not_none hfalsy hnone hleaf
    exact hne (hsurvives x hx)
  · rintro hkept branchTrue branch hbranch hlisted ⟨x, hx, htruth⟩
    cases hliteral : semanticLiteralBoolValue base with
    | some value =>
      have hvalue := branch_of_literalBool hliteral hbranch hx
      rw [hvalue, PyValue.isTrue] at htruth
      rw [← htruth, truthyNarrowing_of_literalBool hliteral]
      exact survives_refl hbranch
    | none =>
      by_cases hsplits : ∃ branches, SplitsOffNone base branches
      · obtain ⟨branches, hsplits'⟩ := hsplits
        cases branchTrue with
        | true => exact truthyBranch_survives hsplits' hbranch hx htruth
        | false =>
          have hfalsy := (exists_falsy_iff hlisted (no_union_of_mem_leafBranches base hbranch)).1
            ⟨x, hx, htruth⟩
          have honly : OnlyNone r branch := by
            by_contra hnone
            exact hkept ⟨⟨branches, hsplits'⟩, branch, hbranch, hfalsy, hnone⟩
          rw [truthyNarrowing_of_splits hsplits', if_neg (by decide), survives_none_iff]
          exact fun y hy => eq_none_of_onlyNone honly hy
      · rw [truthyNarrowing_of_not_splits hliteral hsplits]
        exact survives_refl hbranch

end

/-! ## A list or nothing -/

/-- The reading with the boolean literals and no other classes. -/
def builtinReading : Reading where
  literal text :=
    if text = "None" then some .none
    else if text = "True" then some (.bool true)
    else if text = "False" then some (.bool false)
    else none
  literal_none := by simp
  literal_true := by simp
  literal_false := by simp
  other _ _ := False
  containers := []
  container_empty := fun _ h => absurd h List.not_mem_nil

/-- In the false case `list[int] | None` is narrowed to `None`: the empty list is lost. -/
theorem listOrNone_not_sound :
    ¬TruthinessSound builtinReading (.union [.generic "list" [.name "int"], .name "None"]) := by
  intro hsound
  have hlist : TypeAdmits builtinReading (.generic "list" [.name "int"]) (.list []) := by
    rw [typeAdmits_container (by decide)]
    exact ⟨rfl, by simp⟩
  have hsurvives := hsound false (.generic "list" [.name "int"]) (by decide)
    (.inr (.inl (by decide))) ⟨.list [], hlist, rfl⟩
  rw [show applyTruthySemanticNarrowing (.union [.generic "list" [.name "int"], .name "None"]) false
    = .name "None" by decide, survives_none_iff] at hsurvives
  exact nomatch hsurvives _ hlist

end TypePython.Checking
