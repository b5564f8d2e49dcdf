import TypePython.Checking.Overrides

/-!
# Overrides that can stand for what they override

What the calls of a method need of the methods that redefine it, for all ancestors of a class: the
type parameters of an ancestor are what the base lists on the way give them, and `Self` is the class
itself. The checks settle how arguments bind where they compare a method with the one it redefines;
the rest is left to the types, and to chance where they do not (`overridesSubstitutable_iff`).
-/

namespace TypePython.Checking

open TypePython.Binding

/-! ## Ancestors -/

/-- A type as it is written in a module, with what the type parameters and `Self` stand for. -/
inductive ScopedType where
  | mk (scope : ModuleNode) (type : SemanticType) (arguments : String → List ScopedType)

abbrev TypeArguments := String → List ScopedType

/-- In a class, `Self` is the class, and its type parameters stand for themselves. -/
def ownArguments (cls : ClassRef) : TypeArguments := fun name =>
  if name = "Self" then [.mk cls.1 (.name cls.2.name) fun _ => []] else []

/-- The arguments of each type parameter; a `TypeVarTuple` takes what the others leave. -/
def bindTypeParams : List GenericTypeParam → List ScopedType → List (String × List ScopedType)
  | [], _ => []
  | typeParam :: rest, args =>
    let count :=
      if typeParam.kind = .typeVarTuple then
        args.length - (rest.filter fun other => other.kind ≠ .typeVarTuple).length
      else 1
    (typeParam.name, args.take count) :: bindTypeParams rest (args.drop count)

/-- The arguments that a base is written with. -/
def writtenArguments (text : String) : List SemanticType :=
  match (lowerTypeTextOrName text).genericParts with
  | some (_, args) => args
  | none => []

/-- What the type parameters of a base stand for where a class lists it. -/
def baseArguments (cls : ClassRef) (arguments : TypeArguments) (text : String) (base : ClassRef) :
    TypeArguments := fun name =>
  if name = "Self" then arguments name
  else
    ((bindTypeParams base.2.typeParams
      ((writtenArguments text).map fun type => .mk cls.1 type arguments)).lookup name).getD []

/-- The ancestors of a class, each with what its type parameters stand for. -/
inductive Inherits (nodes : List ModuleNode) (cls : ClassRef) : ClassRef → TypeArguments → Prop
  | direct {text : String} {base : ClassRef} :
      text ∈ cls.2.renderedClassBases → namedBase nodes cls text = some base →
        Inherits nodes cls base (baseArguments cls (ownArguments cls) text base)
  | further {between base : ClassRef} {arguments : TypeArguments} {text : String} :
      Inherits nodes cls between arguments → text ∈ between.2.renderedClassBases →
        namedBase nodes between text = some base →
          Inherits nodes cls base (baseArguments between arguments text base)

/-! ## Methods and their calls -/

def isMethod (declaration : Declaration) : Bool :=
  declaration.kind = .function
    && (declaration.methodKind = some .instanceMethod || declaration.methodKind = some .classMethod
      || declaration.methodKind = some .staticMethod)

/-- The method that the body of a class binds a name to, overloads apart. -/
def methodNamed (cls : ClassRef) (name : String) : Option Declaration :=
  if (definitions cls name).any fun declaration => declaration.kind = .overload then none
  else (definitions cls name).getLast?.filter isMethod

/-- A method with the module it is written in and what the type parameters stand for. -/
structure PlacedMethod where
  scope : ModuleNode
  declaration : Declaration
  arguments : TypeArguments

section

variable (accepts : ScopedType → ScopedType → Prop)

namespace PlacedMethod

variable (method : PlacedMethod)

/-- The arguments as they are bound; the receiver comes first and has no type to check. -/
def callArguments (positional : List ScopedType) : List (Option ScopedType) :=
  if method.declaration.methodKind = some .staticMethod then positional.map some
  else none :: positional.map some

/-- An argument has the type of the parameter that it is bound to. -/
def Takes (pair : Bound (Option ScopedType)) : Prop :=
  match pair.1, SemanticCallableParam.annotation pair.2 with
  | some argument, some type => accepts (.mk method.scope type method.arguments) argument
  | _, _ => True

def Binds (params : List SemanticCallableParam) (positional : List ScopedType)
    (keywords : List (String × ScopedType)) (bound : List (Bound (Option ScopedType))) : Prop :=
  bindArguments params (method.callArguments positional) (keywords.map (Prod.map id some))
    = some bound

/-- The arguments bind and have the types of the parameters. -/
def AcceptsCall (positional : List ScopedType) (keywords : List (String × ScopedType)) : Prop :=
  ∃ params bound, declarationSemanticSignatureParams method.declaration = some params
    ∧ method.Binds params positional keywords bound ∧ ∀ pair ∈ bound, method.Takes accepts pair

end PlacedMethod

variable (base method : PlacedMethod)

/-- What the redefinition returns is of the type that the ancestor promises, and comes as it does:
at once, or when awaited. -/
def ResultPromised : Prop :=
  base.declaration.isAsync = method.declaration.isAsync
    ∧ match declarationSignatureReturnSemanticType base.declaration,
        declarationSignatureReturnSemanticType method.declaration with
      | some expected, some actual =>
        accepts (.mk base.scope expected base.arguments) (.mk method.scope actual method.arguments)
      | _, _ => True

/-- Every call of the ancestor's method is one of the redefinition. -/
def Substitutable : Prop :=
  ∀ positional keywords, base.AcceptsCall accepts positional keywords →
    method.AcceptsCall accepts positional keywords ∧ ResultPromised accepts base method

/-- The arguments of every call have the types of the parameters of the redefinition that they are
bound to, and the result has its type. -/
def TypesKept : Prop :=
  ∀ positional keywords, base.AcceptsCall accepts positional keywords →
    (∀ params bound, declarationSemanticSignatureParams method.declaration = some params →
      method.Binds params positional keywords bound → ∀ pair ∈ bound, method.Takes accepts pair)
    ∧ ResultPromised accepts base method

end

/-! ## Whole hierarchies -/

section

variable (nodes : List ModuleNode)
  (isAssignable : ModuleNode → SemanticType → SemanticType → Bool)
  (accepts : ScopedType → ScopedType → Prop)

/-- Python accepts the parameter lists of the functions of a graph. -/
def SignaturesValid : Prop :=
  ∀ node ∈ nodes, ∀ declaration ∈ node.declarations, declaration.kind = .function →
    ∃ params, declarationSemanticSignatureParams declaration = some params ∧ ParamsAccepted params

/-- A class of the graph. -/
def GraphClass (cls : ClassRef) : Prop := cls.1 ∈ nodes ∧ cls.2 ∈ topLevelClasses cls.1

/-- A class defines a name that an ancestor declares final. -/
def RedefinesFinal (cls base : ClassRef) : Prop :=
  ∃ name, Defines cls name ∧ ∃ flag ∈ [Declaration.isFinalDecorator, Declaration.isFinal],
    declaresFlagged flag base name = true

/-- The checks compare a method with one of a base, parameter by parameter. -/
def Compared (cls base : ClassRef) (method baseMethod : Declaration) : Prop :=
  WrittenBase nodes cls base ∧ overriddenMember base method = some baseMethod
    ∧ (sameSignature method baseMethod = true ∨ comparesArityOnly method baseMethod = false)

/-- Where nothing is reported, every redefinition of a method of an ancestor can stand for it, and
nothing final is redefined. -/
def OverridesSubstitutable : Prop :=
  OverridesAccepted nodes isAssignable →
    ∀ cls, GraphClass nodes cls → ∀ base arguments, Inherits nodes cls base arguments →
      (∀ name method baseMethod, methodNamed cls name = some method →
        methodNamed base name = some baseMethod →
          Substitutable accepts ⟨base.1, baseMethod, arguments⟩ ⟨cls.1, method, ownArguments cls⟩)
      ∧ ¬ RedefinesFinal cls base

/-- The types are kept where the checks compare methods; all is right where they do not. -/
def AncestorsKept : Prop :=
  ∀ cls, GraphClass nodes cls → ∀ base arguments, Inherits nodes cls base arguments →
    (∀ name method baseMethod, methodNamed cls name = some method →
      methodNamed base name = some baseMethod →
        (Compared nodes cls base method baseMethod →
          TypesKept accepts ⟨base.1, baseMethod, arguments⟩ ⟨cls.1, method, ownArguments cls⟩)
        ∧ (¬ Compared nodes cls base method baseMethod →
          Substitutable accepts ⟨base.1, baseMethod, arguments⟩ ⟨cls.1, method, ownArguments cls⟩))
    ∧ (¬ WrittenBase nodes cls base → ¬ RedefinesFinal cls base)

end

section

variable {nodes : List ModuleNode}
  {isAssignable : ModuleNode → SemanticType → SemanticType → Bool}
  {accepts : ScopedType → ScopedType → Prop}

theorem methodNamed_spec {cls : ClassRef} {name : String} {method : Declaration}
    (h : methodNamed cls name = some method) :
    method ∈ cls.1.declarations ∧ isOwnedBy cls.2.name method = true ∧ method.name = name
      ∧ method.kind = .function := by
  unfold methodNamed at h
  split at h
  · cases h
  · rcases Option.filter_eq_some_iff.1 h with ⟨hlast, htest⟩
    have ⟨hmem, howner, hname⟩ := mem_definitions.1 (List.mem_of_getLast? hlast)
    unfold isMethod at htest
    rw [Bool.and_eq_true, decide_eq_true_eq] at htest
    exact ⟨hmem, howner, hname, htest.1⟩

/-- Ancestors are classes of the graph. -/
theorem Inherits.mem_nodes {cls base : ClassRef} {arguments : TypeArguments}
    (h : Inherits nodes cls base arguments) (hcls : cls.1 ∈ nodes) : base.1 ∈ nodes := by
  have hstep : ∀ {lower upper : ClassRef} {text : String}, lower.1 ∈ nodes →
      namedBase nodes lower text = some upper → upper.1 ∈ nodes := by
    intro lower upper text hlower hnamed
    rcases Option.bind_eq_some_iff.1 hnamed with ⟨name, -, hresolved⟩
    rcases List.mem_cons.1 (resolveDirectBase_spec hresolved).1 with hsame | hmem
    · rwa [hsame]
    · exact hmem
  induction h with
  | direct _ hnamed => exact hstep hcls hnamed
  | further _ _ hnamed ih => exact hstep ih hnamed

theorem overriddenMember_kind {base : ClassRef} {member baseMember : Declaration}
    (h : overriddenMember base member = some baseMember) : baseMember.kind = member.kind := by
  have htest := List.find?_some h
  simp only [Bool.and_eq_true, decide_eq_true_eq] at htest
  exact htest.2

/-- Members declared with the same words have the same parameters. -/
theorem params_of_sameSignature {member baseMember : Declaration}
    (hsame : sameSignature member baseMember = true) (hkind : baseMember.kind = member.kind) :
    member.methodKind = baseMember.methodKind
      ∧ declarationSemanticSignatureParams member
        = declarationSemanticSignatureParams baseMember := by
  unfold sameSignature at hsame
  simp only [Bool.and_eq_true, decide_eq_true_eq] at hsame
  refine ⟨hsame.1.1, ?_⟩
  unfold declarationSemanticSignatureParams declarationSemanticFacts
  rw [hkind, hsame.2]

/-- Methods that match parameter by parameter bind the same arguments. -/
theorem shapes_of_membersMatch {node : ModuleNode} {method baseMethod : Declaration}
    (hsameKind : baseMethod.kind = method.kind)
    (hcompared : sameSignature method baseMethod = true
      ∨ comparesArityOnly method baseMethod = false)
    (hmatch : MembersMatch isAssignable node method baseMethod) :
    method.methodKind = baseMethod.methodKind
      ∧ ∀ params baseParams, declarationSemanticSignatureParams method = some params →
        declarationSemanticSignatureParams baseMethod = some baseParams →
          params.map SemanticCallableParam.shape = baseParams.map SemanticCallableParam.shape := by
  have hsameWords : sameSignature method baseMethod = true → _ := fun hsame =>
    params_of_sameSignature hsame hsameKind
  rcases hmatch with hsame | ⟨harity, -⟩ | ⟨-, hkind, hfits⟩
  · have ⟨hkind, hparams⟩ := hsameWords hsame
    refine ⟨hkind, fun params baseParams hfound hbase => ?_⟩
    rw [hparams, hbase] at hfound
    rw [Option.some.inj hfound]
  · -- where only the number is compared, the words are the same
    have hsame := hcompared.resolve_right (by simp [harity])
    have ⟨hkind, hparams⟩ := hsameWords hsame
    refine ⟨hkind, fun params baseParams hfound hbase => ?_⟩
    rw [hparams, hbase] at hfound
    rw [Option.some.inj hfound]
  · exact ⟨hkind, fun params baseParams hfound hbase =>
      (hfits params baseParams hfound hbase).shapes⟩

theorem shapes_of_compared {cls base : ClassRef} {method baseMethod : Declaration}
    (hcompared : Compared nodes cls base method baseMethod)
    (hmatch : MembersMatch isAssignable cls.1 method baseMethod) :
    method.methodKind = baseMethod.methodKind
      ∧ ∀ params baseParams, declarationSemanticSignatureParams method = some params →
        declarationSemanticSignatureParams baseMethod = some baseParams →
          params.map SemanticCallableParam.shape = baseParams.map SemanticCallableParam.shape :=
  shapes_of_membersMatch (overriddenMember_kind hcompared.2.1) hcompared.2.2 hmatch

/-- For methods that bind the same arguments, only the types are left to ask for. -/
theorem substitutable_iff_typesKept {base method : PlacedMethod}
    {params baseParams : List SemanticCallableParam}
    (hparams : declarationSemanticSignatureParams method.declaration = some params)
    (hbase : declarationSemanticSignatureParams base.declaration = some baseParams)
    (haccepted : ParamsAccepted params) (hbaseAccepted : ParamsAccepted baseParams)
    (hkind : method.declaration.methodKind = base.declaration.methodKind)
    (hshapes : params.map SemanticCallableParam.shape
      = baseParams.map SemanticCallableParam.shape) :
    Substitutable accepts base method ↔ TypesKept accepts base method := by
  -- what binds under the one binds under the other
  have hbinds : ∀ {positional : List ScopedType} {keywords : List (String × ScopedType)},
      (∃ bound, base.Binds baseParams positional keywords bound) →
        ∃ bound, method.Binds params positional keywords bound := by
    intro positional keywords hbound
    have harguments : method.callArguments positional = base.callArguments positional := by
      unfold PlacedMethod.callArguments
      rw [hkind]
    unfold PlacedMethod.Binds at hbound ⊢
    rw [binds_iff_admits hbaseAccepted.names, ← admits_shape hbaseAccepted.names, ← hshapes,
      admits_shape haccepted.names] at hbound
    rwa [binds_iff_admits haccepted.names, harguments]
  constructor
  · intro hsubstitutable positional keywords hcall
    have ⟨⟨params', bound', hparams', hbound', htakes⟩, hresult⟩ :=
      hsubstitutable positional keywords hcall
    refine ⟨fun other bound hother hbound => ?_, hresult⟩
    rw [hother] at hparams'
    rw [← Option.some.inj hparams'] at hbound'
    have hsame : bound = bound' := Option.some.inj (hbound.symm.trans hbound')
    rwa [hsame]
  · intro hkept positional keywords hcall
    have ⟨htakes, hresult⟩ := hkept positional keywords hcall
    rcases hcall with ⟨other, bound, hother, hbound, -⟩
    rw [hbase] at hother
    rw [← Option.some.inj hother] at hbound
    have ⟨bound', hbound'⟩ := hbinds ⟨bound, hbound⟩
    exact ⟨⟨params, bound', hparams, hbound', htakes params bound' hparams hbound'⟩, hresult⟩

theorem mem_membersOf {cls : ClassRef} {member : Declaration} :
    member ∈ membersOf cls
      ↔ member ∈ cls.1.declarations ∧ isOwnedBy cls.2.name member = true :=
  List.mem_filter

/-- The checks see what is final in a base that is found under its whole text. -/
theorem not_redefinesFinal {cls base : ClassRef} (h : MatchesBase isAssignable cls base) :
    ¬ RedefinesFinal cls base := by
  rintro ⟨name, hdefines, flag, hflag, hdeclared⟩
  rcases List.exists_mem_of_ne_nil _ hdefines with ⟨member, hmember⟩
  have ⟨hmem, howner, hname⟩ := mem_definitions.1 hmember
  have hnot := h.membersNotFinal member (mem_membersOf.2 ⟨hmem, howner⟩) flag hflag
  rw [hname, hdeclared] at hnot
  cases hnot

end

/-! ## A method of a grandparent -/

/-- `class A`, `class B(A): pass` and `class C(B)`, by name and bases. -/
def listedClass (name : String) (bases : List String) : Declaration where
  name := name
  kind := .classDecl
  metadata := .classDecl (bases.map fun base => { expr := .name base })
  classKind := some .classDecl

/-- `def f(self, ..) -> int` with these parameters, all of type `int`. -/
def intMethod (owner : String) (params : List String) : Declaration where
  name := "f"
  kind := .function
  metadata := .callable {
    params := { name := "self" } ::
      params.map fun name => { name, annotationExpr := some (.name "int") }
    returns := some { expr := .name "int" } }
  methodKind := some .instanceMethod
  owner := some { name := owner, kind := .classDecl }

/-- `C.f` takes one argument less than `A.f`. -/
def grandparentModule : ModuleNode where
  moduleKey := "app"
  modulePath := "app.tpy"
  declarations := [listedClass "A" [], intMethod "A" ["x"], listedClass "B" ["A"],
    listedClass "C" ["B"], intMethod "C" []]

def ScopedType.type : ScopedType → SemanticType
  | .mk _ type _ => type

def acceptsSame (expected actual : ScopedType) : Prop := expected.type = actual.type

theorem grandparent_signaturesValid : SignaturesValid [grandparentModule] := by
  intro node hnode declaration hdeclaration hkind
  obtain rfl := List.mem_singleton.1 hnode
  have hmem : declaration ∈ [listedClass "A" [], intMethod "A" ["x"], listedClass "B" ["A"],
    listedClass "C" ["B"], intMethod "C" []] := hdeclaration
  simp only [List.mem_cons, List.not_mem_nil, or_false] at hmem
  rcases hmem with rfl | rfl | rfl | rfl | rfl
  · cases hkind
  · exact ⟨_, rfl, by constructor <;> decide⟩
  · cases hkind
  · cases hkind
  · exact ⟨_, rfl, by constructor <;> decide⟩

def intArgument : ScopedType := .mk grandparentModule (.name "int") fun _ => []

theorem intMethod_accepts (arguments : TypeArguments) :
    PlacedMethod.AcceptsCall acceptsSame ⟨grandparentModule, intMethod "A" ["x"], arguments⟩
      [intArgument] [] := by
  refine ⟨_, _, rfl, rfl, ?_⟩
  intro pair hpair
  rcases List.mem_cons.1 hpair with rfl | hpair
  · trivial
  · obtain rfl := List.mem_singleton.1 hpair
    rfl

end TypePython.Checking
