import TypePython.Binding.Graph

/-!
# Preludes

The modules `typing`, `typing_extensions` and `collections.abc`, as they are known when no
source declares them.
-/

namespace TypePython.Binding

open TypePython.Syntax

def preludeParam (name annotationText : String) : DirectFunctionParamSite where
  name := name
  annotation := some annotationText
  annotationExpr := TypeExpr.parse annotationText

def preludeUntypedParam (name : String) : DirectFunctionParamSite where
  name := name

def preludeSignature (params : List DirectFunctionParamSite) (returns : String) :
    BoundCallableSignature where
  params := params
  returns := some (.new returns)

def preludeTypeAlias (name valueText : String) : Declaration where
  name := name
  kind := .typeAlias
  metadata := .typeAlias (.new valueText) none

def preludeFunction (name : String) (params : List DirectFunctionParamSite) (returns : String) :
    Declaration where
  name := name
  kind := .function
  metadata := .callable (preludeSignature params returns)

def preludeValue (name annotationText : String) : Declaration where
  name := name
  kind := .value
  metadata := .value (some (.new annotationText))
  valueTypeExpr := some (.new annotationText)

def preludeProtocolClass (name : String) : Declaration where
  name := name
  kind := .classDecl
  metadata := .classDecl []
  classKind := some .interface

def preludeClass (name : String) : Declaration where
  name := name
  kind := .classDecl
  metadata := .classDecl []
  classKind := some .classDecl

/-- A method of a prelude protocol: its name, its parameters and what it returns. -/
structure PreludeMethod where
  name : String
  params : List DirectFunctionParamSite
  returns : String

def preludeProtocolMethod (className : String) (method : PreludeMethod) : Declaration where
  name := method.name
  kind := .function
  metadata := .callable (preludeSignature method.params method.returns)
  methodKind := some .instanceMethod
  owner := some { name := className, kind := .interface }

def preludeProtocolClassWithMethods (name : String) (bases : List String)
    (methods : List PreludeMethod) : List Declaration :=
  { name
    kind := .classDecl
    metadata := .classDecl (bases.map .new)
    classKind := some .interface
    bases } :: methods.map (preludeProtocolMethod name)

def selfParam : DirectFunctionParamSite := preludeUntypedParam "self"

def throwParams : List DirectFunctionParamSite :=
  [selfParam, preludeParam "typ" "Any", preludeParam "val" "Any", preludeParam "tb" "Any"]

/-! ## The modules -/

/-- The asynchronous protocols `typing` and `collections.abc` share. -/
def asyncProtocols : List Declaration :=
  preludeProtocolClassWithMethods "AsyncIterable" []
      [⟨"__aiter__", [selfParam], "AsyncIterator[Any]"⟩]
    ++ preludeProtocolClassWithMethods "AsyncIterator" ["AsyncIterable"]
      [⟨"__anext__", [selfParam], "Awaitable[Any]"⟩]
    ++ preludeProtocolClassWithMethods "AsyncGenerator" ["AsyncIterator"]
      [⟨"asend", [selfParam, preludeParam "value" "Any"], "Awaitable[Any]"⟩,
        ⟨"athrow", throwParams, "Awaitable[Any]"⟩,
        ⟨"aclose", [selfParam], "Awaitable[None]"⟩]

def typingPreludeDeclarations : List Declaration :=
  [preludeTypeAlias "Any" "Any",
    preludeTypeAlias "List" "list[Any]",
    preludeTypeAlias "Dict" "dict[Any, Any]",
    preludeTypeAlias "Tuple" "tuple[Any, ...]",
    preludeTypeAlias "Set" "set[Any]",
    preludeTypeAlias "FrozenSet" "frozenset[Any]",
    preludeTypeAlias "Optional" "Optional[Any]",
    preludeTypeAlias "Union" "Union[Any, Any]",
    preludeTypeAlias "Callable" "Callable",
    preludeTypeAlias "Literal" "Literal",
    preludeTypeAlias "Concatenate" "Concatenate",
    preludeValue "TYPE_CHECKING" "bool",
    preludeClass "TypedDict",
    preludeProtocolClass "Protocol"]
  ++ preludeProtocolClassWithMethods "Awaitable" []
    [⟨"__await__", [selfParam], "Iterator[Any]"⟩]
  ++ asyncProtocols
  ++ preludeProtocolClassWithMethods "Coroutine" ["Awaitable"]
    [⟨"send", [selfParam, preludeParam "value" "Any"], "Any"⟩,
      ⟨"throw", throwParams, "Any"⟩,
      ⟨"close", [selfParam], "None"⟩]
  ++ preludeProtocolClassWithMethods "Generator" ["Iterator"]
    [⟨"send", [selfParam, preludeParam "value" "Any"], "Any"⟩,
      ⟨"throw", throwParams, "Any"⟩,
      ⟨"close", [selfParam], "None"⟩]
  ++ [preludeFunction "cast" [preludeUntypedParam "t", preludeUntypedParam "value"] "Any",
    preludeFunction "NewType" [preludeParam "name" "str", preludeUntypedParam "typ"] "NewType",
    preludeFunction "TypeVar" [preludeParam "name" "str"] "TypeVar",
    preludeFunction "ParamSpec" [preludeParam "name" "str"] "ParamSpec",
    preludeFunction "TypeVarTuple" [preludeParam "name" "str"] "TypeVarTuple"]

def collectionsAbcPreludeDeclarations : List Declaration :=
  preludeProtocolClassWithMethods "Sized" [] [⟨"__len__", [selfParam], "int"⟩]
  ++ preludeProtocolClassWithMethods "Iterable" ["Sized"]
    [⟨"__iter__", [selfParam], "Iterator[Any]"⟩]
  ++ preludeProtocolClassWithMethods "Sequence" ["Sized", "Iterable"]
    [⟨"__getitem__", [selfParam, preludeParam "index" "int"], "Any"⟩,
      ⟨"__iter__", [selfParam], "Iterator[Any]"⟩,
      ⟨"count", [selfParam, preludeParam "item" "object"], "int"⟩,
      ⟨"index", [selfParam, preludeParam "item" "object"], "int"⟩]
  ++ preludeProtocolClassWithMethods "Mapping" ["Sized", "Iterable"]
    [⟨"__getitem__", [selfParam, preludeParam "key" "Any"], "Any"⟩,
      ⟨"__iter__", [selfParam], "Iterator[Any]"⟩,
      ⟨"keys", [selfParam], "Any"⟩,
      ⟨"values", [selfParam], "Any"⟩,
      ⟨"items", [selfParam], "Any"⟩,
      ⟨"get", [selfParam, preludeParam "key" "Any", preludeUntypedParam "default"], "Any"⟩]
  ++ preludeProtocolClassWithMethods "Callable" [] [⟨"__call__", [selfParam], "Any"⟩]
  ++ asyncProtocols
  ++ preludeProtocolClassWithMethods "Iterator" ["Iterable"]
    [⟨"__next__", [selfParam], "Any"⟩]

def preludeNode (modulePath moduleKey : String) (declarations : List Declaration) : ModuleNode where
  moduleKey := moduleKey
  modulePath := modulePath
  moduleKind := .stub
  declarations := declarations

/-- The preludes, in the order in which they are added. -/
def preludeNodes : List ModuleNode :=
  [preludeNode "<typing-prelude>" "typing" typingPreludeDeclarations,
    preludeNode "<typing-extensions-prelude>" "typing_extensions" typingPreludeDeclarations,
    preludeNode "<collections.abc-prelude>" "collections.abc" collectionsAbcPreludeDeclarations]

/-! ## The declarations of the preludes -/

theorem isBound_preludeProtocolClassWithMethods (name : String) (bases : List String)
    (methods : List PreludeMethod) :
    ∀ declaration ∈ preludeProtocolClassWithMethods name bases methods, declaration.IsBound := by
  intro declaration hmem
  rcases List.mem_cons.1 hmem with rfl | hmethod
  · exact ⟨⟨_, rfl⟩, rfl⟩
  · rcases List.mem_map.1 hmethod with ⟨method, -, rfl⟩
    exact ⟨⟨_, rfl⟩, fun howner => by cases howner⟩

theorem isBound_preludeTypeAlias (name valueText : String) :
    (preludeTypeAlias name valueText).IsBound := ⟨⟨_, _, rfl⟩, rfl⟩

theorem isBound_preludeFunction (name : String) (params : List DirectFunctionParamSite)
    (returns : String) : (preludeFunction name params returns).IsBound := ⟨⟨_, rfl⟩, fun _ => rfl⟩

theorem isBound_preludeValue (name annotationText : String) :
    (preludeValue name annotationText).IsBound := ⟨_, rfl⟩

theorem isBound_preludeClass (name : String) : (preludeClass name).IsBound := ⟨⟨_, rfl⟩, rfl⟩

theorem isBound_preludeProtocolClass (name : String) : (preludeProtocolClass name).IsBound :=
  ⟨⟨_, rfl⟩, rfl⟩

theorem isBound_asyncProtocols : ∀ declaration ∈ asyncProtocols, declaration.IsBound := by
  unfold asyncProtocols
  intro declaration hmem
  rw [List.mem_append, List.mem_append] at hmem
  rcases hmem with (hmem | hmem) | hmem
  all_goals exact isBound_preludeProtocolClassWithMethods _ _ _ declaration hmem

theorem isBound_typingPreludeDeclarations :
    ∀ declaration ∈ typingPreludeDeclarations, declaration.IsBound := by
  unfold typingPreludeDeclarations
  intro declaration hmem
  simp only [List.mem_append] at hmem
  rcases hmem with ((((haliases | hawaitable) | hasync) | hcoroutine) | hgenerator) | hfunctions
  · simp only [List.mem_cons, List.not_mem_nil, or_false] at haliases
    rcases haliases with rfl | rfl | rfl | rfl | rfl | rfl | rfl | rfl | rfl | rfl | rfl | rfl | rfl
      | rfl
    all_goals
      first
      | exact isBound_preludeTypeAlias _ _
      | exact isBound_preludeValue _ _
      | exact isBound_preludeClass _
      | exact isBound_preludeProtocolClass _
  · exact isBound_preludeProtocolClassWithMethods _ _ _ declaration hawaitable
  · exact isBound_asyncProtocols declaration hasync
  · exact isBound_preludeProtocolClassWithMethods _ _ _ declaration hcoroutine
  · exact isBound_preludeProtocolClassWithMethods _ _ _ declaration hgenerator
  · simp only [List.mem_cons, List.not_mem_nil, or_false] at hfunctions
    rcases hfunctions with rfl | rfl | rfl | rfl | rfl
    all_goals exact isBound_preludeFunction _ _ _

theorem isBound_collectionsAbcPreludeDeclarations :
    ∀ declaration ∈ collectionsAbcPreludeDeclarations, declaration.IsBound := by
  unfold collectionsAbcPreludeDeclarations
  intro declaration hmem
  simp only [List.mem_append] at hmem
  rcases hmem with ((((((h | h) | h) | h) | h) | hasync) | h)
  case inl.inr => exact isBound_asyncProtocols declaration hasync
  all_goals exact isBound_preludeProtocolClassWithMethods _ _ _ declaration h

/-- Every declaration of a prelude is one the binder could give. -/
theorem isBound_preludeNodes :
    ∀ node ∈ preludeNodes, ∀ declaration ∈ node.declarations, declaration.IsBound := by
  intro node hnode
  unfold preludeNodes at hnode
  simp only [List.mem_cons, List.not_mem_nil, or_false] at hnode
  rcases hnode with rfl | rfl | rfl
  · exact isBound_typingPreludeDeclarations
  · exact isBound_typingPreludeDeclarations
  · exact isBound_collectionsAbcPreludeDeclarations

end TypePython.Binding
