import TypePython.Checking.SemanticType
import TypePython.Binding.Graph

/-!
# What a declaration means

The types of a declaration in the checker's form: those of a callable and of its
parameters, of a value, and of an alias. They are computed once for each declaration and
looked up afterwards, which does not show.
-/

namespace TypePython.Checking

open TypePython.Lib.Text
open TypePython.Syntax
open TypePython.Binding

structure SemanticCallableParam where
  name : String
  annotationText : Option String
  annotation : Option SemanticType
  hasDefault : Bool
  positionalOnly : Bool
  keywordOnly : Bool
  variadic : Bool
  keywordVariadic : Bool
deriving DecidableEq

namespace SemanticCallableParam

def annotationOrDynamic (param : SemanticCallableParam) : SemanticType :=
  param.annotation.getD (.name "dynamic")

def renderedAnnotationText (param : SemanticCallableParam) : Option String :=
  (param.annotation.map renderSemanticType).or param.annotationText

end SemanticCallableParam

structure SemanticCallableDeclaration where
  semanticParams : List SemanticCallableParam
  returnAnnotationText : Option String
  returnType : Option SemanticType
deriving DecidableEq

def SemanticCallableDeclaration.renderedReturnAnnotationText
    (callable : SemanticCallableDeclaration) : Option String :=
  (callable.returnType.map renderSemanticType).or callable.returnAnnotationText

structure SemanticValueDeclaration where
  annotationText : Option String
  annotation : Option SemanticType
deriving DecidableEq

structure SemanticTypeAliasDeclaration where
  head : String
  typeParams : List GenericTypeParam
  bodyText : String
  body : SemanticType

structure SemanticDeclarationFacts where
  callable : Option SemanticCallableDeclaration
  value : Option SemanticValueDeclaration
  typeAlias : Option SemanticTypeAliasDeclaration
  importTarget : Option BoundImportTarget

/-- The annotation of a parameter as text, without the stars of a variadic one. -/
def lowerParamAnnotationText (text : String) (variadic keywordVariadic : Bool) : SemanticType :=
  let trimmed := trim text.toList
  let starred := if variadic then stripPrefix "*".toList trimmed else none
  let doubleStarred := if keywordVariadic then stripPrefix "**".toList trimmed else none
  match starred, doubleStarred with
  | some inner, _ => lowerTypeTextOrName ("Unpack[" ++ String.ofList (trim inner) ++ "]")
  | none, some inner => lowerTypeTextOrName (String.ofList (trim inner))
  | none, none => lowerTypeTextOrName (String.ofList trimmed)

def semanticTypeFromBoundTypeExpr (bound : BoundTypeExpr) : SemanticType :=
  lowerTypeExpr bound.expr

def semanticTypeFromDirectParamSite (param : DirectFunctionParamSite) : Option SemanticType :=
  (param.annotationExpr.map lowerTypeExpr).or
    (param.annotation.map fun text =>
      lowerParamAnnotationText text param.variadic param.keywordVariadic)

def semanticCallableParam (param : DirectFunctionParamSite) : SemanticCallableParam :=
  let lowered := semanticTypeFromDirectParamSite param
  { name := param.name
    annotationText := (lowered.map renderSemanticType).or param.renderedAnnotation
    annotation := lowered
    hasDefault := param.hasDefault
    positionalOnly := param.positionalOnly
    keywordOnly := param.keywordOnly
    variadic := param.variadic
    keywordVariadic := param.keywordVariadic }

def semanticCallableFromBoundSignature (signature : BoundCallableSignature) :
    SemanticCallableDeclaration :=
  let returnType := signature.returns.map semanticTypeFromBoundTypeExpr
  { semanticParams := signature.params.map semanticCallableParam
    returnAnnotationText :=
      (returnType.map renderSemanticType).or (signature.returns.map BoundTypeExpr.render)
    returnType }

def declarationSemanticFacts (declaration : Declaration) : SemanticDeclarationFacts where
  callable :=
    if declaration.kind = .function || declaration.kind = .overload then
      declaration.callableSignature.map semanticCallableFromBoundSignature
    else none
  value :=
    if declaration.kind = .value then
      some
        { annotationText := declaration.valueAnnotation.map BoundTypeExpr.render
          annotation := declaration.valueAnnotation.map semanticTypeFromBoundTypeExpr }
    else none
  typeAlias :=
    if declaration.kind = .typeAlias then
      declaration.typeAliasValue.map fun value =>
        { head := declaration.name
          typeParams := declaration.typeParams
          bodyText := value.render
          body := semanticTypeFromBoundTypeExpr value }
    else none
  importTarget := if declaration.kind = .importDecl then declaration.importTarget else none

/-! ## Names from `typing` -/

/-- The names of `typing` that are known under whatever name they are imported. -/
def rewrittenTypingNames : List String :=
  ["Annotated", "Any", "Awaitable", "Callable", "ClassVar", "Concatenate", "Coroutine", "Final",
    "Generator", "Literal", "NewType", "NotRequired", "Optional", "ParamSpec", "Protocol",
    "ReadOnly", "Required", "Sequence", "TypeGuard", "TypeIs", "TypeVar", "TypeVarTuple",
    "TypedDict", "Union", "Unpack"]

def rewriteImportedTypingToken (node : ModuleNode) (token : String) : String :=
  let symbolTarget : Option BoundImportSymbolTarget := do
    let importDecl ← node.declarations.find? fun declaration =>
      declaration.kind = .importDecl && declaration.name = token
    let importTarget ← (declarationSemanticFacts importDecl).importTarget
    importTarget.symbolTarget
  match symbolTarget with
  | some symbol =>
    if symbol.moduleKey ∈ ["typing", "typing_extensions", "collections.abc"]
        && symbol.symbolName ∈ rewrittenTypingNames then symbol.symbolName
    else token
  | none => token

/-- A character of an ASCII identifier. -/
def isTypingTokenChar (c : Char) : Bool := c.isAlphanum || c == '_'

/-- Rewrite the tokens of a text; `token` is the token that is being read. -/
def rewriteTypingTokens (node : ModuleNode) : Chars → Chars → String
  | token, [] => if token = [] then "" else rewriteImportedTypingToken node (String.ofList token)
  | token, c :: rest =>
    if isTypingTokenChar c then rewriteTypingTokens node (token ++ [c]) rest
    else
      (if token = [] then "" else rewriteImportedTypingToken node (String.ofList token))
        ++ String.ofList [c] ++ rewriteTypingTokens node [] rest

def rewriteImportedTypingAliases (node : ModuleNode) (text : String) : String :=
  rewriteTypingTokens node [] text.toList

end TypePython.Checking
