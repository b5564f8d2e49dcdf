import TypePython.Syntax.TypeExpr

/-!
# Declarations

What the binder keeps of the declarations of a module: their kind, their owner and the
metadata each kind carries.
-/

namespace TypePython.Binding

open TypePython.Lib.Text
open TypePython.Syntax

/-- A parsed type expression captured from source text. -/
structure BoundTypeExpr where
  expr : TypeExpr

/-- Parse the text, falling back to a name when it is rejected. -/
def BoundTypeExpr.new (text : String) : BoundTypeExpr :=
  ⟨(TypeExpr.parse text).getD (.name text)⟩

def BoundTypeExpr.render (bound : BoundTypeExpr) : String := bound.expr.render

/-- The symbol part of an import target such as `pkg.mod.Name`. -/
structure BoundImportSymbolTarget where
  moduleKey : String
  symbolName : String
deriving DecidableEq, Repr

structure BoundImportTarget where
  rawTarget : String
  moduleTarget : String
  symbolTarget : Option BoundImportSymbolTarget
deriving DecidableEq, Repr

/-- Build an import target from the import string of the source. -/
def BoundImportTarget.new (rawTarget : String) : BoundImportTarget where
  rawTarget := rawTarget
  moduleTarget := rawTarget
  symbolTarget := (rsplitOnce '.' rawTarget.toList).map fun (moduleKey, symbolName) =>
    ⟨String.ofList moduleKey, String.ofList symbolName⟩

/-- One parameter of a function signature. -/
structure DirectFunctionParamSite where
  name : String
  annotation : Option String := none
  annotationExpr : Option TypeExpr := none
  hasDefault : Bool := false
  positionalOnly : Bool := false
  keywordOnly : Bool := false
  variadic : Bool := false
  keywordVariadic : Bool := false
deriving BEq

def DirectFunctionParamSite.renderedAnnotation (param : DirectFunctionParamSite) :
    Option String :=
  (param.annotationExpr.map TypeExpr.render).or param.annotation

structure BoundCallableSignature where
  params : List DirectFunctionParamSite
  returns : Option BoundTypeExpr

inductive DeclarationMetadata where
  | none
  | typeAlias (value : BoundTypeExpr) (line : Option Nat)
  | callable (signature : BoundCallableSignature)
  | importDecl (target : BoundImportTarget)
  | value ( annotation : Option BoundTypeExpr)
  | classDecl (bases : List BoundTypeExpr)

inductive GenericTypeParamKind where
  | typeVar
  | paramSpec
  | typeVarTuple
deriving DecidableEq, Repr

/-- A generic parameter of a declaration. -/
structure GenericTypeParam where
  kind : GenericTypeParamKind
  name : String
  boundExpr : Option BoundTypeExpr := none
  constraintExprs : List BoundTypeExpr := []
  defaultExpr : Option BoundTypeExpr := none

inductive DeclarationOwnerKind where
  | classDecl
  | interface
  | dataClass
  | sealedClass
deriving DecidableEq, Repr

/-- The type block that owns a member. -/
structure DeclarationOwner where
  name : String
  kind : DeclarationOwnerKind
deriving DecidableEq, Repr

inductive DeclarationKind where
  | typeAlias
  | classDecl
  | function
  | overload
  | value
  | importDecl
deriving DecidableEq, Repr

inductive MethodKind where
  | instanceMethod
  | classMethod
  | staticMethod
  | property
  | propertySetter
deriving DecidableEq, Repr

/-- A declaration of a module, or a member of a type block of it. -/
structure Declaration where
  name : String
  kind : DeclarationKind
  metadata : DeclarationMetadata := .none
  valueTypeExpr : Option BoundTypeExpr := none
  methodKind : Option MethodKind := none
  classKind : Option DeclarationOwnerKind := none
  owner : Option DeclarationOwner := none
  isAsync : Bool := false
  isOverride : Bool := false
  isAbstractMethod : Bool := false
  isFinalDecorator : Bool := false
  isDeprecated : Bool := false
  deprecationMessage : Option String := none
  isFinal : Bool := false
  isClassVar : Bool := false
  bases : List String := []
  typeParams : List GenericTypeParam := []

namespace Declaration

def callableSignature (declaration : Declaration) : Option BoundCallableSignature :=
  match declaration.metadata with
  | .callable signature => some signature
  | _ => none

def typeAliasValue (declaration : Declaration) : Option BoundTypeExpr :=
  match declaration.metadata with
  | .typeAlias value _ => some value
  | _ => none

def importTarget (declaration : Declaration) : Option BoundImportTarget :=
  match declaration.metadata with
  | .importDecl target => some target
  | _ => none

def valueAnnotation (declaration : Declaration) : Option BoundTypeExpr :=
  match declaration.metadata with
  | .value value => value
  | _ => none

def inferredValueType (declaration : Declaration) : Option BoundTypeExpr :=
  declaration.valueTypeExpr

def inferredValueTypeSemanticText (declaration : Declaration) : Option String :=
  (declaration.inferredValueType.map BoundTypeExpr.render).filter fun value => value != ""

def classBases (declaration : Declaration) : Option (List BoundTypeExpr) :=
  match declaration.metadata with
  | .classDecl bases => some bases
  | _ => none

/-- The bases as text: rendered from the bound bases, else as the source gives them. -/
def renderedClassBases (declaration : Declaration) : List String :=
  match declaration.classBases with
  | some bases => bases.map BoundTypeExpr.render
  | none => declaration.bases

def hasClassBase (declaration : Declaration) (base : String) : Bool :=
  base ∈ declaration.renderedClassBases

/-- The metadata the binder gives a declaration of a kind. A type is inferred only for the
value of an assignment, and an import target is built from its text. -/
def IsBound (declaration : Declaration) : Prop :=
  match declaration.kind with
  | .typeAlias =>
    (∃ value line, declaration.metadata = .typeAlias value line)
      ∧ declaration.valueTypeExpr = none
  | .classDecl =>
    (∃ bases, declaration.metadata = .classDecl bases) ∧ declaration.valueTypeExpr = none
  | .function | .overload =>
    (∃ signature, declaration.metadata = .callable signature)
      ∧ (declaration.owner = none → declaration.valueTypeExpr = none)
  | .value => ∃ annotationExpr, declaration.metadata = .value annotationExpr
  | .importDecl =>
    (∃ rawTarget, declaration.metadata = .importDecl (.new rawTarget))
      ∧ declaration.valueTypeExpr = none

end Declaration

end TypePython.Binding
