import TypePython.Checking.Assignability

/-!
# The type-level evaluator

`TypeLevelEvaluator` with its budget of steps. It asks the assignability search for the answers to
`IsSubtype`; the shapes of classes are a parameter.
-/

namespace TypePython.Checking

open TypePython.Lib
open TypePython.Lib.Text
open TypePython.Binding

inductive TypeLevelValue where
  | type (ty : SemanticType)
  | bool (value : Bool)
  | keySet (keys : List String)

inductive TypeLevelEvalError where
  | stepBudgetExceeded
  | unsupportedForm (form : String)
  | invalidArity (form : String) (expected actual : Nat)
  | nonBooleanCondition (condition : String)
  | unknownShape (shape : String)

structure ShapeField where
  name : String
  publicAlias : String
  required : Bool

/-! ## Steps -/

/-- A computation that spends steps, asks questions and may stop with an error. -/
def Evaluation (α : Type) : Type := Nat → Search (Except TypeLevelEvalError (α × Nat))

namespace Evaluation

instance : Monad Evaluation where
  pure a := fun steps => pure (.ok (a, steps))
  bind evaluation next := fun steps =>
    evaluation steps >>= fun
      | .error error => pure (.error error)
      | .ok (a, steps) => next a steps

def fail {α : Type} (error : TypeLevelEvalError) : Evaluation α := fun _ => pure (.error error)

def liftExcept {α : Type} : Except TypeLevelEvalError α → Evaluation α
  | .ok a => pure a
  | .error error => fail error

def ask {α : Type} (search : Search α) : Evaluation α := fun steps =>
  search >>= fun a => pure (.ok (a, steps))

def consumeStep : Evaluation Unit := fun steps =>
  match steps with
  | 0 => pure (.error .stepBudgetExceeded)
  | steps + 1 => pure (.ok ((), steps))

end Evaluation

/-! ## Keys -/

def stripQuotes (quote : Char) (text : Chars) : Option Chars :=
  (stripPrefix [quote] text).bind (stripSuffix [quote])

def keyLiteralValue (rendered : String) : Option String :=
  ((stripQuotes '"' rendered.toList).or (stripQuotes '\'' rendered.toList)).map String.ofList

def literalArgument (arg : SemanticType) : Except TypeLevelEvalError String :=
  match keyLiteralValue (renderSemanticType arg) with
  | some key => .ok key
  | none => .error (.unsupportedForm ("key literal \x60" ++ renderSemanticType arg ++ "\x60"))

def singleKey (ty : SemanticType) : Except TypeLevelEvalError (List String) :=
  match keyLiteralValue (renderSemanticType ty) with
  | some key => .ok [key]
  | none => .error (.unsupportedForm ("key set \x60" ++ renderSemanticType ty ++ "\x60"))

mutual

def keyLiterals : SemanticType → Except TypeLevelEvalError (List String)
  | .annotated value _ => keyLiterals value
  | .generic head args =>
    if head = "Literal" then args.mapM literalArgument else singleKey (.generic head args)
  | .union branches => keyLiteralsOfAll branches
  | .name name => singleKey (.name name)
  | .callable params returnType => singleKey (.callable params returnType)
  | .unpack inner => singleKey (.unpack inner)

def keyLiteralsOfAll : List SemanticType → Except TypeLevelEvalError (List String)
  | [] => .ok []
  | ty :: rest => do
    let keys ← keyLiterals ty
    let others ← keyLiteralsOfAll rest
    return keys ++ others

end

/-- How a value that is no type is shown. -/
def TypeLevelValue.debug : TypeLevelValue → String
  | .type ty => "Type(" ++ renderSemanticType ty ++ ")"
  | .bool value => if value then "Bool(true)" else "Bool(false)"
  | .keySet keys => "KeySet([" ++ join ", " (keys.map String.quote) ++ "])"

/-! ## Forms -/

section

variable (shapeOf : String → Option (List ShapeField)) (node : ModuleNode)
  (evaluate : SemanticType → Evaluation TypeLevelValue)

def expectType (ty : SemanticType) : Evaluation SemanticType := do
  match ← evaluate ty with
  | .type ty => pure ty
  | other => Evaluation.fail (.unsupportedForm other.debug)

def evaluateTypeIf (args : List SemanticType) : Evaluation TypeLevelValue :=
  match args with
  | [condition, thenType, elseType] => do
    match ← evaluate condition with
    | .bool holds => evaluate (if holds then thenType else elseType)
    | _ => Evaluation.fail (.nonBooleanCondition (renderSemanticType condition))
  | _ => Evaluation.fail (.invalidArity "TypeIf" 3 args.length)

def evaluateIsSubtype (args : List SemanticType) : Evaluation TypeLevelValue :=
  match args with
  | [subtypeArg, supertypeArg] => do
    let subtype ← expectType evaluate subtypeArg
    let supertype ← expectType evaluate supertypeArg
    let holds ← Evaluation.ask (Search.isAssignable node supertype subtype [])
    pure (.bool holds)
  | _ => Evaluation.fail (.invalidArity "IsSubtype" 2 args.length)

/-- The fields of the shape a type names. -/
def evaluateShape (arg : SemanticType) : Evaluation (List ShapeField) := do
  match ← evaluate arg with
  | .type shapeLike =>
    match semanticNominalOwnerName shapeLike with
    | none => Evaluation.fail (.unknownShape (renderSemanticType shapeLike))
    | some owner =>
      match shapeOf owner with
      | none => Evaluation.fail (.unknownShape owner)
      | some fields => pure fields
  | _ => Evaluation.fail (.unsupportedForm (renderSemanticType arg))

def publicAliases (fields : List ShapeField) : TypeLevelValue :=
  .keySet (fields.map ShapeField.publicAlias)

def evaluateKeyOf (args : List SemanticType) : Evaluation TypeLevelValue :=
  match args with
  | [arg] => do return publicAliases (← evaluateShape shapeOf evaluate arg)
  | _ => Evaluation.fail (.invalidArity "KeyOf" 1 args.length)

def evaluatePickOmit (args : List SemanticType) (pick : Bool) : Evaluation TypeLevelValue :=
  match args with
  | arg :: keyArg :: keyArgs => do
    let fields ← evaluateShape shapeOf evaluate arg
    let keys ← Evaluation.liftExcept (keyLiteralsOfAll (keyArg :: keyArgs))
    return publicAliases (fields.filter fun field =>
      (field.name ∈ keys || field.publicAlias ∈ keys) == pick)
  | _ => Evaluation.fail (.invalidArity (if pick then "Pick" else "Omit") 2 args.length)

def evaluateKeyFilter (args : List SemanticType) (required : Bool) : Evaluation TypeLevelValue :=
  match args with
  | [arg] => do
    let fields ← evaluateShape shapeOf evaluate arg
    return publicAliases (fields.filter fun field => field.required == required)
  | _ =>
    Evaluation.fail
      (.invalidArity (if required then "RequiredKeys" else "OptionalKeys") 1 args.length)

def evaluateMapValues (args : List SemanticType) : Evaluation TypeLevelValue :=
  match args with
  | [arg, wrapperArg] => do
    let wrapper := renderSemanticType wrapperArg
    if wrapper ∈ ["Optional", "Readonly"] then
      return publicAliases (← evaluateShape shapeOf evaluate arg)
    else Evaluation.fail (.unsupportedForm ("MapValues[" ++ wrapper ++ "]"))
  | _ => Evaluation.fail (.invalidArity "MapValues" 2 args.length)

end

section

variable (shapeOf : String → Option (List ShapeField)) (node : ModuleNode)

/-- Each nested call spends a step, so calls are nested no deeper than there are steps. -/
def evaluateTypeFrom : Nat → SemanticType → Evaluation TypeLevelValue
  | 0, _ => Evaluation.fail .stepBudgetExceeded
  | depth + 1, ty => do
    Evaluation.consumeStep
    match ty.stripAnnotated with
    | .generic "TypeIf" args => evaluateTypeIf (evaluateTypeFrom depth) args
    | .generic "IsSubtype" args => evaluateIsSubtype node (evaluateTypeFrom depth) args
    | .generic "KeyOf" args => evaluateKeyOf shapeOf (evaluateTypeFrom depth) args
    | .generic "Pick" args => evaluatePickOmit shapeOf (evaluateTypeFrom depth) args true
    | .generic "Omit" args => evaluatePickOmit shapeOf (evaluateTypeFrom depth) args false
    | .generic "RequiredKeys" args => evaluateKeyFilter shapeOf (evaluateTypeFrom depth) args true
    | .generic "OptionalKeys" args => evaluateKeyFilter shapeOf (evaluateTypeFrom depth) args false
    | .generic "MapValues" args => evaluateMapValues shapeOf (evaluateTypeFrom depth) args
    | stripped => pure (.type stripped)

def defaultTypeLevelStepBudget : Nat := 64

/-- A new evaluator applied to a type. -/
def evaluateType (ty : SemanticType) : Search (Except TypeLevelEvalError (TypeLevelValue × Nat)) :=
  evaluateTypeFrom shapeOf node defaultTypeLevelStepBudget ty defaultTypeLevelStepBudget

end

end TypePython.Checking
