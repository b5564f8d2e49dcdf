import Mathlib.Algebra.GroupWithZero.Nat
import TypePython.Syntax.Normalization

/-!
# Runtime validators

How `inject_runtime_validators` writes a `__tpy_validate__` method into the dataclasses of a
Python text. It reads the text line by line; the checks of a field follow its annotation into the
fields of the TypedDicts of the same text. That recursion is given a bound on its depth, and
`none` says that the bound is too small.
-/

namespace TypePython.Emit

open Std (ExtTreeMap)
open TypePython.Lib.Text
open TypePython.Syntax

structure ValidatorField where
  name : String
  annotation : String
  hasDefault : Bool
  deriving DecidableEq

/-- The TypedDicts of a text, with their fields. -/
abbrev TypedDicts := ExtTreeMap String (List ValidatorField)

inductive RuntimeValidationAdapter where
  | builtin
  | pydantic
  | msgspec
  | cattrs
  deriving DecidableEq

def RuntimeValidationAdapter.marker : RuntimeValidationAdapter → String
  | .builtin => "builtin"
  | .pydantic => "pydantic"
  | .msgspec => "msgspec"
  | .cattrs => "cattrs"

def RuntimeValidationAdapter.fromMarker (marker : Chars) : Option RuntimeValidationAdapter :=
  [.builtin, .pydantic, .msgspec, .cattrs].find? fun adapter => adapter.marker.toList = marker

/-- The markers of `RuntimeValidationBoundaryKind`. -/
def boundaryKindMarkers : List String :=
  ["http_request", "http_response", "cli_param", "config_file", "message_payload",
    "plugin_entrypoint", "serialized_payload"]

/-! ## Lines of a class -/

/-- The width in bytes of the white space a line starts with. -/
def indentOf (line : Chars) : Nat := ((line.takeWhile isWhitespace).map Char.utf8Size).sum

/-- The body of a class, up to the first line that is indented no deeper, and what follows. -/
def classBody (classIndent : Nat) (lines : List Chars) : List Chars × List Chars :=
  lines.span fun line => trimStart line = [] || classIndent < indentOf line

/-- The name in the header of a class. -/
def classNameOf (trimmed : Chars) : Option String :=
  (stripPrefix "class ".toList trimmed).bind fun rest =>
    let name := trim (rest.takeWhile fun c => c ≠ '(' && c ≠ ':')
    if name = [] then none else some (String.ofList name)

def parseValidatorField (trimmed : Chars) : Option ValidatorField :=
  (splitOnce ':' trimmed).bind fun (name, rest) =>
    let name := trim name
    if name = [] ∨ name = "pass".toList then none
    else
      match splitOnce '=' rest with
      | some (declared, _) => some ⟨String.ofList name, String.ofList (trim declared), true⟩
      | none => some ⟨String.ofList name, String.ofList (trim rest), false⟩

/-! ## TypedDicts -/

/-- The fields in the body of a TypedDict. -/
def typedDictFields (bodyIndent : Nat) (body : List Chars) : List ValidatorField :=
  body.filterMap fun line =>
    let trimmed := trimStart line
    if trimmed ≠ [] && indentOf line = bodyIndent && ':' ∈ trimmed then parseValidatorField trimmed
    else none

/-- Every round reads a line. -/
def collectTypedDictsFrom : Nat → List Chars → TypedDicts → TypedDicts
  | 0, _, typedDicts => typedDicts
  | _ + 1, [], typedDicts => typedDicts
  | left + 1, line :: rest, typedDicts =>
    let trimmed := trimStart line
    if (stripPrefix "class ".toList trimmed).isSome && occursIn "TypedDict".toList trimmed then
      match classNameOf trimmed with
      | none => collectTypedDictsFrom left rest typedDicts
      | some className =>
        let (body, after) := classBody (indentOf line) rest
        collectTypedDictsFrom left after
          (typedDicts.insert className (typedDictFields (indentOf line + 4) body))
    else collectTypedDictsFrom left rest typedDicts

def collectTypedDictFields (lines : List Chars) : TypedDicts :=
  collectTypedDictsFrom lines.length lines ∅

/-! ## Boundaries -/

/-- The value after a marker and an equals sign, without quotes. -/
def markerValue (marker : String) (trimmed : Chars) : Option Chars :=
  (stripPrefix marker.toList trimmed).bind fun value =>
    (stripPrefix ['='] (trimStart value)).map fun value =>
      let isQuote := fun c => c = '\'' || c = '"'
      (((trim value).dropWhile isQuote).reverse.dropWhile isQuote).reverse

def parseAdapterMarker (trimmed : Chars) : Option RuntimeValidationAdapter :=
  (markerValue "__tpy_validation_adapter__" trimmed).bind RuntimeValidationAdapter.fromMarker

def isBoundaryKindMarker (trimmed : Chars) : Bool :=
  (markerValue "__tpy_validation_boundary__" trimmed).any fun value =>
    String.ofList value ∈ boundaryKindMarkers

def isBoundaryComment (trimmed : Chars) : Bool :=
  (stripPrefix "# tpy:validate-boundary".toList trimmed).any fun value =>
    value = [] || (stripPrefix [':'] value).any fun marker =>
      String.ofList (trim marker) ∈ boundaryKindMarkers

/-- A dataclass that gets a validator. -/
structure BoundaryClass where
  afterLine : Nat
  classIndent : Nat
  className : String
  fields : List ValidatorField
  adapter : RuntimeValidationAdapter

def isExplicitBoundary (trimmed : Chars) : Bool :=
  trimmed = "__tpy_validate_boundary__ = True".toList || isBoundaryKindMarker trimmed

/-- What a line of the body of a dataclass must not start with to be a field. -/
def noFieldPrefixes : List String :=
  ["@", "def ", "class ", "__tpy_validate_boundary__", "__tpy_validation_boundary__",
    "__tpy_validation_adapter__"]

def dataclassFields (bodyIndent : Nat) (body : List Chars) : List ValidatorField :=
  body.filterMap fun line =>
    let trimmed := trimStart line
    if trimmed ≠ [] && indentOf line = bodyIndent
        && noFieldPrefixes.all (fun text => (stripPrefix text.toList trimmed).isNone)
        && ':' ∈ trimmed then parseValidatorField trimmed
    else none

/-- The number of the last line of the body that is not empty, counted from a first number. -/
def bodyEnd (bodyStart : Nat) (body : List Chars) : Nat :=
  bodyStart + ((body.reverse.dropWhile fun line => trimStart line = []).length)

/-- The dataclass of a decorator, a header and a body. -/
def boundaryClass (selectedBoundariesPresent : Bool) (index : Nat) (previous : Option Chars)
    (header : Chars) (className : String) (body : List Chars) : Option BoundaryClass :=
  let fields := dataclassFields (indentOf header + 4) body
  let bodyLines := body.map trimStart
  let adapter := (bodyLines.filterMap parseAdapterMarker).getLast?.getD .builtin
  if fields ≠ [] && (!selectedBoundariesPresent || bodyLines.any isExplicitBoundary
      || previous.any fun line => isBoundaryComment (trim line)) then
    some { afterLine := bodyEnd (index + 1) body + 1, classIndent := indentOf header, className,
           fields, adapter }
  else none

/-- `previous` is the line before the one with number `index`. Every round reads a line. -/
def boundaryClassesFrom (selectedBoundariesPresent : Bool) :
    Nat → Nat → Option Chars → List Chars → List BoundaryClass
  | left + 1, index, previous, line :: header :: rest =>
    if trim line = "@dataclass".toList then
      match classNameOf (trimStart header) with
      | none =>
        boundaryClassesFrom selectedBoundariesPresent left (index + 1) (some line)
          (header :: rest)
      | some className =>
        let (body, after) := classBody (indentOf header) rest
        (boundaryClass selectedBoundariesPresent index previous header className body).toList
          ++ boundaryClassesFrom selectedBoundariesPresent left (index + 2 + body.length)
            ((header :: body).getLast?) after
    else
      boundaryClassesFrom selectedBoundariesPresent left (index + 1) (some line) (header :: rest)
  | _, _, _, _ => []

def collectBoundaryClasses (lines : List Chars) : List BoundaryClass :=
  boundaryClassesFrom
    (lines.any fun line => isExplicitBoundary (trim line) || isBoundaryComment (trim line))
    lines.length 0 none lines

/-! ## Annotations -/

def stripWrapper (wrapper : String) (declared : Chars) : Option Chars :=
  ((stripPrefix wrapper.toList declared).bind (stripPrefix ['['])).bind fun rest =>
    (stripSuffix [']'] rest).map trim

/-- What a wrapper is around. -/
def unwrapped (declared : Chars) : Option Chars :=
  ((stripWrapper "NotRequired" declared).or (stripWrapper "Required_" declared)).or
    ((stripWrapper "ReadOnly" declared).or (stripWrapper "Mutable" declared))

def splitUnion (declared : Chars) : List Chars :=
  (splitTopLevel unionBrackets '|' 0 declared).map trim

def builtinTypes : List String :=
  ["int", "float", "str", "bytes", "bool", "list", "dict", "set", "tuple"]

def containerTypes : List String := ["list", "dict", "set", "tuple"]

/-- Each nested call is on a shorter text. -/
def runtimeCheckExpressionFrom (typedDicts : TypedDicts) (target : String) :
    Nat → Chars → Option String
  | 0, _ => none
  | left + 1, declared =>
    let declared := trim declared
    if declared = [] then none
    else
      match unwrapped declared with
      | some inner => runtimeCheckExpressionFrom typedDicts target left inner
      | none =>
        let text := String.ofList declared
        if text = "None" then some (target ++ " is None")
        else if text ∈ builtinTypes then some ("isinstance(" ++ target ++ ", " ++ text ++ ")")
        else
          let head := (splitOnce '[' declared).map fun (head, _) => String.ofList (trim head)
          match head.filter (· ∈ containerTypes) with
          | some head => some ("isinstance(" ++ target ++ ", " ++ head ++ ")")
          | none =>
            if text ∈ typedDicts then some ("isinstance(" ++ target ++ ", dict)")
            else if declared.all fun c => c.isAlphanum || c = '_' then
              some ("isinstance(" ++ target ++ ", " ++ text ++ ")")
            else none

def runtimeCheckExpression (typedDicts : TypedDicts) (target : String) (declared : Chars) :
    Option String :=
  runtimeCheckExpressionFrom typedDicts target (declared.length + 1) declared

/-- Each nested call is on a shorter text. -/
def annotationIsFaithfullyValidatedFrom (typedDicts : TypedDicts) : Nat → Chars → Bool
  | 0, _ => false
  | left + 1, declared =>
    let declared := trim declared
    if declared = [] then true
    else
      match unwrapped declared with
      | some inner => annotationIsFaithfullyValidatedFrom typedDicts left inner
      | none =>
        let parts := splitUnion declared
        if 1 < parts.length then parts.all (annotationIsFaithfullyValidatedFrom typedDicts left)
        else if String.ofList declared ∈ typedDicts then true
        else (runtimeCheckExpression typedDicts "__value" declared).isSome

def annotationIsFaithfullyValidated (typedDicts : TypedDicts) (declared : Chars) : Bool :=
  annotationIsFaithfullyValidatedFrom typedDicts (declared.length + 1) declared

/-! ## Checks -/

def spaces (width : Nat) : String := String.ofList (List.replicate width ' ')

/-- The tail of a `raise` that names the type of a value. -/
def butGotType (target : String) : String := " but got \" + type(" ++ target ++ ").__name__)"

/-- A check that must hold, with the error that says what was expected. -/
def checkLine (indent : Nat) (check fieldPath declared target : String) : String :=
  spaces indent ++ "if not (" ++ check ++ "):\n" ++ spaces indent
    ++ "    raise TypeError(\"field \x60" ++ fieldPath ++ "\x27 expected " ++ declared
    ++ butGotType target

def dictCheckLine (indent : Nat) (fieldPath declared target : String) : String :=
  spaces indent ++ "if not isinstance(" ++ target ++ ", dict):\n" ++ spaces (indent + 4)
    ++ "raise TypeError(\"field \x60" ++ fieldPath ++ "\x27 expected " ++ declared
    ++ butGotType target

def missingLine (indent : Nat) (fieldPath declared : String) : String :=
  spaces indent ++ "raise TypeError(\"field \x60" ++ fieldPath ++ "\x27 expected " ++ declared
    ++ " but got missing\")"

/-- The checks of one field of a TypedDict, given how the checks of its value are emitted. -/
def emitFieldLines (emit : String → String → String → Nat → Option (List String))
    (target fieldPath : String) (indent : Nat) (field : ValidatorField) : Option (List String) :=
  let nestedTarget := target ++ "[\"" ++ field.name ++ "\"]"
  let nestedPath := fieldPath ++ "." ++ field.name
  if field.hasDefault || (stripPrefix "NotRequired[".toList field.annotation.toList).isSome then
    (emit nestedTarget field.annotation nestedPath (indent + 4)).map fun lines =>
      (spaces indent ++ "if \"" ++ field.name ++ "\" in " ++ target ++ ":") :: lines
  else
    (emit nestedTarget field.annotation nestedPath indent).map fun lines =>
      (spaces indent ++ "if \"" ++ field.name ++ "\" not in " ++ target ++ ":")
        :: missingLine (indent + 4) nestedPath field.annotation :: lines

def emitValidationLines (typedDicts : TypedDicts) :
    Nat → String → String → String → Nat → Option (List String)
  | 0, _, _, _, _ => none
  | fuel + 1, target, declared, fieldPath, indent =>
    let trimmed := trim declared.toList
    let declared := String.ofList trimmed
    if trimmed = [] then some []
    else
      match unwrapped trimmed with
      | some inner => emitValidationLines typedDicts fuel target (String.ofList inner) fieldPath indent
      | none =>
        let parts := splitUnion trimmed
        if 1 < parts.length then
          let checks := parts.filterMap (runtimeCheckExpression typedDicts target)
          if checks = [] then some []
          else some [checkLine indent (join " or " checks) fieldPath declared target]
        else
          match typedDicts[declared]? with
          | some fields =>
            (fields.mapM (emitFieldLines (emitValidationLines typedDicts fuel) target fieldPath
              indent)).map fun lines =>
                dictCheckLine indent fieldPath declared target :: lines.flatten
          | none =>
            match runtimeCheckExpression typedDicts target trimmed with
            | none => some []
            | some check => some [checkLine indent check fieldPath declared target]

/-! ## The method -/

/-- The lines that read one field of the dataclass. -/
def emitDataclassField (typedDicts : TypedDicts) (fuel classIndent : Nat) (field : ValidatorField) :
    Option (List String) :=
  let bodyIndent := spaces (classIndent + 8)
  let nestedIndent := spaces (classIndent + 12)
  let target := "__tpy_" ++ field.name
  if field.hasDefault then
    (emitValidationLines typedDicts fuel target field.annotation field.name (classIndent + 12)).map
      fun lines =>
        [bodyIndent ++ "if \"" ++ field.name ++ "\" in __data:",
          nestedIndent ++ target ++ " = __data[\"" ++ field.name ++ "\"]"] ++ lines
        ++ [bodyIndent ++ "else:",
          nestedIndent ++ target ++ " = getattr(cls, \"" ++ field.name ++ "\")"]
  else
    (emitValidationLines typedDicts fuel target field.annotation field.name (classIndent + 8)).map
      fun lines =>
        [bodyIndent ++ "if \"" ++ field.name ++ "\" not in __data:",
          missingLine (classIndent + 12) field.name field.annotation,
          bodyIndent ++ target ++ " = __data[\"" ++ field.name ++ "\"]"] ++ lines

def buildValidatorLines (typedDicts : TypedDicts) (fuel : Nat) (boundary : BoundaryClass) :
    Option (List String) :=
  let methodIndent := spaces (boundary.classIndent + 4)
  let bodyIndent := spaces (boundary.classIndent + 8)
  let nestedIndent := spaces (boundary.classIndent + 12)
  let lines := ["", methodIndent ++ "__tpy_validation_adapter__ = \"" ++ boundary.adapter.marker
      ++ "\"", methodIndent ++ "@classmethod",
    methodIndent ++ "def __tpy_validate__(cls, __data: dict) -> \"" ++ boundary.className ++ "\":"]
  match boundary.adapter with
  | .pydantic => some (lines ++ [bodyIndent ++ "return cls.model_validate(__data)"])
  | .msgspec =>
    some (lines ++ [bodyIndent ++ "import msgspec",
      bodyIndent ++ "return msgspec.convert(__data, type=cls)"])
  | .cattrs =>
    some (lines ++ [bodyIndent ++ "import cattrs",
      bodyIndent ++ "return cattrs.structure(__data, cls)"])
  | .builtin =>
    (boundary.fields.mapM (emitDataclassField typedDicts fuel boundary.classIndent)).map
      fun fieldLines =>
        lines ++ [bodyIndent ++ "if not isinstance(__data, dict):",
          nestedIndent ++ "raise TypeError(\"field \x60<root>\x60 expected dict but got \" + "
            ++ "type(__data).__name__)"]
        ++ fieldLines.flatten
        ++ [bodyIndent ++ "return cls(" ++ join ", " (boundary.fields.map fun field =>
          field.name ++ "=__tpy_" ++ field.name) ++ ")"]

/-! ## Injection -/

/-- An edit: a boundary class with the lines of its validator. -/
abbrev RuntimeValidatorEdit := BoundaryClass × List String

/-- The error of a boundary class with a field whose annotation is not supported. -/
structure UnsupportedValidation where
  sourcePath : String
  className : String
  fieldName : String
  annotation : String
  deriving DecidableEq

/-- The first field that cannot be validated faithfully. -/
def unsupportedField (sourcePath : String) (typedDicts : TypedDicts)
    (boundaries : List BoundaryClass) : Option UnsupportedValidation :=
  boundaries.findSome? fun boundary =>
    if boundary.adapter = .builtin then
      (boundary.fields.find? fun field =>
        !annotationIsFaithfullyValidated typedDicts field.annotation.toList).map fun field =>
          ⟨sourcePath, boundary.className, field.name, field.annotation⟩
    else none

/-- The lines with the insertions after them. -/
def insertEdits (edits : List RuntimeValidatorEdit) (lines : List Chars) : List String :=
  lines.zipIdx.flatMap fun (line, index) =>
    String.ofList line
      :: (edits.filter fun edit => edit.1.afterLine = index + 1).flatMap Prod.snd

/-- All insertions are built before the annotations are looked at. -/
def injectRuntimeValidators (fuel : Nat) (sourcePath python : String) :
    Option (Except UnsupportedValidation String) :=
  let lines := sourceLines python.toList
  let typedDicts := collectTypedDictFields lines
  let boundaries := collectBoundaryClasses lines
  (boundaries.mapM (buildValidatorLines typedDicts fuel)).map fun insertions =>
    if boundaries = [] then .ok python
    else
      match unsupportedField sourcePath typedDicts boundaries with
      | some error => .error error
      | none =>
        let rewritten := join "\n" (insertEdits (boundaries.zip insertions) lines)
        .ok (if (stripSuffix ['\n'] python.toList).isSome then rewritten ++ "\n" else rewritten)

end TypePython.Emit
