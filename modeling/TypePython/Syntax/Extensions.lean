import TypePython.Syntax.TypeExpr

/-!
# Extension declarations

The declarations that are not Python, as they are recognised on a line of the source: `typealias`,
`interface`, `data class`, `sealed class`, `overload def` and `unsafe:`. A line that starts like
one of them is parsed as it, and gives a statement or a diagnostic (`Except`). The statements are
then rewritten to Python, line by line, before the source is parsed.
-/

namespace TypePython.Syntax

open TypePython.Lib.Text

/-! ## Statements -/

structure SyntaxDiagnostic where
  code : String
  message : String
  path : String
  line : Nat
  endColumn : Nat
deriving DecidableEq, Repr

inductive TypeParamKind where
  | typeVar
  | paramSpec
  | typeVarTuple
deriving DecidableEq, Repr

structure TypeParam where
  kind : TypeParamKind
  name : String
  bound : Option String := none
  boundExpr : Option TypeExpr := none
  constraints : List String := []
  constraintExprs : List TypeExpr := []
  defaultText : Option String := none
  defaultExpr : Option TypeExpr := none

inductive ClassMemberKind where
  | field
  | method
  | overload
deriving DecidableEq

structure ClassMember where
  kind : ClassMemberKind
  name : String
  annotation : Option TypeExpr := none

/-- The line gives no bases and members; they are read off the Python that it becomes. -/
structure NamedBlockStatement where
  name : String
  typeParams : List TypeParam := []
  headerSuffix : String := ""
  bases : List String := []
  members : List ClassMember := []
  line : Nat := 0

inductive ExtensionStatement where
  | typeAlias (name : String) (typeParams : List TypeParam) (value : String)
      (valueExpr : Option TypeExpr) (line : Nat)
  | interface (block : NamedBlockStatement)
  | dataClass (block : NamedBlockStatement)
  | sealedClass (block : NamedBlockStatement)
  | overloadDef (name : String) (typeParams : List TypeParam) (line : Nat)
  | unsafeBlock (line : Nat)

def statementLine : ExtensionStatement → Nat
  | .typeAlias _ _ _ _ line => line
  | .interface block | .dataClass block | .sealedClass block => block.line
  | .overloadDef _ _ line => line
  | .unsafeBlock line => line

/-- A line of a file. -/
structure SourceLine where
  path : String
  line : Nat
  text : Chars

/-- A diagnostic that spans the line. -/
def parseError (at_ : SourceLine) (message : String) : SyntaxDiagnostic where
  code := "TPY2001"
  message := message
  path := at_.path
  line := at_.line
  endColumn := max at_.text.length 1

/-! ## Splitting -/

/-- The depths in brackets and in parentheses after a character. -/
def nextDepths : Nat × Nat → Char → Nat × Nat
  | (brackets, parens), c =>
    if c = '[' then (brackets + 1, parens)
    else if c = ']' then (brackets - 1, parens)
    else if c = '(' then (brackets, parens + 1)
    else if c = ')' then (brackets, parens - 1)
    else (brackets, parens)

def splitTopLevelOnceFrom (separator : Char) : Nat × Nat → Chars → Option (Chars × Chars)
  | _, [] => none
  | depths, c :: cs =>
    if c = separator ∧ depths = (0, 0) then some ([], cs)
    else
      (splitTopLevelOnceFrom separator (nextDepths depths c) cs).map fun (head, tail) =>
        (c :: head, tail)

def splitTopLevelOnce (input : Chars) (separator : Char) : Option (Chars × Chars) :=
  splitTopLevelOnceFrom separator (0, 0) input

/-- The parts between commas outside of brackets and parentheses. -/
def splitCommasFrom : Nat × Nat → Chars → List Chars
  | _, [] => [[]]
  | depths, c :: cs =>
    if c = ',' ∧ depths = (0, 0) then [] :: splitCommasFrom (0, 0) cs
    else consFirst c (splitCommasFrom (nextDepths depths c) cs)

/-- The trimmed parts; an empty last part is dropped. -/
def splitTopLevelCommas (input : Chars) : List Chars :=
  let parts := (splitCommasFrom (0, 0) input).map trim
  if parts.getLast? = some [] then parts.dropLast else parts

/-- The text inside the first pair of brackets of a text that starts with one, and the rest. -/
def splitBracketedFrom : Nat → Chars → Option (Chars × Chars)
  | _, [] => none
  | depth, c :: cs =>
    let cons := Option.map fun (content, rest) => (c :: content, rest)
    if c = '[' then cons (splitBracketedFrom (depth + 1) cs)
    else if c = ']' then
      if depth = 0 then none
      else if depth = 1 then some ([], cs)
      else cons (splitBracketedFrom (depth - 1) cs)
    else cons (splitBracketedFrom depth cs)

def splitBracketed (input : Chars) : Option (Chars × Chars) :=
  (splitBracketedFrom 0 input).map fun (content, rest) => (content.drop 1, rest)

/-! ## Names -/

def isIdentifierStart (c : Char) : Bool := c == '_' || c.isAlpha

def isIdentifierChar (c : Char) : Bool := c == '_' || c.isAlphanum

def isValidIdentifier : Chars → Bool
  | [] => false
  | first :: rest => isIdentifierStart first && rest.all isIdentifierChar

def stripSoftKeyword (line : Chars) (keyword : String) : Option Chars :=
  (stripPrefix keyword.toList line).bind fun rest =>
    match rest with
    | c :: _ => if isIdentifierChar c then none else some rest
    | [] => some rest

/-- The name a declaration starts with, and the text after it. -/
def extractDeclHead (header : Chars) : Option (String × Chars) :=
  let header := trim header
  let candidate := header.takeWhile isIdentifierChar
  if isValidIdentifier candidate then
    some (String.ofList candidate, header.dropWhile isIdentifierChar)
  else none

/-! ## Type parameters -/

section TypeParams

variable (at_ : SourceLine) (label : String)

def parseTypeParamConstraints (constraints : Chars) : Except SyntaxDiagnostic (List String) :=
  match (stripPrefix ['('] constraints).bind (stripSuffix [')']) with
  | none =>
    throw (parseError at_ (label ++ " type parameter constraint list must be parenthesized"))
  | some inner =>
    let parsed := splitTopLevelCommas inner
    if parsed.isEmpty then
      throw (parseError at_ (label ++ " type parameter constraint list must not be empty"))
    else if parsed.any List.isEmpty then
      throw (parseError at_
        (label ++ " type parameter constraint list must not contain empty entries"))
    else return parsed.map String.ofList

/-- A type parameter cut into its parts. -/
structure TypeParamParts where
  kind : TypeParamKind
  namePart : Chars
  boundOrConstraints : Option Chars
  defaultText : Option Chars

def splitTypeParam (item : Chars) : TypeParamParts :=
  let (item, defaultText) : Chars × Option Chars :=
    match splitTopLevelOnce item '=' with
    | some (head, default) => (trim head, some (trim default))
    | none => (item, none)
  let (kind, item) : TypeParamKind × Chars :=
    match stripPrefix "**".toList item, stripPrefix "*".toList item with
    | some rest, _ => (.paramSpec, trim rest)
    | none, some rest => (.typeVarTuple, trim rest)
    | none, none => (.typeVar, item)
  let (namePart, boundOrConstraints) : Chars × Option Chars :=
    match splitTopLevelOnce item ':' with
    | some (namePart, bound) => (trim namePart, some (trim bound))
    | none => (item, none)
  { kind, namePart, boundOrConstraints, defaultText }

/-- The bound of a type parameter, or its constraints. -/
def parseTypeParamBound :
    Option Chars → Except SyntaxDiagnostic (Option String × List String)
  | some [] => throw (parseError at_ (label ++ " type parameter bound must not be empty"))
  | some ('(' :: rest) =>
    (parseTypeParamConstraints at_ label ('(' :: rest)).map fun constraints =>
      (none, constraints)
  | some bound => return (some (String.ofList bound), [])
  | none => return (none, [])

def parseTypeParam (item : Chars) : Except SyntaxDiagnostic TypeParam :=
  if trim item = [] then
    throw (parseError at_ (label ++ " contains an empty type parameter entry"))
  else
    let parts := splitTypeParam (trim item)
    let name := String.ofList parts.namePart
    if !isValidIdentifier parts.namePart then
      throw (parseError at_ (label ++ " contains an invalid type parameter name"))
    else if parts.kind = .paramSpec ∧ parts.boundOrConstraints.isSome then
      throw (parseError at_
        (label ++ " ParamSpec \x60" ++ name ++ "\x60 must not declare bounds or constraints"))
    else if parts.kind = .typeVarTuple ∧ parts.boundOrConstraints.isSome then
      throw (parseError at_
        (label ++ " TypeVarTuple \x60" ++ name ++ "\x60 must not declare bounds or constraints"))
    else do
      let (bound, constraints) ← parseTypeParamBound at_ label parts.boundOrConstraints
      if parts.defaultText = some [] then
        throw (parseError at_ (label ++ " type parameter default must not be empty"))
      else
        let defaultText := parts.defaultText.map String.ofList
        return { kind := parts.kind, name, bound
                 boundExpr := bound.bind TypeExpr.parse
                 constraints
                 constraintExprs := constraints.filterMap TypeExpr.parse
                 defaultText
                 defaultExpr := defaultText.bind TypeExpr.parse }

/-- No two type parameters have one name. -/
def validateTypeParamNames : List String → List TypeParam → Except SyntaxDiagnostic Unit
  | _, [] => return ()
  | seen, param :: params =>
    if param.name ∈ seen then
      throw
        { code := "TPY4004"
          message :=
            label ++ " declares type parameter \x60" ++ param.name ++ "\x60 more than once"
          path := at_.path, line := at_.line, endColumn := 1 }
    else validateTypeParamNames (param.name :: seen) params

/-- No type parameter without a default follows one with a default. -/
def validateTypeParamDefaultOrder : Bool → List TypeParam → Except SyntaxDiagnostic Unit
  | _, [] => return ()
  | seenDefault, param :: params =>
    if param.defaultText.isSome then validateTypeParamDefaultOrder true params
    else if seenDefault then
      throw
        { code := "TPY2001"
          message := label ++ " type parameter \x60" ++ param.name
            ++ "\x60 without a default cannot follow a parameter with a default"
          path := at_.path, line := at_.line, endColumn := 1 }
    else validateTypeParamDefaultOrder seenDefault params

/-- The type parameters at the start of a text, and the rest. -/
def parseTypeParams (suffix : Chars) : Except SyntaxDiagnostic (List TypeParam × Chars) :=
  let suffix := trimStart suffix
  if suffix.head? ≠ some '[' then return ([], suffix)
  else
    match splitBracketed suffix with
    | none => throw (parseError at_ (label ++ " has an unterminated type parameter list"))
    | some (content, remainder) =>
      if (trimStart remainder).head? = some '[' then
        throw (parseError at_ (label ++ " must not contain multiple type parameter lists"))
      else do
      let typeParams ← (splitCommasFrom (0, 0) content).mapM (parseTypeParam at_ label)
      validateTypeParamNames at_ label [] typeParams
      validateTypeParamDefaultOrder at_ label false typeParams
      return (typeParams, remainder)

end TypeParams

/-! ## Declarations -/

section Declarations

variable (at_ : SourceLine)

def parseTypealias (rest : Chars) : Except SyntaxDiagnostic ExtensionStatement :=
  match splitTopLevelOnce rest '=' with
  | none => throw (parseError at_ "typealias declaration must contain \x60=\x60")
  | some (head, tail) =>
    if trim tail = [] then
      throw (parseError at_ "typealias declaration must define a target type expression")
    else
    match extractDeclHead head with
    | none => throw (parseError at_ "typealias declaration must name an alias before \x60=\x60")
    | some (name, suffix) => do
      let (typeParams, _) ← parseTypeParams at_ "typealias declaration" suffix
      let value := String.ofList (trim tail)
      return .typeAlias name typeParams value (TypeExpr.parse value) at_.line

/-- A block with a name and type parameters, for the three kinds of classes. -/
def parseNamedBlock (label : String) (constructor : NamedBlockStatement → ExtensionStatement)
    (rest : Chars) : Except SyntaxDiagnostic ExtensionStatement :=
  if at_.text.getLast? ≠ some ':' then
    throw (parseError at_ (label ++ " must end with \x60:\x60"))
  else
  match extractDeclHead (trimEnd rest.dropLast) with
  | none => throw (parseError at_ (label ++ " must include a valid name"))
  | some (name, suffix) => do
    let (typeParams, remainder) ← parseTypeParams at_ label suffix
    return constructor
      { name, typeParams, headerSuffix := String.ofList (trim remainder), line := at_.line }

def parseOverload (rest : Chars) : Except SyntaxDiagnostic ExtensionStatement :=
  let label := "overload declaration"
  match splitTopLevelOnce (trimEnd rest) ':' with
  | none => throw (parseError at_ (label ++ " must end with \x60:\x60"))
  | some (signature, _) =>
    match splitTopLevelOnce (trimEnd signature) '(' with
    | none => throw (parseError at_ (label ++ " must include a parameter list"))
    | some (namePart, _) =>
      match extractDeclHead namePart with
      | none => throw (parseError at_ (label ++ " must include a function name"))
      | some (name, suffix) => do
        let (typeParams, _) ← parseTypeParams at_ label suffix
        return .overloadDef name typeParams at_.line

def parseUnsafe : Except SyntaxDiagnostic ExtensionStatement :=
  if (stripPrefix "unsafe:".toList at_.text).isSome then return .unsafeBlock at_.line
  else throw (parseError at_ "unsafe block must start with \x60unsafe:\x60")

/-- The declaration a line starts, if it starts like one; the line is trimmed at its start. -/
def parseExtensionStatement : Option (Except SyntaxDiagnostic ExtensionStatement) :=
  match stripSoftKeyword at_.text "typealias" with
  | some rest => some (parseTypealias at_ rest)
  | none =>
  match stripSoftKeyword at_.text "interface" with
  | some rest => some (parseNamedBlock at_ "interface declaration" .interface rest)
  | none =>
  match stripPrefix "data class ".toList at_.text with
  | some rest => some (parseNamedBlock at_ "data class declaration" .dataClass rest)
  | none =>
  match stripPrefix "sealed class ".toList at_.text with
  | some rest => some (parseNamedBlock at_ "sealed class declaration" .sealedClass rest)
  | none =>
  match stripPrefix "overload def ".toList at_.text with
  | some rest => some (parseOverload at_ rest)
  | none =>
  if (stripPrefix "unsafe".toList at_.text).isSome then some (parseUnsafe at_) else none

end Declarations

end TypePython.Syntax
