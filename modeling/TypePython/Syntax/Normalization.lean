import TypePython.Syntax.Extensions

/-!
# Scanning and normalising a source

The extension statements of a source, found line by line, and the Python text they are rewritten
to. A line without a statement is kept.
-/

namespace TypePython.Syntax

open TypePython.Lib.Text

/-! ## Lines -/

/-- Drop a carriage return at the end of a line that ends with a line feed. -/
def dropCarriageReturn (line : Chars) : Chars := (stripSuffix ['\r'] line).getD line

/-- The lines of a text: between line feeds, with no empty last one. `line` is what has been read
of the current line, the other way round. -/
def linesFrom : Chars → Chars → List Chars
  | line, [] => if line = [] then [] else [line.reverse]
  | line, c :: cs =>
    if c = '\n' then dropCarriageReturn line.reverse :: linesFrom [] cs
    else linesFrom (c :: line) cs

def sourceLines (text : Chars) : List Chars := linesFrom [] text

/-- Join lines with line feeds. -/
def joinLines : List Chars → Chars
  | [] => []
  | [line] => line
  | line :: next :: rest => line ++ '\n' :: joinLines (next :: rest)

/-! ## The scan -/

/-- What the scan of a source finds. -/
structure Scan where
  statements : List ExtensionStatement := []
  diagnostics : List SyntaxDiagnostic := []

/-- Look at one line: empty lines and comments are left out. -/
def scanLine (path : String) (scan : Scan) (index : Nat) (line : Chars) : Scan :=
  let trimmed := trimStart line
  if trimmed = [] ∨ trimmed.head? = some '#' then scan
  else
    match parseExtensionStatement { path, line := index + 1, text := trimmed } with
    | none => scan
    | some (.ok statement) => { scan with statements := scan.statements ++ [statement] }
    | some (.error diagnostic) => { scan with diagnostics := scan.diagnostics ++ [diagnostic] }

def scanLinesFrom (path : String) : Scan → Nat → List Chars → Scan
  | scan, _, [] => scan
  | scan, index, line :: lines =>
    scanLinesFrom path (scanLine path scan index line) (index + 1) lines

/-- The extension statements of a source, and the diagnostics about them. -/
def scanTypepythonSource (path : String) (source : Chars) : Scan :=
  scanLinesFrom path {} 0 (sourceLines source)

/-! ## Rewriting -/

/-- The text after the first colon outside of brackets and strings. -/
def afterDepthZeroColon : Int → Option Char → Chars → Option Chars
  | _, _, [] => none
  | depth, some quote, c :: cs =>
    if c = '\\' then
      match cs with
      | [] => none
      | _ :: rest => afterDepthZeroColon depth (some quote) rest
    else afterDepthZeroColon depth (if c = quote then none else some quote) cs
  | depth, none, c :: cs =>
    if c = '(' ∨ c = '[' ∨ c = '{' then afterDepthZeroColon (depth + 1) none cs
    else if c = ')' ∨ c = ']' ∨ c = '}' then afterDepthZeroColon (depth - 1) none cs
    else if c = '\'' ∨ c = '"' then afterDepthZeroColon depth (some c) cs
    else if c = ':' ∧ depth = 0 then some cs
    else afterDepthZeroColon depth none cs

/-- What is written after the colon of a header, if it is more than a comment. -/
def inlineSuiteTail (line : Chars) : Chars :=
  match (afterDepthZeroColon 0 none line).map trim with
  | none | some [] => []
  | some tail => if tail.head? = some '#' then [] else ' ' :: tail

def leadingIndent (line : Chars) : Chars := line.takeWhile isWhitespace

def renderTypeParam (param : TypeParam) : String :=
  let starred := match param.kind with
    | .typeVar => ""
    | .paramSpec => "**"
    | .typeVarTuple => "*"
  let rendered :=
    if param.constraints.isEmpty then
      match param.boundExpr, param.bound with
      | some bound, _ => param.name ++ ": " ++ bound.render
      | none, some bound => param.name ++ ": " ++ bound
      | none, none => param.name
    else
      let constraints :=
        if param.constraintExprs.isEmpty then param.constraints
        else param.constraintExprs.map TypeExpr.render
      param.name ++ ": (" ++ join ", " constraints ++ ")"
  let default := match param.defaultExpr, param.defaultText with
    | some default, _ => " = " ++ default.render
    | none, some default => " = " ++ default
    | none, none => ""
  starred ++ rendered ++ default

def renderTypeParams (typeParams : List TypeParam) : String :=
  if typeParams.isEmpty then ""
  else "[" ++ join ", " (typeParams.map renderTypeParam) ++ "]"

def normalizeNamedBlockLine (line : Chars) (block : NamedBlockStatement) : Chars :=
  leadingIndent line ++ ("class " ++ block.name ++ renderTypeParams block.typeParams
    ++ block.headerSuffix ++ ":").toList ++ inlineSuiteTail line

def normalizeTypepythonStatementLine (line : Chars) : ExtensionStatement → Chars
  | .typeAlias name _ value _ _ => leadingIndent line ++ (name ++ " = " ++ value).toList
  | .interface block | .dataClass block | .sealedClass block => normalizeNamedBlockLine line block
  | .overloadDef _ _ _ =>
    let trimmed := trimStart line
    leadingIndent line ++ (stripPrefix "overload ".toList trimmed).getD trimmed
  | .unsafeBlock _ => leadingIndent line ++ "if True:".toList ++ inlineSuiteTail line

/-- The last statement of a line. -/
def statementAt (statements : List ExtensionStatement) (lineNumber : Nat) :
    Option ExtensionStatement :=
  statements.reverse.find? fun statement => statementLine statement = lineNumber

/-- The lines of a source, rewritten where there is a statement. -/
def normalizedLines (source : Chars) (statements : List ExtensionStatement) : List Chars :=
  (sourceLines source).mapIdx fun index line =>
    match statementAt statements (index + 1) with
    | some statement => normalizeTypepythonStatementLine line statement
    | none => line

def normalizeTypepythonSource (source : Chars) (statements : List ExtensionStatement) : Chars :=
  let normalized := joinLines (normalizedLines source statements)
  if source.getLast? = some '\n' then normalized ++ ['\n'] else normalized

end TypePython.Syntax
