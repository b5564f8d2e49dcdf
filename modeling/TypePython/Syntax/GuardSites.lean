import TypePython.Lib.SortDedup
import TypePython.Syntax.Normalization
import TypePython.Syntax.PythonTree

/-!
# The statements of a source

What the parsers record of a syntax tree, up to the collectors of `if` and `assert` statements. Of
the other statements only the kind and the line are kept; the collectors that follow record no
further `if` or `assert`.
-/

namespace TypePython.Syntax

open TypePython.Lib
open TypePython.Lib.Text

/-! ## Guards -/

inductive GuardCondition where
  | isNone (name : String) (negated : Bool)
  | isInstance (name : String) (types : List String)
  | predicateCall (name callee : String)
  | truthyName (name : String)
  | not (guard : GuardCondition)
  | and (guards : List GuardCondition)
  | or (guards : List GuardCondition)

/-- The texts of the classes that a value is tested for. -/
def guardTypes : Expr → List String
  | .tuple _ elts => elts.map Expr.text
  | other => [other.text]

def extractCallGuard (func : Expr) (args : List Expr) : Option GuardCondition :=
  match func, args with
  | .name callee, .name name :: rest =>
    if callee ≠ "isinstance" then some (.predicateCall name callee)
    else
      match rest with
      | [types] =>
        if guardTypes types = [] then none else some (.isInstance name (guardTypes types))
      | _ => none
  | _, _ => none

def extractCompareGuard (left : Expr) (ops : List CmpOp) (comparators : List Expr) :
    Option GuardCondition :=
  match left, ops, comparators with
  | .name name, [.is], [.noneLiteral] => some (.isNone name false)
  | .name name, [.isNot], [.noneLiteral] => some (.isNone name true)
  | _, _, _ => none

mutual

def extractGuardCondition : Expr → Option GuardCondition
  | .notOp _ operand => (extractGuardCondition operand).map .not
  | .andOp _ values => (extractGuardConditions values).map .and
  | .orOp _ values => (extractGuardConditions values).map .or
  | .name id => some (.truthyName id)
  | .compare _ left ops comparators => extractCompareGuard left ops comparators
  | .call _ func args => extractCallGuard func args
  | _ => none

def extractGuardConditions : List Expr → Option (List GuardCondition)
  | [] => some []
  | value :: rest => do
    let guard ← extractGuardCondition value
    let guards ← extractGuardConditions rest
    some (guard :: guards)

end

/-! ## Statements -/

structure IfStatement where
  owner : Owner
  guard : Option GuardCondition
  line : Nat
  trueStartLine : Nat
  trueEndLine : Nat
  falseStartLine : Option Nat
  falseEndLine : Option Nat

structure AssertStatement where
  owner : Owner
  guard : Option GuardCondition
  line : Nat

inductive StatementKind where
  | typeAlias
  | classDef
  | functionDef
  | importNames
  | value
  | call
  | methodCall
  | memberAccess
  | returnStmt
  | yieldStmt
  | invalidate
deriving DecidableEq

inductive SyntaxStatement where
  | extension (statement : ExtensionStatement)
  | ifStmt (statement : IfStatement)
  | assertStmt (statement : AssertStatement)
  | other (kind : StatementKind) (line : Nat)

def SyntaxStatement.line : SyntaxStatement → Nat
  | .extension statement => statementLine statement
  | .ifStmt statement => statement.line
  | .assertStmt statement => statement.line
  | .other _ line => line

def suiteStartLineOptional (suite : List Stmt) : Option Nat := suite.head?.map Stmt.line

def suiteEndLineOptional (suite : List Stmt) : Option Nat :=
  suite.getLast?.map fun stmt => stmt.range.endLine

def ifStatement (owner : Owner) (range : Range) (test : Expr) (body : List Stmt)
    (clauses : List (Option Expr × List Stmt)) : IfStatement where
  owner := owner
  guard := extractGuardCondition test
  line := range.line
  trueStartLine := (suiteStartLineOptional body).getD 0
  trueEndLine := (suiteEndLineOptional body).getD 0
  falseStartLine := clauses.head?.bind fun clause => suiteStartLineOptional clause.2
  falseEndLine := clauses.getLast?.bind fun clause => suiteEndLineOptional clause.2

/-- The record of an `if` statement. -/
def ifOfVisit (visit : Visit) : Option IfStatement :=
  match visit.stmt with
  | .ifStmt range test body clauses => some (ifStatement visit.owner range test body clauses)
  | _ => none

/-- The record of an `assert` statement. -/
def assertOfVisit (visit : Visit) : Option AssertStatement :=
  match visit.stmt with
  | .assertStmt range test => some ⟨visit.owner, extractGuardCondition test, range.line⟩
  | _ => none

/-! ## Statements of the module -/

mutual

def extractAssignmentNames : Expr → List String
  | .name id => [id]
  | .tuple _ elts => extractAssignmentNamesOf elts
  | .list _ elts => extractAssignmentNamesOf elts
  | .starred _ value => extractAssignmentNames value
  | .attribute _ value _ => extractAssignmentNames value
  | .subscript _ value => extractAssignmentNames value
  | _ => []

def extractAssignmentNamesOf : List Expr → List String
  | [] => []
  | target :: rest => extractAssignmentNames target ++ extractAssignmentNamesOf rest

end

/-- Type parameters are taken when their names differ and their defaults come last. -/
def extractAstTypeParams (line : Nat) (typeParams : List TypeParam) : Option (List TypeParam) :=
  let at_ : SourceLine := { path := "", text := [], line := line }
  match validateTypeParamNames at_ "" [] typeParams,
    validateTypeParamDefaultOrder at_ "" false typeParams with
  | .ok (), .ok () => some typeParams
  | _, _ => none

def extractCallStatement (line : Nat) : Expr → Option SyntaxStatement
  | .call _ (.name _) _ => some (.other .call line)
  | _ => none

def extractMethodCall (line : Nat) : Expr → Option SyntaxStatement
  | .call _ (.attribute _ (.name _) _) _ => some (.other .methodCall line)
  | .call _ (.attribute _ (.call _ (.name _) _) _) _ => some (.other .methodCall line)
  | _ => none

def extractMemberAccessFromExpr (line : Nat) : Expr → Option SyntaxStatement
  | .attribute _ (.name _) _ => some (.other .memberAccess line)
  | .attribute _ (.call _ (.name _) _) _ => some (.other .memberAccess line)
  | _ => none

/-- A statement of some kind, when there are names for it. -/
def namedStatement (kind : StatementKind) (names : List String) (line : Nat) :
    Option SyntaxStatement :=
  if names = [] then none else some (.other kind line)

def extractAstBackedStatement (line : Nat) : Stmt → Option SyntaxStatement
  | .typeAlias _ typeParams =>
    (extractAstTypeParams line typeParams).map fun _ => .other .typeAlias line
  | .classDef _ _ typeParams _ =>
    (extractAstTypeParams line typeParams).map fun _ => .other .classDef line
  | .functionDef _ _ typeParams _ =>
    (extractAstTypeParams line typeParams).map fun _ => .other .functionDef line
  | .importNames _ => some (.other .importNames line)
  | .assign _ targets _ => namedStatement .value (extractAssignmentNamesOf targets) line
  | .annAssign _ target _ => namedStatement .value (extractAssignmentNames target) line
  | .augAssign _ target => namedStatement .value (extractAssignmentNames target) line
  | .ifStmt range test body clauses => some (.ifStmt (ifStatement {} range test body clauses))
  | .assertStmt range test => some (.assertStmt ⟨{}, extractGuardCondition test, range.line⟩)
  | .delete _ targets => namedStatement .invalidate (extractAssignmentNamesOf targets) line
  | .scopeNames _ => some (.other .invalidate line)
  | .expr _ value => extractCallStatement line value
  | _ => none

def extractSupplementalCallStatement (line : Nat) : Stmt → Option SyntaxStatement
  | .assign _ _ value => extractCallStatement line value
  | .annAssign _ _ value => value.bind (extractCallStatement line)
  | .returnStmt _ value => value.bind (extractCallStatement line)
  | _ => none

def extractMethodCallStatement (line : Nat) : Stmt → Option SyntaxStatement
  | .expr _ value => extractMethodCall line value
  | .assign _ _ value => extractMethodCall line value
  | .annAssign _ _ value => value.bind (extractMethodCall line)
  | .returnStmt _ value => value.bind (extractMethodCall line)
  | _ => none

def extractMemberAccessStatement (line : Nat) : Stmt → Option SyntaxStatement
  | .expr _ value => extractMemberAccessFromExpr line value
  | .assign _ _ value => extractMemberAccessFromExpr line value
  | .annAssign _ _ value => value.bind (extractMemberAccessFromExpr line)
  | _ => none

/-- What one statement of the module gives. -/
def statementsOfTopLevel (stmt : Stmt) : List SyntaxStatement :=
  (extractAstBackedStatement stmt.line stmt).toList
    ++ (extractSupplementalCallStatement stmt.line stmt).toList
    ++ (extractMethodCallStatement stmt.line stmt).toList
    ++ (extractMemberAccessStatement stmt.line stmt).toList

/-- A statement on the line of an existing one is left out. -/
def extractAstBackedStatements (suite : List Stmt) (existing : List SyntaxStatement) :
    List SyntaxStatement :=
  suite.flatMap fun stmt =>
    if stmt.line ∈ existing.map SyntaxStatement.line then [] else statementsOfTopLevel stmt

/-! ## Collectors -/

def extractReturnStatement (visit : Visit) : Option SyntaxStatement :=
  match visit.stmt with
  | .returnStmt range _ => visit.owner.ownerName.map fun _ => .other .returnStmt range.line
  | _ => none

def extractYieldStatement (visit : Visit) : Option SyntaxStatement :=
  match visit.stmt with
  | .expr range (.yield _) => visit.owner.ownerName.map fun _ => .other .yieldStmt range.line
  | .expr range (.yieldFrom _) => visit.owner.ownerName.map fun _ => .other .yieldStmt range.line
  | _ => none

def collectReturnStatements (suite : List Stmt) (statements : List SyntaxStatement) :
    List SyntaxStatement :=
  statements ++ (visits { nestedFirst := true } suite).filterMap extractReturnStatement

def collectYieldStatements (suite : List Stmt) (statements : List SyntaxStatement) :
    List SyntaxStatement :=
  statements ++ (visits { keepsOwner := false } suite).filterMap extractYieldStatement

/-- Record a statement unless one is recorded for its line. -/
def pushFresh (statements : List SyntaxStatement) (statement : SyntaxStatement) :
    List SyntaxStatement :=
  if statements.any fun other => other.line = statement.line then statements
  else statements ++ [statement]

def collectIfStatements (suite : List Stmt) (statements : List SyntaxStatement) :
    List SyntaxStatement :=
  ((visits {} suite).filterMap ifOfVisit).foldl
    (fun statements record => pushFresh statements (.ifStmt record)) statements

def collectAssertStatements (suite : List Stmt) (statements : List SyntaxStatement) :
    List SyntaxStatement :=
  ((visits {} suite).filterMap assertOfVisit).foldl
    (fun statements record => pushFresh statements (.assertStmt record)) statements

/-! ## Guarded branches -/

structure ParsePythonVersion where
  major : Nat
  minor : Nat
deriving DecidableEq

def ParsePythonVersion.lt (version other : ParsePythonVersion) : Bool :=
  version.major < other.major || (version.major = other.major && version.minor < other.minor)

inductive ParseTargetPlatform where
  | darwin
  | linux
  | win32
  | other
deriving DecidableEq

def ParseTargetPlatform.sysPlatformName : ParseTargetPlatform → String
  | .darwin => "darwin"
  | .linux => "linux"
  | .win32 => "win32"
  | .other => "other"

/-- The target of a parse. -/
structure ParseOptions where
  targetPython : Option ParsePythonVersion
  targetPlatform : Option ParseTargetPlatform

def isTypeCheckingGuardExpr : Expr → Bool
  | .name id => id = "TYPE_CHECKING"
  | .attribute _ (.name id) attr =>
    attr = "TYPE_CHECKING" && (id = "typing" || id = "typing_extensions")
  | _ => false

def parseSmallPythonVersionComponent (value : Option Nat) : Option Nat :=
  value.filter fun component => component ≤ 255

def parseGuardedPythonVersion : Expr → Option ParsePythonVersion
  | .tuple _ (.numberLiteral _ major :: rest) =>
    (parseSmallPythonVersionComponent major).map fun major =>
      let minor := match rest with
        | .numberLiteral _ minor :: _ => parseSmallPythonVersionComponent minor
        | _ => none
      { major, minor := minor.getD 0 }
  | .numberLiteral _ value =>
    (parseSmallPythonVersionComponent value).map fun major => { major, minor := 0 }
  | _ => none

def compareVersions (op : CmpOp) (target expected : ParsePythonVersion) : Option Bool :=
  match op with
  | .eq => some (target = expected)
  | .notEq => some (target ≠ expected)
  | .lt => some (target.lt expected)
  | .ltE => some (!expected.lt target)
  | .gt => some (expected.lt target)
  | .gtE => some (!target.lt expected)
  | _ => none

def evaluateVersionGuardExpr (options : ParseOptions) : Expr → Option Bool
  | .compare _ (.attribute _ (.name id) attr) [op] [comparator] => do
    let target ← options.targetPython
    if attr = "version_info" && id = "sys" then
      let expected ← parseGuardedPythonVersion comparator
      compareVersions op target expected
    else none
  | _ => none

/-- What stands between two equal quotes around a text. -/
def unquoted (quote : String) (text : Chars) : Option Chars :=
  (stripPrefix quote.toList text).bind (stripSuffix quote.toList)

def extractStringLiteralValue (text : String) : Option String :=
  let raw := trim text.toList
  let quoted := raw.dropWhile fun c => c ≠ '\'' && c ≠ '"'
  let inner := (unquoted "\"\"\"" quoted).or ((unquoted "\x27\x27\x27" quoted).or
    ((unquoted "\"" quoted).or (unquoted "\x27" quoted)))
  inner.map String.ofList

def evaluatePlatformGuardExpr (options : ParseOptions) : Expr → Option Bool
  | .compare _ (.attribute _ (.name id) attr) [op] [.stringLiteral text] => do
    let platform ← options.targetPlatform
    if attr = "platform" && id = "sys" then
      let expected ← extractStringLiteralValue text
      match op with
      | .eq => some (platform.sysPlatformName = expected)
      | .notEq => some (platform.sysPlatformName ≠ expected)
      | _ => none
    else none
  | _ => none

def evaluateGuardedImportExpr (options : ParseOptions) (test : Expr) : Option Bool :=
  if isTypeCheckingGuardExpr test then some true
  else (evaluateVersionGuardExpr options test).or (evaluatePlatformGuardExpr options test)

/-- The branch of an `if` that the target takes. -/
inductive Selection where
  | body
  | clause (index : Nat)
  | nothing
deriving DecidableEq

def selectedClause (options : ParseOptions) :
    Nat → List (Option Expr × List Stmt) → Option Selection
  | _, [] => some .nothing
  | index, (none, _) :: _ => some (.clause index)
  | index, (some test, _) :: rest =>
    (evaluateGuardedImportExpr options test).bind fun holds =>
      if holds then some (.clause index) else selectedClause options (index + 1) rest

/-- `none` when a test is not decided by the target. -/
def selectedGuardedImportSuite (options : ParseOptions) (test : Expr)
    (clauses : List (Option Expr × List Stmt)) : Option Selection :=
  (evaluateGuardedImportExpr options test).bind fun holds =>
    if holds then some .body else selectedClause options 0 clauses

/-- Imports, classes and functions are what a guarded branch declares. -/
def isGuardedDeclaration : SyntaxStatement → Bool
  | .other .importNames _ | .other .classDef _ | .other .functionDef _ => true
  | _ => false

section Guarded

variable (options : ParseOptions)

mutual

/-- The statements of the branches that the target takes, `if` and `try` statements taken apart.
In a selected suite every statement counts. -/
def guardedOfStmt (selected : Bool) : Stmt → List Stmt
  | .ifStmt _ test body clauses =>
    match selectedGuardedImportSuite options test clauses with
    | some .body => guardedOfSuite true body
    | some (.clause index) => guardedOfClause index clauses
    | some .nothing => []
    | none => guardedOfSuite selected body ++ guardedOfClauses selected clauses
  | .tryStmt _ body handlers orelse finalbody =>
    guardedOfSuite selected body ++ guardedOfSuites selected handlers
      ++ guardedOfSuite selected orelse ++ guardedOfSuite selected finalbody
  | stmt => if selected then [stmt] else []

def guardedOfSuite (selected : Bool) : List Stmt → List Stmt
  | [] => []
  | stmt :: rest => guardedOfStmt selected stmt ++ guardedOfSuite selected rest

def guardedOfSuites (selected : Bool) : List (List Stmt) → List Stmt
  | [] => []
  | suite :: rest => guardedOfSuite selected suite ++ guardedOfSuites selected rest

def guardedOfClauses (selected : Bool) : List (Option Expr × List Stmt) → List Stmt
  | [] => []
  | (_, body) :: rest => guardedOfSuite selected body ++ guardedOfClauses selected rest

/-- The clause that is taken. -/
def guardedOfClause : Nat → List (Option Expr × List Stmt) → List Stmt
  | _, [] => []
  | 0, (_, body) :: _ => guardedOfSuite true body
  | index + 1, _ :: rest => guardedOfClause index rest

end

end Guarded

/-- Record a statement of a selected branch, unless one is recorded for its line. -/
def pushGuarded (statements : List SyntaxStatement) (stmt : Stmt) : List SyntaxStatement :=
  if stmt.line ∈ statements.map SyntaxStatement.line then statements
  else statements ++ (extractAstBackedStatement stmt.line stmt).toList.filter isGuardedDeclaration

def collectGuardedImportStatementsFromSuite (options : ParseOptions) (suite : List Stmt) :
    List SyntaxStatement :=
  (guardedOfSuite options false suite).foldl pushGuarded []

/-! ## Extension statements in guarded branches -/

section

mutual

/-- The lines of the statements of a suite and of the suites in them. -/
def startLinesOfStmt : Stmt → List Nat
  | .ifStmt range _ body clauses => range.line :: (startLinesOfSuite body ++ startLinesOfClauses clauses)
  | .tryStmt range body handlers orelse finalbody =>
    range.line :: (startLinesOfSuite body ++ startLinesOfSuites handlers
      ++ startLinesOfSuite orelse ++ startLinesOfSuite finalbody)
  | .matchStmt range cases => range.line :: startLinesOfSuites cases
  | .forStmt range body orelse => range.line :: (startLinesOfSuite body ++ startLinesOfSuite orelse)
  | .whileStmt range body orelse =>
    range.line :: (startLinesOfSuite body ++ startLinesOfSuite orelse)
  | .withStmt range body => range.line :: startLinesOfSuite body
  | stmt => [stmt.line]

def startLinesOfSuite : List Stmt → List Nat
  | [] => []
  | stmt :: rest => startLinesOfStmt stmt ++ startLinesOfSuite rest

def startLinesOfSuites : List (List Stmt) → List Nat
  | [] => []
  | suite :: rest => startLinesOfSuite suite ++ startLinesOfSuites rest

def startLinesOfClauses : List (Option Expr × List Stmt) → List Nat
  | [] => []
  | (_, body) :: rest => startLinesOfSuite body ++ startLinesOfClauses rest

end

/-- The lines in branches that the target decides, and those in the branches it takes. -/
structure GuardedLines where
  guarded : List Nat := []
  selected : List Nat := []

def GuardedLines.append (lines other : GuardedLines) : GuardedLines where
  guarded := lines.guarded ++ other.guarded
  selected := lines.selected ++ other.selected

variable (options : ParseOptions)

mutual

def guardedLinesOfStmt : Stmt → GuardedLines
  | .ifStmt _ test body clauses =>
    let guarded := startLinesOfSuite body ++ startLinesOfClauses clauses
    match selectedGuardedImportSuite options test clauses with
    | some .body =>
      GuardedLines.append { guarded, selected := startLinesOfSuite body }
        (guardedLinesOfSuite body)
    | some (.clause index) =>
      GuardedLines.append { guarded } (guardedLinesOfClause index clauses)
    | some .nothing => { guarded }
    | none => (guardedLinesOfSuite body).append (guardedLinesOfClauses clauses)
  | .tryStmt _ body handlers orelse finalbody =>
    (((guardedLinesOfSuite body).append (guardedLinesOfSuites handlers)).append
      (guardedLinesOfSuite orelse)).append (guardedLinesOfSuite finalbody)
  | .functionDef _ _ _ body => guardedLinesOfSuite body
  | .classDef _ _ _ body => guardedLinesOfSuite body
  | _ => {}

def guardedLinesOfSuite : List Stmt → GuardedLines
  | [] => {}
  | stmt :: rest => (guardedLinesOfStmt stmt).append (guardedLinesOfSuite rest)

def guardedLinesOfSuites : List (List Stmt) → GuardedLines
  | [] => {}
  | suite :: rest => (guardedLinesOfSuite suite).append (guardedLinesOfSuites rest)

def guardedLinesOfClauses : List (Option Expr × List Stmt) → GuardedLines
  | [] => {}
  | (_, body) :: rest => (guardedLinesOfSuite body).append (guardedLinesOfClauses rest)

/-- The clause that is taken. -/
def guardedLinesOfClause : Nat → List (Option Expr × List Stmt) → GuardedLines
  | _, [] => {}
  | 0, (_, body) :: _ =>
    GuardedLines.append { selected := startLinesOfSuite body } (guardedLinesOfSuite body)
  | index + 1, _ :: rest => guardedLinesOfClause index rest

end

end

/-- The extension statements that are kept: those that are in no branch that the target leaves. -/
def retainedStatements (options : ParseOptions) (suite : List Stmt)
    (statements : List ExtensionStatement) : List ExtensionStatement :=
  let lines := guardedLinesOfSuite options suite
  statements.filter fun statement =>
    statementLine statement ∉ lines.guarded || statementLine statement ∈ lines.selected

/-! ## Parsers -/

/-- What both parsers do with a tree, from the statements they start with. -/
def collectStatements (options : ParseOptions) (suite : List Stmt)
    (statements : List SyntaxStatement) : List SyntaxStatement :=
  let statements := statements ++ extractAstBackedStatements suite statements
  let statements := collectReturnStatements suite statements
  let statements := collectYieldStatements suite statements
  let statements := collectIfStatements suite statements
  let statements := statements ++ collectGuardedImportStatementsFromSuite options suite
  collectAssertStatements suite statements

def parsePythonSource (options : ParseOptions) (suite : List Stmt) : List SyntaxStatement :=
  sortBy SyntaxStatement.line (collectStatements options suite [])

/-- The tree is that of the normalized source. Reading a declaration again from the tree keeps its
kind and line. -/
def parseTypepythonSource (options : ParseOptions) (path : String) (source : Chars)
    (suite : List Stmt) : List SyntaxStatement :=
  let scan := scanTypepythonSource path source
  if scan.diagnostics ≠ [] then scan.statements.map .extension
  else
    sortBy SyntaxStatement.line (collectStatements options suite
      ((retainedStatements options suite scan.statements).map .extension))

end TypePython.Syntax
