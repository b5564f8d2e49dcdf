import TypePython.Syntax.Extensions

/-!
# Syntax trees

Expressions and statements as the collectors see them: the source text of an expression, and the
lines on which a statement starts and ends.
-/

namespace TypePython.Syntax

inductive CmpOp where
  | eq
  | notEq
  | lt
  | ltE
  | gt
  | gtE
  | is
  | isNot
  | isIn
  | notIn
deriving DecidableEq

inductive Expr where
  | name (id : String)
  | noneLiteral
  | stringLiteral (text : String)
  /-- A number, with its value when it is a whole one. -/
  | numberLiteral (text : String) (value : Option Nat)
  | attribute (text : String) (value : Expr) (attr : String)
  | subscript (text : String) (value : Expr)
  | call (text : String) (func : Expr) (args : List Expr)
  | notOp (text : String) (operand : Expr)
  | andOp (text : String) (values : List Expr)
  | orOp (text : String) (values : List Expr)
  | compare (text : String) (left : Expr) (ops : List CmpOp) (comparators : List Expr)
  | tuple (text : String) (elts : List Expr)
  | list (text : String) (elts : List Expr)
  | starred (text : String) (value : Expr)
  | yield (text : String)
  | yieldFrom (text : String)
  | other (text : String)

/-- The source text of an expression. -/
def Expr.text : Expr → String
  | .name id => id
  | .noneLiteral => "None"
  | .stringLiteral text | .numberLiteral text _ | .attribute text _ _ | .subscript text _
  | .call text _ _ | .notOp text _ | .andOp text _ | .orOp text _ | .compare text _ _ _
  | .tuple text _ | .list text _ | .starred text _ | .yield text | .yieldFrom text
  | .other text => text

/-- The lines of a statement. -/
structure Range where
  line : Nat
  endLine : Nat
deriving DecidableEq

inductive Stmt where
  | functionDef (range : Range) (name : String) (typeParams : List TypeParam) (body : List Stmt)
  | classDef (range : Range) (name : String) (typeParams : List TypeParam) (body : List Stmt)
  | typeAlias (range : Range) (typeParams : List TypeParam)
  | importNames (range : Range)
  | assign (range : Range) (targets : List Expr) (value : Expr)
  | annAssign (range : Range) (target : Expr) (value : Option Expr)
  | augAssign (range : Range) (target : Expr)
  | expr (range : Range) (value : Expr)
  | returnStmt (range : Range) (value : Option Expr)
  | delete (range : Range) (targets : List Expr)
  | scopeNames (range : Range)
  | assertStmt (range : Range) (test : Expr)
  /-- An `if` with its `elif` and `else` clauses; an `else` has no test. -/
  | ifStmt (range : Range) (test : Expr) (body : List Stmt)
      (clauses : List (Option Expr × List Stmt))
  | tryStmt (range : Range) (body : List Stmt) (handlers : List (List Stmt))
      (orelse finalbody : List Stmt)
  | matchStmt (range : Range) (cases : List (List Stmt))
  | forStmt (range : Range) (body orelse : List Stmt)
  | whileStmt (range : Range) (body orelse : List Stmt)
  | withStmt (range : Range) (body : List Stmt)
  /-- A statement that holds no suite and is never recorded. -/
  | other (range : Range)

def Stmt.range : Stmt → Range
  | .functionDef range _ _ _ | .classDef range _ _ _ | .typeAlias range _ | .importNames range
  | .assign range _ _ | .annAssign range _ _ | .augAssign range _ | .expr range _
  | .returnStmt range _ | .delete range _ | .scopeNames range | .assertStmt range _
  | .ifStmt range _ _ _ | .tryStmt range _ _ _ _ | .matchStmt range _ | .forStmt range _ _
  | .whileStmt range _ _ | .withStmt range _ | .other range => range

def Stmt.line (stmt : Stmt) : Nat := stmt.range.line

/-! ## Visits -/

/-- The functions and classes around a statement. -/
structure Owner where
  ownerName : Option String := none
  ownerTypeName : Option String := none
deriving DecidableEq

/-- A statement, where it stands. -/
structure Visit where
  owner : Owner
  /-- Whether the statement stands in the suite of the module. -/
  topLevel : Bool
  stmt : Stmt

def Visit.line (visit : Visit) : Nat := visit.stmt.line

/-- How a collector walks through a tree. -/
structure Walk where
  /-- Whether the suites of a statement come before it. -/
  nestedFirst : Bool := false
  /-- Whether the body of a class keeps the function around it. -/
  keepsOwner : Bool := true

def Walk.inFunction (owner : Owner) (name : String) : Owner := { owner with ownerName := some name }

def Walk.inClass (walk : Walk) (owner : Owner) (name : String) : Owner where
  ownerName := if walk.keepsOwner then owner.ownerName else none
  ownerTypeName := some name

def Walk.arrange (walk : Walk) (visit : Visit) (nested : List Visit) : List Visit :=
  if walk.nestedFirst then nested ++ [visit] else visit :: nested

section Visits

variable (walk : Walk)

mutual

/-- The statements of a tree that a collector sees, in its order. A function or a class is entered
but not seen. -/
def visitsOfStmt (owner : Owner) (topLevel : Bool) : Stmt → List Visit
  | .functionDef _ name _ body => visitsOfSuite (Walk.inFunction owner name) false body
  | .classDef _ name _ body => visitsOfSuite (walk.inClass owner name) false body
  | .ifStmt range test body clauses =>
    walk.arrange ⟨owner, topLevel, .ifStmt range test body clauses⟩
      (visitsOfSuite owner false body ++ visitsOfClauses owner clauses)
  | .tryStmt range body handlers orelse finalbody =>
    walk.arrange ⟨owner, topLevel, .tryStmt range body handlers orelse finalbody⟩
      (visitsOfSuite owner false body ++ visitsOfSuites owner handlers
        ++ visitsOfSuite owner false orelse ++ visitsOfSuite owner false finalbody)
  | .matchStmt range cases =>
    walk.arrange ⟨owner, topLevel, .matchStmt range cases⟩ (visitsOfSuites owner cases)
  | .forStmt range body orelse =>
    walk.arrange ⟨owner, topLevel, .forStmt range body orelse⟩
      (visitsOfSuite owner false body ++ visitsOfSuite owner false orelse)
  | .whileStmt range body orelse =>
    walk.arrange ⟨owner, topLevel, .whileStmt range body orelse⟩
      (visitsOfSuite owner false body ++ visitsOfSuite owner false orelse)
  | .withStmt range body =>
    walk.arrange ⟨owner, topLevel, .withStmt range body⟩ (visitsOfSuite owner false body)
  | .typeAlias range typeParams => [⟨owner, topLevel, .typeAlias range typeParams⟩]
  | .importNames range => [⟨owner, topLevel, .importNames range⟩]
  | .assign range targets value => [⟨owner, topLevel, .assign range targets value⟩]
  | .annAssign range target value => [⟨owner, topLevel, .annAssign range target value⟩]
  | .augAssign range target => [⟨owner, topLevel, .augAssign range target⟩]
  | .expr range value => [⟨owner, topLevel, .expr range value⟩]
  | .returnStmt range value => [⟨owner, topLevel, .returnStmt range value⟩]
  | .delete range targets => [⟨owner, topLevel, .delete range targets⟩]
  | .scopeNames range => [⟨owner, topLevel, .scopeNames range⟩]
  | .assertStmt range test => [⟨owner, topLevel, .assertStmt range test⟩]
  | .other range => [⟨owner, topLevel, .other range⟩]

def visitsOfSuite (owner : Owner) (topLevel : Bool) : List Stmt → List Visit
  | [] => []
  | stmt :: rest => visitsOfStmt owner topLevel stmt ++ visitsOfSuite owner topLevel rest

def visitsOfSuites (owner : Owner) : List (List Stmt) → List Visit
  | [] => []
  | suite :: rest => visitsOfSuite owner false suite ++ visitsOfSuites owner rest

def visitsOfClauses (owner : Owner) : List (Option Expr × List Stmt) → List Visit
  | [] => []
  | (_, body) :: rest => visitsOfSuite owner false body ++ visitsOfClauses owner rest

end

end Visits

/-- The visits of a module. -/
def visits (walk : Walk) (suite : List Stmt) : List Visit := visitsOfSuite walk {} true suite

end TypePython.Syntax
