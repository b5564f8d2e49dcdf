import TypePython.Lib.Splices
import TypePython.Syntax.CheckerOnlyTypes
import TypePython.Syntax.Normalization

/-!
# The types of an emitted stub

The last step of the emission of a stub: the checker's own types are rewritten where they stand in
the text, an import of `Any` is put in front when the rewriting brought it in, and what was
`unknown` is marked by a comment.
-/

namespace TypePython.Emit

open TypePython.Lib
open TypePython.Lib.Text
open TypePython.Syntax

/-! ## Trees of stubs -/

/-- The annotations of the parameters, `none` for a parameter without one. -/
structure StubParameters where
  posonlyargs : List (Option TextRange) := []
  args : List (Option TextRange) := []
  vararg : Option (Option TextRange) := none
  kwonlyargs : List (Option TextRange) := []
  kwarg : Option (Option TextRange) := none

structure StubTypeParam where
  bound : Option TextRange := none
  default : Option TextRange := none

inductive StubStmt where
  | functionDef (name : String) (nameStart : Nat) (typeParams : List StubTypeParam)
      (parameters : StubParameters) (returns : Option TextRange) (body : List StubStmt)
  | classDef (typeParams : List StubTypeParam) (args : List TextRange) (body : List StubStmt)
  /-- `target: annotation = value`; the target is `none` when it is no name. -/
  | annAssign (start : Nat) (target : Option String) ( annotation : TextRange)
      (value : Option TextRange)
  | typeAlias (typeParams : List StubTypeParam) (value : TextRange)
  /-- The names an import takes from a module, with what they are renamed to. -/
  | importFrom (module : String) (names : List (String × Option String))
  /-- The statements of the blocks of an `if`, a `try`, a loop or a `with`. -/
  | compound (body : List StubStmt)
  | other

/-- The annotations in the order in which they are collected, which is that of the text. -/
def StubParameters.annotations (parameters : StubParameters) : List TextRange :=
  parameters.posonlyargs.filterMap id ++ parameters.args.filterMap id
    ++ (parameters.vararg.bind id).toList ++ parameters.kwonlyargs.filterMap id
    ++ (parameters.kwarg.bind id).toList

/-! ## Collecting the replacements -/

def normalizeIntrinsicTypeText (text : Chars) : Option Chars :=
  (normalizeCheckerOnlyTypeText (String.ofList text)).map String.toList

section Collect

variable (source : Chars)

/-- The replacement for the type at a range. -/
def replacementAt (range : TextRange) : Option (TextRange × Chars) :=
  (normalizeIntrinsicTypeText (slice source range)).map fun replacement => (range, replacement)

def isTypeAliasAnnotation ( annotation : TextRange) : Bool :=
  trimEnd (slice source annotation) = "TypeAlias".toList

def collectParameterIntrinsicTypeReplacements (parameters : StubParameters) :
    List (TextRange × Chars) :=
  parameters.annotations.filterMap (replacementAt source)

mutual

def intrinsicTypeReplacementsOfStmt : StubStmt → List (TextRange × Chars)
  | .functionDef _ _ _ parameters returns body =>
    collectParameterIntrinsicTypeReplacements source parameters
      ++ returns.toList.filterMap (replacementAt source)
      ++ collectIntrinsicTypeReplacements body
  | .annAssign _ _ annotation value =>
    (replacementAt source annotation).toList
      ++ (if isTypeAliasAnnotation source annotation then
            value.toList.filterMap (replacementAt source)
          else [])
  | .classDef _ args body =>
    args.filterMap (replacementAt source) ++ collectIntrinsicTypeReplacements body
  | .typeAlias _ _ => []
  | .importFrom _ _ => []
  | .compound _ => []
  | .other => []

def collectIntrinsicTypeReplacements : List StubStmt → List (TextRange × Chars)
  | [] => []
  | stmt :: rest => intrinsicTypeReplacementsOfStmt stmt ++ collectIntrinsicTypeReplacements rest

end

/-! ## Marks for what was unknown -/

/-- The loop of `contains_type_token`; `current` is the word read so far, in reverse. -/
def containsTypeTokenFrom (token : Chars) : Chars → Chars → Bool
  | current, [] => current.reverse = token
  | current, c :: rest =>
    if c.isAlphanum || c == '_' then containsTypeTokenFrom token (c :: current) rest
    else current.reverse = token || containsTypeTokenFrom token [] rest

def typeTextContainsUnknown (text : Chars) : Bool :=
  containsTypeTokenFrom "unknown".toList [] text

def offsetToLine (offset : Nat) : Nat := (source.take offset).count '\n' + 1

def unknownComment (line : Nat) (name : String) : Nat × Chars :=
  (line, "# tpy:unknown ".toList ++ name.toList)

mutual

def unknownCommentsOfStmt : StubStmt → List (Nat × Chars)
  | .functionDef name nameStart _ parameters returns _ =>
    if (returns.toList ++ parameters.annotations).any fun range =>
        typeTextContainsUnknown (slice source range) then
      [unknownComment (offsetToLine source nameStart) name]
    else []
  | .annAssign start target annotation value =>
    match target with
    | none => []
    | some name =>
      if ( isTypeAliasAnnotation source annotation && value.toList.any fun range =>
            typeTextContainsUnknown (slice source range))
          || typeTextContainsUnknown (slice source annotation) then
        [unknownComment (offsetToLine source start) name]
      else []
  | .classDef _ _ body => collectUnknownBoundaryComments body
  | .typeAlias _ _ => []
  | .importFrom _ _ => []
  | .compound _ => []
  | .other => []

def collectUnknownBoundaryComments : List StubStmt → List (Nat × Chars)
  | [] => []
  | stmt :: rest => unknownCommentsOfStmt stmt ++ collectUnknownBoundaryComments rest

end

end Collect

/-- Put a comment in front of a line. -/
def insertComment (lineOffset : Nat) (lines : List Chars) (comment : Nat × Chars) : List Chars :=
  let insertAt := comment.1 - 1 + lineOffset
  if insertAt ≤ lines.length then lines.insertIdx insertAt comment.2 else lines

/-- The last comment goes in first. -/
def insertUnknownBoundaryComments (source : Chars) (comments : List (Nat × Chars))
    (lineOffset : Nat) : Chars :=
  if comments = [] then source
  else
    let comments := comments.mergeSort fun left right => decide (right.1 ≤ left.1)
    let lines := comments.foldl (insertComment lineOffset) (sourceLines source)
    joinLines lines ++ (if source.getLast? = some '\n' then ['\n'] else [])

/-! ## The whole step -/

def hasTypingAnyImport (source : Chars) : Bool :=
  (sourceLines source).any fun line =>
    let trimmed := trim line
    trimmed = "from typing import Any".toList
      || ("from typing import ".toList.isPrefixOf trimmed && occursIn "Any".toList trimmed)

/-- One round of the loop over the replacements: the text so far, and whether `Any` came in. -/
def applyReplacement (state : Chars × Bool) (replacement : TextRange × Chars) : Chars × Bool :=
  if slice state.1 replacement.1 = replacement.2 then state
  else (replaceRange state.1 replacement.1 replacement.2,
    state.2 || occursIn "Any".toList replacement.2)

/-- The replacements are made from the end of the text. -/
def applyReplacements (source : Chars) (replacements : List (TextRange × Chars)) : Chars × Bool :=
  (replacements.mergeSort fun left right => decide (right.1.start ≤ left.1.start)).foldl
    applyReplacement (source, false)

/-- The text of a stub whose tree is the given one. -/
def normalizeEmittedStubIntrinsicTypes (source : Chars) (suite : List StubStmt) : Chars :=
  let unknownComments := collectUnknownBoundaryComments source suite
  let (normalized, introducedAny) :=
    applyReplacements source (collectIntrinsicTypeReplacements source suite)
  let withImport :=
    if introducedAny && !hasTypingAnyImport normalized then
      "from typing import Any\n".toList ++ normalized
    else normalized
  insertUnknownBoundaryComments withImport unknownComments (if introducedAny then 1 else 0)

end TypePython.Emit
