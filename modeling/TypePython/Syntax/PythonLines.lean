import TypePython.Syntax.Normalization

/-!
# Lines of Python

Where the lines of a Python text stand: at the start of a statement, inside a string literal,
inside brackets, or after a backslash. Strings may hold replacement fields with code in them.
-/

namespace TypePython.Syntax

open TypePython.Lib.Text

/-- Whether a string may hold replacement fields, and whether a backslash is special in it. -/
inductive StringKind where
  | plain
  | formatted
  | rawFormatted
deriving DecidableEq, Repr

/-- What a position of a text is inside of. -/
inductive Frame where
  | bracket
  | string (quote : Char) (triple : Bool) (kind : StringKind)
  | field
  | fieldSpec
deriving DecidableEq, Repr

/-- Where a position of a text is: inside of frames, in a comment, after a backslash that ends a
line. `word` is the identifier just before it, the other way round. -/
structure LexState where
  frames : List Frame := []
  comment : Bool := false
  continued : Bool := false
  word : Chars := []
deriving DecidableEq, Repr

/-- The kind of the string after a prefix. -/
def kindOfPrefix (word : Chars) : StringKind :=
  if word.all ("rRfFtT".toList.contains ·) && word.any ("fFtT".toList.contains ·) then
    if word.any ("rR".toList.contains ·) then .rawFormatted else .formatted
  else .plain

/-- A character of a name. In code, what is not ASCII belongs to a name. -/
def isNameChar (c : Char) : Bool := c == '_' || c.isAlphanum || 128 ≤ c.toNat

/-- Read a character of code. The text that follows tells whether a quote is tripled. -/
def lexCode (state : LexState) (c : Char) (rest : Chars) : LexState × Nat :=
  let kind := kindOfPrefix state.word
  let open_ frame := ({ state with frames := frame :: state.frames, word := [] }, 1)
  if c = '#' then ({ state with comment := true, word := [] }, 1)
  else if c = '\'' ∨ c = '"' then
    if [c, c].isPrefixOf rest then
      ({ state with frames := .string c true kind :: state.frames, word := [] }, 3)
    else open_ (.string c false kind)
  else if c = '(' ∨ c = '[' ∨ c = '{' then open_ .bracket
  else if c = ')' ∨ c = ']' ∨ c = '}' then
    ({ state with frames := state.frames.tail, word := [] }, 1)
  else if c = ':' ∧ state.frames.head? = some .field then
    ({ state with frames := .fieldSpec :: state.frames.tail, word := [] }, 1)
  else if c = '\\' ∧ rest.head? = some '\n' then ({ state with continued := true, word := [] }, 2)
  else if c = '\\' ∧ ['\r', '\n'].isPrefixOf rest then
    ({ state with continued := true, word := [] }, 3)
  else if isNameChar c then ({ state with word := c :: state.word }, 1)
  else ({ state with word := [] }, 1)

/-- How many characters a backslash in a string takes with it. -/
def escapeLength (kind : StringKind) (rest : Chars) : Nat :=
  if kind = .formatted ∧ ['N', '{'].isPrefixOf rest then 3
  else if kind ≠ .plain ∧ rest.head? = some '{' then 1
  else 2

/-- Read a character of a string. -/
def lexString (state : LexState) (quote : Char) (triple : Bool) (kind : StringKind)
    (outer : List Frame) (c : Char) (rest : Chars) : LexState × Nat :=
  if c = '\\' then (state, escapeLength kind rest)
  else if c = quote ∧ triple = false then ({ state with frames := outer }, 1)
  else if c = quote ∧ [quote, quote].isPrefixOf rest then ({ state with frames := outer }, 3)
  else if c = '{' ∧ kind ≠ .plain then
    if rest.head? = some '{' then (state, 2)
    else ({ state with frames := .field :: state.frames }, 1)
  else (state, 1)

/-- Read a character; the number says how many characters are read with it. -/
def lexChar (state : LexState) (c : Char) (rest : Chars) : LexState × Nat :=
  if state.comment then
    (if c = '\n' then { state with comment := false } else state, 1)
  else
    match state.frames with
    | .string quote triple kind :: outer => lexString state quote triple kind outer c rest
    | .fieldSpec :: outer =>
      -- a field may stand in the format of another one
      if c = '{' then ({ state with frames := .field :: state.frames }, 1)
      else if c = '}' then ({ state with frames := outer }, 1)
      else (state, 1)
    | _ => lexCode state c rest

/-- The states at the starts of the lines of a text. `skip` characters are read already. -/
def lineStatesFrom : LexState → Nat → Chars → List LexState
  | _, _, [] => []
  | state, skip, c :: rest =>
    let (next, skip) :=
      if skip = 0 then
        let read := lexChar { state with continued := false } c rest
        (read.1, read.2 - 1)
      else (state, skip - 1)
    if c = '\n' then next :: lineStatesFrom next skip rest else lineStatesFrom next skip rest

/-- The states at the starts of the lines of a text. -/
def lineStates (text : Chars) : List LexState := {} :: lineStatesFrom {} 0 text

/-- A line that does not start a statement: it starts inside a string or brackets, or continues
the line before. -/
def LexState.isInside (state : LexState) : Bool := !state.frames.isEmpty || state.continued

/-! ## First names -/

def softKeywords : List String := ["typealias", "interface", "data", "sealed", "overload", "unsafe"]

/-- The words that cannot be names. -/
def hardKeywords : List String :=
  ["False", "None", "True", "and", "as", "assert", "async", "await", "break", "class", "continue",
   "def", "del", "elif", "else", "except", "finally", "for", "from", "global", "if", "import", "in",
   "is", "lambda", "nonlocal", "not", "or", "pass", "raise", "return", "try", "while", "with",
   "yield"]

def firstName (line : Chars) : Chars := line.takeWhile isNameChar

/-- What follows the first name, without the blanks between. -/
def afterFirstName (line : Chars) : Chars := trimStart (line.dropWhile isNameChar)

/-- A name stands at the start of the text. -/
def startsWithName (text : Chars) : Bool :=
  match firstName text with
  | [] => false
  | first :: rest => !first.isDigit && !hardKeywords.contains (String.ofList (first :: rest))

/-- The line has the shape of a declaration: a soft keyword, and after it what only a declaration
has there. -/
def hasDeclarationShape (line : Chars) : Bool :=
  let name := String.ofList (firstName line)
  let next := afterFirstName line
  if name = "typealias" ∨ name = "interface" then startsWithName next
  else if name = "data" ∨ name = "sealed" then String.ofList (firstName next) = "class"
  else if name = "overload" then String.ofList (firstName next) = "def"
  else if name = "unsafe" then next.head? = some ':'
  else false

/-- The first name of the line merely starts with the letters of a soft keyword, or is one where
an ordinary name can stand. -/
def startsLikeSoftKeyword (line : Chars) : Bool :=
  softKeywords.any (fun keyword => keyword.toList.isPrefixOf (firstName line))
    && !hasDeclarationShape line

end TypePython.Syntax
