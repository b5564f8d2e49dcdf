import TypePython.Lib.Text

/-!
# Type expressions

The intermediate form of a type annotation, its parser and its renderer.

The parser is a set of text splitters that call each other on ever shorter
pieces of the text; `fuel` bounds the nesting, and `TypeExpr.parse` starts with
more than the length of the text allows.
-/

namespace TypePython.Syntax

open TypePython.Lib.Text

inductive UnionStyle where
  | explicit
  | shorthand
deriving DecidableEq, Repr

mutual

inductive TypeExpr where
  | name (name : String)
  | generic (head : String) (args : List TypeExpr)
  | callable (params : CallableParamExpr) (returnType : TypeExpr)
  | union (branches : List TypeExpr) (style : UnionStyle)
  | annotated (value : TypeExpr) (metadata : List String)
  | unpack (inner : TypeExpr)

inductive CallableParamExpr where
  | ellipsis
  | paramList (types : List TypeExpr)
  | concatenate (types : List TypeExpr)
  | single (expr : TypeExpr)

end

instance : Inhabited TypeExpr := ⟨.name ""⟩

mutual

def TypeExpr.beq : TypeExpr → TypeExpr → Bool
  | .name a, .name b => a == b
  | .generic h as, .generic h' as' => h == h' && beqExprs as as'
  | .callable p r, .callable p' r' => p.beq p' && r.beq r'
  | .union bs style, .union bs' style' => beqExprs bs bs' && style == style'
  | .annotated v m, .annotated v' m' => v.beq v' && m == m'
  | .unpack t, .unpack t' => t.beq t'
  | _, _ => false

def CallableParamExpr.beq : CallableParamExpr → CallableParamExpr → Bool
  | .ellipsis, .ellipsis => true
  | .paramList ts, .paramList ts' => beqExprs ts ts'
  | .concatenate ts, .concatenate ts' => beqExprs ts ts'
  | .single t, .single t' => t.beq t'
  | _, _ => false

def beqExprs : List TypeExpr → List TypeExpr → Bool
  | [], [] => true
  | t :: ts, t' :: ts' => t.beq t' && beqExprs ts ts'
  | _, _ => false

end

instance : BEq TypeExpr := ⟨TypeExpr.beq⟩

/-! ## Names and heads -/

/-- Trim the name and drop one `typing.` or `typing_extensions.` prefix. -/
def normalizeName (text : Chars) : Chars :=
  let trimmed := trim text
  let stripped :=
    match stripPrefix "typing.".toList trimmed with
    | some rest => rest
    | none => (stripPrefix "typing_extensions.".toList trimmed).getD trimmed
  trim stripped

/-- The heads that have a builtin spelling of their own. -/
def normalizeTypeHead (head : Chars) : Chars :=
  let trimmed := trim head
  match String.ofList trimmed with
  | "List" => "list".toList
  | "Dict" => "dict".toList
  | "Tuple" => "tuple".toList
  | "Set" => "set".toList
  | "FrozenSet" => "frozenset".toList
  | "Type" => "type".toList
  | _ => trimmed

/-! ## Splitters -/

/-- The brackets `split_top_level_union_branches` counts. -/
def unionBrackets : Brackets where
  opens c := c == '[' || c == '(' || c == '{'
  closes c := c == ']' || c == ')' || c == '}'

/-- The brackets `split_top_level_type_args` counts. -/
def argBrackets : Brackets where
  opens c := c == '['
  closes c := c == ']'

def splitTopLevelUnionBranches (text : Chars) : List Chars :=
  (splitTopLevel unionBrackets '|' 0 text).map trim

/-- The trimmed parts between top-level commas; an empty last part is dropped. -/
def splitTopLevelTypeArgs (args : Chars) : List Chars :=
  let parts := (splitTopLevel argBrackets ',' 0 args).map trim
  if parts.getLast? = some [] then parts.dropLast else parts

/-- The text inside `head[…]`, for a text that starts with `head[` and ends with `]`. -/
def subscriptOf (head : String) (text : Chars) : Option Chars :=
  (stripPrefix (head.toList ++ ['[']) text).bind (stripSuffix [']'])

/-- The text before the first `[` and the text between it and a final `]`. -/
def subscriptParts (text : Chars) : Option (Chars × Chars) :=
  (splitOnce '[' text).bind fun (head, rest) => (stripSuffix [']'] rest).map fun args => (head, args)

/-! ## Variadic unpacking -/

/-- What `variadic_unpack_operand_bounds` scans: the operand, the delimiter that ends
it and the text from there on. The three depths count square brackets, parentheses and braces. -/
def scanOperand : Nat → Nat → Nat → Chars → Chars × Option Char × Chars
  | _, _, _, [] => ([], none, [])
  | bracket, paren, brace, c :: cs =>
    if bracket = 0 ∧ paren = 0 ∧ brace = 0 ∧ c ∈ [',', ']', ')', ':', '='] then
      ([], some c, c :: cs)
    else
      let bracket' := if c = '[' then bracket + 1 else if c = ']' then bracket - 1 else bracket
      let paren' := if c = '(' then paren + 1 else if c = ')' then paren - 1 else paren
      let brace' := if c = '\x7b' then brace + 1 else if c = '\x7d' then brace - 1 else brace
      let (operand, delimiter, rest) := scanOperand bracket' paren' brace' cs
      (c :: operand, delimiter, rest)

/-- The operand of a `*`, the delimiter that ends it and the rest of the text;
`none` when only whitespace follows. -/
def variadicUnpackOperandBounds (text : Chars) : Option (Chars × Option Char × Chars) :=
  match trimStart text with
  | [] => none
  | start => some (scanOperand 0 0 0 start)

/-- The last significant character of the text read so far (kept in reverse). -/
def previousSignificantChar (before : Chars) : Option Char :=
  (before.dropWhile isWhitespace).head?

/-- Whether the `[` before the `*` subscripts a name or another subscript. -/
def bracketIsTypeContext (before : Chars) : Bool :=
  match before.dropWhile isWhitespace with
  | '[' :: c :: _ => c.isAlphanum || c == '_' || c == ']' || c == '.'
  | _ => false

/-- The loop of `normalize_source_variadic_type_syntax`; `before` is the text read, in reverse. -/
def normalizeVariadicFrom : Nat → Chars → Chars → Chars
  | 0, _, rest => rest
  | _ + 1, _, [] => []
  | fuel + 1, before, c :: rest =>
    let keep := c :: normalizeVariadicFrom fuel (c :: before) rest
    if c ≠ '*' then keep
    else if rest.head? = some '*' then keep
    else
      match variadicUnpackOperandBounds rest with
      | none => keep
      | some (operandText, delimiter, rest') =>
        let previous := previousSignificantChar before
        let operand := trim operandText
        if operand = []
            ∨ (delimiter = some ':' ∧ previous ∈ [none, some '(', some ','])
            ∨ (previous = some '[' ∧ bracketIsTypeContext before = false)
            ∨ previous ∉ [none, some '[', some ',', some ':', some '>', some '='] then keep
        else
          let consumed := c :: rest.take (rest.length - rest'.length)
          "Unpack[".toList ++ operand ++ [']']
            ++ normalizeVariadicFrom fuel (consumed.reverse ++ before) rest'

/-- Rewrites `*Ts` in type position to `Unpack[Ts]`. -/
def normalizeSourceVariadicTypeSyntax (text : Chars) : Chars :=
  normalizeVariadicFrom (text.length + 1) [] text

/-! ## The parser -/

/-- `normalize_type_text_legacy`: heads and names normalised without building an expression. -/
def normalizeTypeTextLegacyFrom : Nat → Chars → String
  | 0, text => String.ofList (normalizeTypeHead (normalizeName text))
  | fuel + 1, text =>
    let text := normalizeName text
    if text = [] then ""
    else
      match subscriptParts text with
      | some (head, args) =>
        String.ofList (normalizeTypeHead head) ++ "["
          ++ join ", " ((splitTopLevelTypeArgs args).map (normalizeTypeTextLegacyFrom fuel))
          ++ "]"
      | none => String.ofList (normalizeTypeHead text)

def normalizeTypeTextLegacy (text : Chars) : String :=
  normalizeTypeTextLegacyFrom (text.length + 1) text

mutual

def parseTypeExpr : Nat → Chars → Option TypeExpr
  | 0, _ => none
  | fuel + 1, text =>
    let text := normalizeName text
    let parseAll := fun parts : List Chars => parts.map fun part =>
      (parseTypeExpr fuel part).getD (.name (String.ofList (normalizeName part)))
    if text = [] then none
    else
      let unionBranches := splitTopLevelUnionBranches text
      if unionBranches.length > 1 then some (.union (parseAll unionBranches) .shorthand)
      else
        match subscriptOf "Annotated" text with
        | some inner =>
          match splitTopLevelTypeArgs inner with
          | [] => none
          | value :: metadata =>
            (parseTypeExpr fuel value).map fun value =>
              .annotated value (metadata.map normalizeTypeTextLegacy)
        | none =>
          match subscriptOf "Unpack" text with
          | some inner => (parseTypeExpr fuel inner).map .unpack
          | none =>
            match (subscriptOf "Callable" text).map splitTopLevelTypeArgs with
            | some [params, returnType] =>
              (parseCallableParamExpr fuel params).bind fun params =>
                (parseTypeExpr fuel returnType).map fun returnType =>
                  .callable params returnType
            | _ =>
              match subscriptOf "Union" text with
              | some inner =>
                some (.union (parseAll (splitTopLevelTypeArgs inner)) .explicit)
              | none =>
                match subscriptParts text with
                | some (head, args) =>
                  some (.generic (String.ofList (normalizeTypeHead head))
                    (parseAll (splitTopLevelTypeArgs args)))
                | none => some (.name (String.ofList text))

def parseCallableParamExpr : Nat → Chars → Option CallableParamExpr
  | 0, _ => none
  | fuel + 1, text =>
    let text := normalizeName text
    let parseAll := fun parts : List Chars => parts.map fun part =>
      (parseTypeExpr fuel part).getD (.name (String.ofList (normalizeName part)))
    if text = [] then none
    else if text = "...".toList then some .ellipsis
    else
      match (stripPrefix ['['] text).bind (stripSuffix [']']) with
      | some inner =>
        some (.paramList
          (if trim inner = [] then [] else parseAll (splitTopLevelTypeArgs inner)))
      | none =>
        match subscriptOf "Concatenate" text with
        | some inner => some (.concatenate (parseAll (splitTopLevelTypeArgs inner)))
        | none => (parseTypeExpr fuel text).map .single

end

/-- A bound on the nesting of a text: every recursive call is on a shorter text, or
turns a parameter text into a type text. -/
def parseFuel (text : Chars) : Nat := 2 * text.length + 2

def TypeExpr.parse (text : String) : Option TypeExpr :=
  let normalized := normalizeSourceVariadicTypeSyntax text.toList
  parseTypeExpr (parseFuel normalized) normalized

/-! ## The renderer -/

mutual

def TypeExpr.render : TypeExpr → String
  | .name name => String.ofList (normalizeName name.toList)
  | .generic head args =>
    String.ofList (normalizeTypeHead head.toList) ++ "[" ++ join ", " (renderAll args) ++ "]"
  | .callable params returnType =>
    "Callable[" ++ params.render ++ ", " ++ returnType.render ++ "]"
  | .union branches .explicit => "Union[" ++ join ", " (renderAll branches) ++ "]"
  | .union branches .shorthand => join " | " (renderAll branches)
  | .annotated value metadata =>
    if metadata = [] then "Annotated[" ++ value.render ++ "]"
    else "Annotated[" ++ value.render ++ ", " ++ join ", " metadata ++ "]"
  | .unpack inner => "Unpack[" ++ inner.render ++ "]"

def CallableParamExpr.render : CallableParamExpr → String
  | .ellipsis => "..."
  | .paramList types => "[" ++ join ", " (renderAll types) ++ "]"
  | .concatenate types => "Concatenate[" ++ join ", " (renderAll types) ++ "]"
  | .single expr => expr.render

def renderAll : List TypeExpr → List String
  | [] => []
  | expr :: rest => expr.render :: renderAll rest

end

/-- The canonical text of a type; texts the parser rejects are normalised piecewise. -/
def normalizeTypeText (text : String) : String :=
  let text := trim (normalizeSourceVariadicTypeSyntax text.toList)
  if text = [] then ""
  else
    match TypeExpr.parse (String.ofList text) with
    | some expr => expr.render
    | none => normalizeTypeTextLegacy text

example : (TypeExpr.parse "tuple[*Ts]").map TypeExpr.render = some "tuple[Unpack[Ts]]" := by decide

end TypePython.Syntax
