import TypePython.Lib.Words
import TypePython.Syntax.CheckerOnlyTypes
import TypePython.Syntax.VariadicUnpacking

/-!
# The checker's words in type texts

Parsing and printing keep the checker's words of a text in their order, however badly the text is
cut (`checkerWords_normalizeTypeText`), and what the rewriting changes has fewer of them
(`checkerWords_normalizeCheckerOnly`).
-/

namespace TypePython.Syntax

open TypePython.Lib.Text

/-- The characters of identifiers. -/
def isIdentChar (c : Char) : Bool := c.isAlphanum || c == '_'

def checkerOnlyNames : List Chars :=
  ["unknown".toList, "dynamic".toList, "Tainted".toList, "ValidatorWitness".toList]

/-- The words of a text that are the checker's own. -/
def checkerWords (text : Chars) : List Chars :=
  (words isIdentChar text).filter (· ∈ checkerOnlyNames)

/-! ## Cutting and joining -/

theorem isIdentChar_whitespace {c : Char} (h : isWhitespace c = true) : isIdentChar c = false := by
  by_contra hident
  rw [Bool.not_eq_false] at hident
  have hvalue : isWhitespace c = true → c.isAlphanum = true ∨ c = '_' → False := by
    intro hspace hword
    rcases hword with halnum | rfl
    · have hranges : c.isAlphanum = ((decide ('A'.val ≤ c.val ∧ c.val ≤ 'Z'.val)
          || ('a'.val ≤ c.val && c.val ≤ 'z'.val)) || ('0'.val ≤ c.val && c.val ≤ '9'.val)) := rfl
      simp only [hranges, Bool.or_eq_true, Bool.and_eq_true, decide_eq_true_eq] at halnum
      simp only [isWhitespace, Bool.or_eq_true, Bool.and_eq_true, decide_eq_true_eq,
        beq_iff_eq] at hspace
      have htoNat : c.toNat = c.val.toNat := rfl
      simp only [UInt32.le_iff_toNat_le] at halnum
      have hA : ('A' : Char).val.toNat = 65 := rfl
      have hZ : ('Z' : Char).val.toNat = 90 := rfl
      have ha : ('a' : Char).val.toNat = 97 := rfl
      have hz : ('z' : Char).val.toNat = 122 := rfl
      have h0 : ('0' : Char).val.toNat = 48 := rfl
      have h9 : ('9' : Char).val.toNat = 57 := rfl
      omega
    · revert hspace
      decide
  refine hvalue h ?_
  simpa [isIdentChar] using hident

@[simp] theorem checkerWords_nil : checkerWords [] = [] := rfl

theorem checkerWords_append {c : Char} (hc : isIdentChar c = false) (before after : Chars) :
    checkerWords (before ++ c :: after) = checkerWords before ++ checkerWords after := by
  rw [checkerWords, words_append hc, List.filter_append]
  rfl

theorem checkerWords_append_gap {gap : Chars} (hgap : ∀ c ∈ gap, isIdentChar c = false)
    (hne : gap ≠ []) (before after : Chars) :
    checkerWords (before ++ gap ++ after) = checkerWords before ++ checkerWords after := by
  rw [checkerWords, words_append_gap hgap hne, List.filter_append]
  rfl

theorem checkerWords_trim (text : Chars) : checkerWords (trim text) = checkerWords text := by
  rw [checkerWords, words_trim fun c => isIdentChar_whitespace]
  rfl

/-- A prefix that is not the checker's and ends in a dot. -/
theorem checkerWords_stripPrefix {word : Chars} (hword : checkerWords word = []) {text rest : Chars}
    (h : stripPrefix (word ++ ['.']) text = some rest) : checkerWords rest = checkerWords text := by
  have hdot : isIdentChar '.' = false := by decide
  rw [eq_of_stripPrefix h, List.append_assoc, List.singleton_append, checkerWords_append hdot,
    hword, List.nil_append]

theorem checkerWords_normalizeName (text : Chars) :
    checkerWords (normalizeName text) = checkerWords text := by
  unfold normalizeName
  dsimp only
  rw [checkerWords_trim]
  cases htyping : stripPrefix "typing.".toList (trim text) with
  | some rest =>
    have hsame := @checkerWords_stripPrefix "typing".toList (by decide) _ _ htyping
    exact hsame.trans (checkerWords_trim text)
  | none =>
    cases hextensions : stripPrefix "typing_extensions.".toList (trim text) with
    | some rest =>
      have hsame := @checkerWords_stripPrefix "typing_extensions".toList (by decide) _ _
        hextensions
      exact hsame.trans (checkerWords_trim text)
    | none => exact checkerWords_trim text

/-- The heads that are spelled anew are none of the checker's. -/
theorem checkerWords_normalizeTypeHead (head : Chars) :
    checkerWords (normalizeTypeHead head) = checkerWords head := by
  rw [← checkerWords_trim head]
  unfold normalizeTypeHead
  dsimp only
  have hback : ∀ {name : String}, String.ofList (trim head) = name → trim head = name.toList := by
    intro name h
    rw [← h, String.toList_ofList]
  split
  all_goals first
    | (rename_i h; rw [hback h]; decide)
    | rfl

theorem checkerWords_joinChars {delim : Char} (hdelim : isIdentChar delim = false) :
    ∀ parts : List Chars, checkerWords (joinChars delim parts) = parts.flatMap checkerWords
  | [] => rfl
  | [part] => by rw [joinChars, List.flatMap_cons, List.flatMap_nil, List.append_nil]
  | part :: part' :: rest => by
    rw [joinChars, checkerWords_append hdelim, checkerWords_joinChars hdelim (part' :: rest)]
    rfl

theorem checkerWords_splitTopLevel (b : Brackets) {delim : Char}
    (hdelim : isIdentChar delim = false) (text : Chars) :
    ((splitTopLevel b delim 0 text).map trim).flatMap checkerWords = checkerWords text := by
  have hjoin := checkerWords_joinChars hdelim (splitTopLevel b delim 0 text)
  rw [joinChars_splitTopLevel] at hjoin
  rw [hjoin, List.flatMap_map]
  exact List.flatMap_congr fun part _ => checkerWords_trim part

theorem checkerWords_splitTopLevelUnionBranches (text : Chars) :
    (splitTopLevelUnionBranches text).flatMap checkerWords = checkerWords text :=
  checkerWords_splitTopLevel unionBrackets (by decide) text

theorem checkerWords_splitTopLevelTypeArgs (args : Chars) :
    (splitTopLevelTypeArgs args).flatMap checkerWords = checkerWords args := by
  have hcomma : isIdentChar ',' = false := by decide
  rw [← checkerWords_splitTopLevel argBrackets hcomma args]
  unfold splitTopLevelTypeArgs
  generalize (splitTopLevel argBrackets ',' 0 args).map trim = parts
  dsimp only
  split
  · next hlast =>
      -- the part that is dropped is empty
      have hparts := List.dropLast_append_getLast? [] hlast
      conv_rhs => rw [← hparts]
      rw [List.flatMap_append, List.flatMap_cons, List.flatMap_nil, checkerWords_nil,
        List.append_nil, List.append_nil]
  · rfl

theorem checkerWords_subscript (head inner : Chars) :
    checkerWords (head ++ '[' :: (inner ++ [']'])) = checkerWords head ++ checkerWords inner := by
  rw [checkerWords_append (by decide), checkerWords_append (c := ']') (by decide),
    checkerWords_nil, List.append_nil]

theorem checkerWords_join {sep : String} (hsep : sep = ", " ∨ sep = " | ") :
    ∀ texts : List String, checkerWords (join sep texts).toList
      = texts.flatMap fun text => checkerWords text.toList
  | [] => rfl
  | [text] => by rw [join, List.flatMap_cons, List.flatMap_nil, List.append_nil]
  | text :: text' :: rest => by
    have hgap : ∀ c ∈ sep.toList, isIdentChar c = false := by
      intro c hc
      rcases hsep with rfl | rfl
      · simp only [String.reduceToList, List.mem_cons, List.not_mem_nil, or_false] at hc
        rcases hc with rfl | rfl <;> rfl
      · simp only [String.reduceToList, List.mem_cons, List.not_mem_nil, or_false] at hc
        rcases hc with rfl | rfl | rfl <;> rfl
    have hne : sep.toList ≠ [] := by
      rcases hsep with rfl | rfl <;> decide
    rw [join, String.toList_append, String.toList_append, checkerWords_append_gap hgap hne,
      checkerWords_join hsep (text' :: rest)]
    rfl

/-- A head with joined arguments in brackets. -/
theorem checkerWords_arguments (head : String) (texts : List String) :
    checkerWords (head ++ "[" ++ join ", " texts ++ "]").toList
      = checkerWords head.toList ++ texts.flatMap fun text => checkerWords text.toList := by
  have hshape : (head ++ "[" ++ join ", " texts ++ "]").toList
      = head.toList ++ '[' :: ((join ", " texts).toList ++ [']']) := by
    simp
  rw [hshape, checkerWords_subscript, checkerWords_join (.inl rfl)]

/-! ## The words of printed expressions -/

/-- The checker's words of several expressions. -/
def allCheckerWords (exprs : List TypeExpr) : List Chars :=
  exprs.flatMap fun expr => checkerWords expr.render.toList

theorem flatMap_renderAll (exprs : List TypeExpr) :
    (renderAll exprs).flatMap (fun text => checkerWords text.toList) = allCheckerWords exprs := by
  rw [renderAll_eq_map, List.flatMap_map]
  rfl

theorem checkerWords_name (name : String) :
    checkerWords (TypeExpr.name name).render.toList = checkerWords name.toList := by
  rw [TypeExpr.render, String.toList_ofList, checkerWords_normalizeName]

theorem checkerWords_generic (head : String) (args : List TypeExpr) :
    checkerWords (TypeExpr.generic head args).render.toList
      = checkerWords head.toList ++ allCheckerWords args := by
  rw [TypeExpr.render, checkerWords_arguments, String.toList_ofList,
    checkerWords_normalizeTypeHead, flatMap_renderAll]

theorem checkerWords_callable (params : CallableParamExpr) (returnType : TypeExpr) :
    checkerWords (TypeExpr.callable params returnType).render.toList
      = checkerWords params.render.toList ++ checkerWords returnType.render.toList := by
  rw [render_callable, checkerWords_arguments, List.flatMap_cons, List.flatMap_cons,
    List.flatMap_nil, List.append_nil]
  rfl

theorem checkerWords_union (branches : List TypeExpr) (style : UnionStyle) :
    checkerWords (TypeExpr.union branches style).render.toList = allCheckerWords branches := by
  cases style with
  | explicit =>
    rw [render_union_explicit, checkerWords_arguments, flatMap_renderAll]
    rfl
  | shorthand => rw [TypeExpr.render, checkerWords_join (.inr rfl), flatMap_renderAll]

theorem checkerWords_annotated (value : TypeExpr) (metadata : List String) :
    checkerWords (TypeExpr.annotated value metadata).render.toList
      = checkerWords value.render.toList
        ++ metadata.flatMap fun text => checkerWords text.toList := by
  rw [render_annotated, checkerWords_arguments, List.flatMap_cons]
  rfl

theorem checkerWords_unpack (inner : TypeExpr) :
    checkerWords (TypeExpr.unpack inner).render.toList = checkerWords inner.render.toList := by
  have hargs := checkerWords_arguments "Unpack" [inner.render]
  rw [List.flatMap_cons, List.flatMap_nil, List.append_nil] at hargs
  rw [render_unpack]
  exact hargs

theorem checkerWords_paramList (types : List TypeExpr) :
    checkerWords (CallableParamExpr.paramList types).render.toList = allCheckerWords types := by
  rw [render_paramList, checkerWords_arguments, flatMap_renderAll]
  rfl

theorem checkerWords_concatenate (types : List TypeExpr) :
    checkerWords (CallableParamExpr.concatenate types).render.toList = allCheckerWords types := by
  have hargs := checkerWords_arguments "Concatenate" (renderAll types)
  rw [flatMap_renderAll] at hargs
  have hshape : (CallableParamExpr.concatenate types).render
      = "Concatenate" ++ "[" ++ join ", " (renderAll types) ++ "]" := by
    rw [CallableParamExpr.render, ← String.toList_inj]
    simp
  rw [hshape]
  exact hargs

/-! ## Parsing keeps the words -/

theorem checkerWords_normalizeTypeTextLegacyFrom (fuel : Nat) : ∀ text : Chars,
    checkerWords (normalizeTypeTextLegacyFrom fuel text).toList = checkerWords text := by
  induction fuel with
  | zero =>
    intro text
    rw [normalizeTypeTextLegacyFrom, String.toList_ofList, checkerWords_normalizeTypeHead,
      checkerWords_normalizeName]
  | succ fuel ih =>
    intro text
    rw [← checkerWords_normalizeName text, normalizeTypeTextLegacyFrom]
    generalize normalizeName text = name
    split
    · next hempty =>
        rw [hempty]
        rfl
    · split
      · next head args hparts =>
          rw [eq_of_subscriptParts hparts, checkerWords_arguments, String.toList_ofList,
            checkerWords_normalizeTypeHead, checkerWords_subscript, List.flatMap_map]
          simp only [ih]
          rw [checkerWords_splitTopLevelTypeArgs]
      · rw [String.toList_ofList, checkerWords_normalizeTypeHead]

theorem checkerWords_normalizeTypeTextLegacy (text : Chars) :
    checkerWords (normalizeTypeTextLegacy text).toList = checkerWords text :=
  checkerWords_normalizeTypeTextLegacyFrom _ text

/-- Parts that are parsed, or taken as names where parsing fails. -/
theorem allCheckerWords_parts {fuel : Nat}
    (hparse : ∀ text expr, parseTypeExpr fuel text = some expr →
      checkerWords expr.render.toList = checkerWords text) (parts : List Chars) :
    allCheckerWords (parts.map fun part =>
      (parseTypeExpr fuel part).getD (.name (String.ofList (normalizeName part))))
      = parts.flatMap checkerWords := by
  unfold allCheckerWords
  rw [List.flatMap_map]
  apply List.flatMap_congr
  intro part _
  cases h : parseTypeExpr fuel part with
  | some expr => exact hparse part expr h
  | none => rw [Option.getD_none, checkerWords_name, String.toList_ofList, checkerWords_normalizeName]

/-- Whatever a text is parsed to is printed with the checker's words of the text. -/
theorem checkerWords_of_parse (fuel : Nat) :
    (∀ text expr, parseTypeExpr fuel text = some expr →
      checkerWords expr.render.toList = checkerWords text)
    ∧ (∀ text params, parseCallableParamExpr fuel text = some params →
      checkerWords params.render.toList = checkerWords text) := by
  induction fuel with
  | zero =>
    constructor
    · intro text expr h
      simp [parseTypeExpr] at h
    · intro text params h
      simp [parseCallableParamExpr] at h
  | succ fuel ih =>
    obtain ⟨ihType, ihParams⟩ := ih
    constructor
    · intro text expr hparse
      rw [← checkerWords_normalizeName text]
      rw [parseTypeExpr] at hparse
      generalize normalizeName text = name at *
      dsimp only at hparse
      split at hparse
      · cases hparse
      · split at hparse
        · -- a union: the branches between the bars
          cases hparse
          rw [checkerWords_union, allCheckerWords_parts ihType,
            checkerWords_splitTopLevelUnionBranches]
        · split at hparse
          · next inside hinside =>
              have hwords := checkerWords_splitTopLevelTypeArgs inside
              rw [eq_of_subscriptOf hinside, checkerWords_subscript]
              split at hparse
              · cases hparse
              · next value metadata hargs =>
                  obtain ⟨parsed, hvalue, rfl⟩ := Option.map_eq_some_iff.1 hparse
                  rw [hargs, List.flatMap_cons] at hwords
                  rw [checkerWords_annotated, ihType value parsed hvalue, List.flatMap_map,
                    ← hwords]
                  simp only [checkerWords_normalizeTypeTextLegacy]
                  rfl
          · split at hparse
            · next inside hinside =>
                obtain ⟨inner, hinner, rfl⟩ := Option.map_eq_some_iff.1 hparse
                rw [eq_of_subscriptOf hinside, checkerWords_subscript, checkerWords_unpack,
                  ihType inside inner hinner]
                rfl
            · split at hparse
              · next params returnType hargs =>
                  obtain ⟨inside, hinside, hsplit⟩ := Option.map_eq_some_iff.1 hargs
                  have hwords := checkerWords_splitTopLevelTypeArgs inside
                  rw [hsplit, List.flatMap_cons, List.flatMap_cons, List.flatMap_nil,
                    List.append_nil] at hwords
                  obtain ⟨parsedParams, hparams, hrest⟩ := Option.bind_eq_some_iff.1 hparse
                  obtain ⟨parsedReturn, hreturn, rfl⟩ := Option.map_eq_some_iff.1 hrest
                  rw [eq_of_subscriptOf hinside, checkerWords_subscript, checkerWords_callable,
                    ihParams params parsedParams hparams, ihType returnType parsedReturn hreturn,
                    hwords]
                  rfl
              · split at hparse
                · next inside hinside =>
                    cases hparse
                    rw [eq_of_subscriptOf hinside, checkerWords_subscript, checkerWords_union,
                      allCheckerWords_parts ihType, checkerWords_splitTopLevelTypeArgs]
                    rfl
                · split at hparse
                  · next head args hparts =>
                      cases hparse
                      rw [eq_of_subscriptParts hparts, checkerWords_subscript,
                        checkerWords_generic, String.toList_ofList,
                        checkerWords_normalizeTypeHead, allCheckerWords_parts ihType,
                        checkerWords_splitTopLevelTypeArgs]
                  · cases hparse
                    rw [checkerWords_name, String.toList_ofList]
    · intro text params hparse
      rw [← checkerWords_normalizeName text]
      rw [parseCallableParamExpr] at hparse
      generalize normalizeName text = name at *
      dsimp only at hparse
      split at hparse
      · cases hparse
      · split at hparse
        · next hellipsis =>
            cases hparse
            rw [hellipsis]
            rfl
        · split at hparse
          · next inside hinside =>
              -- a parameter list in brackets
              cases hparse
              obtain ⟨rest, hopen, hclose⟩ := Option.bind_eq_some_iff.1 hinside
              have heq : name = [] ++ '[' :: (inside ++ [']']) := by
                rw [eq_of_stripPrefix hopen, eq_of_stripSuffix hclose]
                rfl
              rw [heq, checkerWords_subscript, checkerWords_paramList, checkerWords_nil,
                List.nil_append]
              split
              · next hempty =>
                  rw [← checkerWords_trim inside, hempty]
                  rfl
              · rw [allCheckerWords_parts ihType, checkerWords_splitTopLevelTypeArgs]
          · split at hparse
            · next inside hinside =>
                cases hparse
                rw [eq_of_subscriptOf hinside, checkerWords_subscript, checkerWords_concatenate,
                  allCheckerWords_parts ihType, checkerWords_splitTopLevelTypeArgs]
                rfl
            · obtain ⟨expr, hexpr, rfl⟩ := Option.map_eq_some_iff.1 hparse
              rw [CallableParamExpr.render]
              exact ihType name expr hexpr

/-! ## Variadic unpacking keeps the words -/

/-- The operand of a star ends before a character that ends an identifier. -/
theorem scanOperand_spec (text : Chars) (bracket paren brace : Nat) :
    (scanOperand bracket paren brace text).1 ++ (scanOperand bracket paren brace text).2.2 = text
      ∧ ((scanOperand bracket paren brace text).2.2 = []
        ∨ ∃ c rest, (scanOperand bracket paren brace text).2.2 = c :: rest ∧ c ≠ '*'
          ∧ isIdentChar c = false) := by
  have hparts := scanOperand_parts text bracket paren brace
  refine ⟨hparts.1, ?_⟩
  cases hrest : (scanOperand bracket paren brace text).2.2 with
  | nil => exact .inl rfl
  | cons c rest =>
    have hdelimiter := hparts.2.2 c (by rw [hrest]; rfl)
    refine .inr ⟨c, rest, rfl, ?_⟩
    simp only [List.mem_cons, List.not_mem_nil, or_false] at hdelimiter
    rcases hdelimiter with rfl | rfl | rfl | rfl | rfl <;> decide

/-- The checker's words of a text, after the beginning of a word. -/
def checkerWordsFrom (current text : Chars) : List Chars :=
  (wordsFrom isIdentChar current text).filter (· ∈ checkerOnlyNames)

theorem checkerWordsFrom_cons_of_not {c : Char} (hc : isIdentChar c = false)
    (current rest : Chars) : checkerWordsFrom current (c :: rest)
      = (endWord current).filter (· ∈ checkerOnlyNames) ++ checkerWords rest := by
  rw [checkerWordsFrom, wordsFrom_cons_of_not hc, List.filter_append]
  rfl

theorem normalizeVariadicFrom_cons {c : Char} (hc : c ≠ '*') (fuel : Nat) (before rest : Chars) :
    ∃ after, normalizeVariadicFrom fuel before (c :: rest) = c :: after := by
  cases fuel with
  | zero => exact ⟨rest, rfl⟩
  | succ fuel =>
    rw [normalizeVariadicFrom]
    exact ⟨normalizeVariadicFrom fuel (c :: before) rest, if_pos hc⟩

/-- A star is taken for an unpacking only where no word ends. -/
theorem takeWhile_isIdentChar_of_previous {before : Chars}
    (h : previousSignificantChar before ∈ [none, some '[', some ',', some ':', some '>', some '=']) :
    before.takeWhile isIdentChar = [] := by
  cases before with
  | nil => rfl
  | cons c rest =>
    cases hident : isIdentChar c with
    | false => rw [List.takeWhile_cons_of_neg (by rw [hident]; exact Bool.false_ne_true)]
    | true =>
      exfalso
      have hspace : isWhitespace c = false := by
        by_contra hspace
        rw [Bool.not_eq_false] at hspace
        rw [isIdentChar_whitespace hspace] at hident
        cases hident
      have hprevious : previousSignificantChar (c :: rest) = some c := by
        rw [previousSignificantChar,
          List.dropWhile_cons_of_neg (by rw [hspace]; exact Bool.false_ne_true)]
        rfl
      rw [hprevious] at h
      simp only [List.mem_cons, Option.some.injEq, List.not_mem_nil, or_false, reduceCtorEq,
        false_or] at h
      rcases h with rfl | rfl | rfl | rfl | rfl <;> revert hident <;> decide

theorem checkerWords_normalizeVariadicFrom (fuel : Nat) : ∀ before rest : Chars,
    checkerWordsFrom (before.takeWhile isIdentChar) (normalizeVariadicFrom fuel before rest)
      = checkerWordsFrom (before.takeWhile isIdentChar) rest := by
  induction fuel with
  | zero =>
    intro before rest
    rfl
  | succ fuel ih =>
    intro before rest
    cases rest with
    | nil => rfl
    | cons c rest =>
      have hkeep : checkerWordsFrom (before.takeWhile isIdentChar)
          (c :: normalizeVariadicFrom fuel (c :: before) rest)
          = checkerWordsFrom (before.takeWhile isIdentChar) (c :: rest) := by
        have hrest := ih (c :: before) rest
        cases hident : isIdentChar c with
        | true =>
          rw [List.takeWhile_cons_of_pos hident] at hrest
          simp only [checkerWordsFrom, wordsFrom, hident, if_true] at hrest ⊢
          exact hrest
        | false =>
          rw [List.takeWhile_cons_of_neg (by rw [hident]; exact Bool.false_ne_true)] at hrest
          rw [checkerWordsFrom_cons_of_not hident, checkerWordsFrom_cons_of_not hident]
          exact congrArg _ hrest
      rw [normalizeVariadicFrom]
      dsimp only
      split
      · exact hkeep
      · next hstar =>
          have hc : c = '*' := not_not.1 hstar
          split
          · exact hkeep
          · split
            · exact hkeep
            · next operandText delimiter rest' hbounds =>
                split
                · exact hkeep
                · next hunpacks =>
                    simp only [not_or, not_not] at hunpacks
                    rw [takeWhile_isIdentChar_of_previous hunpacks.2.2.2]
                    -- the operand and what follows are the text behind the star
                    have hstart : operandText ++ rest' = trimStart rest
                        ∧ (rest' = [] ∨ ∃ d after, rest' = d :: after ∧ d ≠ '*'
                          ∧ isIdentChar d = false) := by
                      unfold variadicUnpackOperandBounds at hbounds
                      split at hbounds
                      · cases hbounds
                      · have hspec := scanOperand_spec (trimStart rest) 0 0 0
                        rw [Option.some.inj hbounds] at hspec
                        exact hspec
                    have hwords : checkerWords rest = checkerWords (operandText ++ rest') := by
                      rw [hstart.1, checkerWords,
                        ← words_trimStart fun c => isIdentChar_whitespace]
                      rfl
                    have hbefore : checkerWordsFrom [] (c :: rest) = checkerWords rest := by
                      rw [hc]
                      exact checkerWordsFrom_cons_of_not (by decide) [] rest
                    rw [hbefore, hwords]
                    generalize (c :: rest.take (rest.length - rest'.length)).reverse ++ before
                      = before'
                    have hrest := ih before' rest'
                    have hsame : checkerWords (normalizeVariadicFrom fuel before' rest')
                        = checkerWords rest'
                        ∧ checkerWords (operandText ++ rest')
                          = checkerWords operandText ++ checkerWords rest' := by
                      rcases hstart.2 with rfl | ⟨d, after, rfl, hd, hident⟩
                      · refine ⟨?_, by rw [List.append_nil, checkerWords_nil, List.append_nil]⟩
                        cases fuel <;> rfl
                      · obtain ⟨after', hafter⟩ := normalizeVariadicFrom_cons hd fuel before' after
                        rw [hafter, checkerWordsFrom_cons_of_not hident,
                          checkerWordsFrom_cons_of_not hident] at hrest
                        have hcancel := List.append_cancel_left hrest
                        rw [hafter, checkerWords_append hident, checkerWords, checkerWords,
                          words_cons_of_not hident, words_cons_of_not hident]
                        exact ⟨hcancel, rfl⟩
                    have hunpack : checkerWordsFrom []
                        ("Unpack[".toList ++ trim operandText ++ [']']
                          ++ normalizeVariadicFrom fuel before' rest')
                        = checkerWords ("Unpack".toList ++ '[' :: (trim operandText
                          ++ ']' :: normalizeVariadicFrom fuel before' rest')) := by
                      rw [List.append_assoc, List.append_assoc]
                      rfl
                    rw [hunpack, checkerWords_append (by decide),
                      checkerWords_append (c := ']') (by decide), checkerWords_trim, hsame.1,
                      hsame.2]
                    rfl

theorem checkerWords_normalizeSourceVariadicTypeSyntax (text : Chars) :
    checkerWords (normalizeSourceVariadicTypeSyntax text) = checkerWords text :=
  checkerWords_normalizeVariadicFrom _ [] text

/-! ## Whole texts -/

theorem checkerWords_parse {text : String} {expr : TypeExpr} (h : TypeExpr.parse text = some expr) :
    checkerWords expr.render.toList = checkerWords text.toList := by
  rw [TypeExpr.parse] at h
  rw [(checkerWords_of_parse _).1 _ _ h, checkerWords_normalizeSourceVariadicTypeSyntax]

/-- The canonical text of a type has the checker's words of the text. -/
theorem checkerWords_normalizeTypeText (text : String) :
    checkerWords (normalizeTypeText text).toList = checkerWords text.toList := by
  rw [← checkerWords_normalizeSourceVariadicTypeSyntax text.toList,
    ← checkerWords_trim (normalizeSourceVariadicTypeSyntax text.toList)]
  unfold normalizeTypeText
  dsimp only
  generalize trim (normalizeSourceVariadicTypeSyntax text.toList) = trimmed
  split
  · next hempty =>
      rw [hempty]
      rfl
  · split
    · next expr hexpr => rw [checkerWords_parse hexpr, String.toList_ofList]
    · rw [checkerWords_normalizeTypeTextLegacy]

/-! ## Rewriting removes words -/

theorem allCheckerWords_cons (expr : TypeExpr) (rest : List TypeExpr) :
    allCheckerWords (expr :: rest) = checkerWords expr.render.toList ++ allCheckerWords rest :=
  List.flatMap_cons

mutual

/-- What is rewritten has fewer of the checker's words, and nothing has more. -/
theorem checkerWords_normalizeCheckerOnly : (expr : TypeExpr) →
    (checkerWords expr.normalizeCheckerOnly.render.toList).length
        + (if expr.rewritesCheckerOnly then 1 else 0)
      ≤ (checkerWords expr.render.toList).length
  | .name name => by
    rw [TypeExpr.normalizeCheckerOnly, TypeExpr.rewritesCheckerOnly]
    by_cases hunknown : name = "unknown"
    · rw [hunknown]
      decide
    · by_cases hdynamic : name = "dynamic"
      · rw [hdynamic]
        decide
      · rw [if_neg hunknown, if_neg hdynamic]
        simp [hunknown, hdynamic]
  | .generic head args => by
    have hargs := allCheckerWords_normalizeCheckerOnly args
    rw [TypeExpr.normalizeCheckerOnly, TypeExpr.rewritesCheckerOnly, checkerWords_generic,
      List.length_append]
    by_cases htainted : head = "Tainted"
    · have hhead : (checkerWords head.toList).length = 1 := by
        rw [htainted]
        decide
      rw [if_pos htainted]
      cases args with
      | nil =>
        rw [htainted]
        decide
      | cons wrapped rest =>
        have hwrapped := checkerWords_normalizeCheckerOnly wrapped
        have hone : (if ((head = "ValidatorWitness" : Bool)
            || ((head = "Tainted" : Bool) && ((wrapped :: rest) ≠ [] : Bool))
            || anyRewritesCheckerOnly (wrapped :: rest)) = true then 1 else 0) ≤ 1 := by
          split <;> omega
        rw [allCheckerWords_cons, List.length_append, hhead]
        show (checkerWords wrapped.normalizeCheckerOnly.render.toList).length + _ ≤ _
        omega
    · by_cases hwitness : head = "ValidatorWitness"
      · rw [if_neg htainted, if_pos hwitness, hwitness]
        have hhead : (checkerWords "ValidatorWitness".toList).length = 1 := by decide
        have hbool : (checkerWords (TypeExpr.name "bool").render.toList).length = 0 := by decide
        rw [hhead, hbool]
        split <;> omega
      · rw [if_neg htainted, if_neg hwitness, checkerWords_generic, List.length_append]
        simp only [htainted, hwitness, decide_false, Bool.false_and, Bool.false_or]
        omega
  | .callable params returnType => by
    have hparams := checkerWords_normalizeCheckerOnlyParams params
    have hreturn := checkerWords_normalizeCheckerOnly returnType
    rw [TypeExpr.normalizeCheckerOnly, TypeExpr.rewritesCheckerOnly, checkerWords_callable,
      checkerWords_callable, List.length_append, List.length_append]
    cases hp : params.rewritesCheckerOnly <;> cases hr : returnType.rewritesCheckerOnly
      <;> simp only [hp, hr, Bool.or_true, Bool.or_false, if_true, if_false,
        Bool.false_eq_true] at hparams hreturn ⊢ <;> omega
  | .union branches style => by
    have hbranches := allCheckerWords_normalizeCheckerOnly branches
    rw [TypeExpr.normalizeCheckerOnly, TypeExpr.rewritesCheckerOnly, checkerWords_union,
      checkerWords_union]
    exact hbranches
  | .annotated value metadata => by
    have hvalue := checkerWords_normalizeCheckerOnly value
    rw [TypeExpr.normalizeCheckerOnly, TypeExpr.rewritesCheckerOnly, checkerWords_annotated,
      checkerWords_annotated, List.length_append, List.length_append]
    omega
  | .unpack inner => by
    have hinner := checkerWords_normalizeCheckerOnly inner
    rw [TypeExpr.normalizeCheckerOnly, TypeExpr.rewritesCheckerOnly, checkerWords_unpack,
      checkerWords_unpack]
    exact hinner

theorem checkerWords_normalizeCheckerOnlyParams : (params : CallableParamExpr) →
    (checkerWords params.normalizeCheckerOnly.render.toList).length
        + (if params.rewritesCheckerOnly then 1 else 0)
      ≤ (checkerWords params.render.toList).length
  | .ellipsis => Nat.le_refl _
  | .paramList types => by
    have htypes := allCheckerWords_normalizeCheckerOnly types
    rw [CallableParamExpr.normalizeCheckerOnly, CallableParamExpr.rewritesCheckerOnly,
      checkerWords_paramList, checkerWords_paramList]
    exact htypes
  | .concatenate types => by
    have htypes := allCheckerWords_normalizeCheckerOnly types
    rw [CallableParamExpr.normalizeCheckerOnly, CallableParamExpr.rewritesCheckerOnly,
      checkerWords_concatenate, checkerWords_concatenate]
    exact htypes
  | .single expr => checkerWords_normalizeCheckerOnly expr

theorem allCheckerWords_normalizeCheckerOnly : (exprs : List TypeExpr) →
    (allCheckerWords (normalizeCheckerOnlyAll exprs)).length
        + (if anyRewritesCheckerOnly exprs then 1 else 0)
      ≤ (allCheckerWords exprs).length
  | [] => Nat.le_refl _
  | expr :: rest => by
    have hexpr := checkerWords_normalizeCheckerOnly expr
    have hrest := allCheckerWords_normalizeCheckerOnly rest
    rw [normalizeCheckerOnlyAll, anyRewritesCheckerOnly, allCheckerWords_cons,
      allCheckerWords_cons, List.length_append, List.length_append]
    cases he : expr.rewritesCheckerOnly <;> cases hr : anyRewritesCheckerOnly rest
      <;> simp only [he, hr, Bool.or_true, Bool.or_false, if_true, if_false,
        Bool.false_eq_true] at hexpr hrest ⊢ <;> omega

end

end TypePython.Syntax
