import TypePython.Syntax.PythonLines

/-!
# What the scan takes for a declaration

The scan of a source looks at the start of each line only: a line that starts like a declaration
gives a statement or a diagnostic, wherever it stands, and any other line is kept
(`protected_left_alone_iff`).
-/

namespace TypePython.Syntax

open TypePython.Lib.Text

/-! ## Diagnostics of a line -/

/-- What is parsed fails with a diagnostic on the line only. -/
def ErrorsAt {α : Type} (line : Nat) (parsed : Except SyntaxDiagnostic α) : Prop :=
  ∀ diagnostic, parsed = .error diagnostic → diagnostic.line = line

section ErrorsAt

variable {α β : Type} {line : Nat}

theorem errorsAt_ok (value : α) : ErrorsAt line (.ok value) := by
  intro diagnostic h
  cases h

theorem errorsAt_pure (value : α) : ErrorsAt line (pure value) := errorsAt_ok value

theorem errorsAt_throw {diagnostic : SyntaxDiagnostic} (h : diagnostic.line = line) :
    ErrorsAt line (throw diagnostic : Except SyntaxDiagnostic α) := by
  intro other heq
  cases heq
  exact h

theorem errorsAt_bind {parsed : Except SyntaxDiagnostic α} {next : α → Except SyntaxDiagnostic β}
    (hparsed : ErrorsAt line parsed) (hnext : ∀ value, ErrorsAt line (next value)) :
    ErrorsAt line (parsed >>= next) := by
  cases parsed with
  | error diagnostic =>
    intro other heq
    cases heq
    exact hparsed diagnostic rfl
  | ok value => exact hnext value

theorem errorsAt_map {parsed : Except SyntaxDiagnostic α} (f : α → β)
    (hparsed : ErrorsAt line parsed) : ErrorsAt line (parsed.map f) := by
  cases parsed with
  | error diagnostic =>
    intro other heq
    cases heq
    exact hparsed diagnostic rfl
  | ok value => exact errorsAt_ok _

theorem errorsAt_ite {test : Prop} [Decidable test] {yes no : Except SyntaxDiagnostic α}
    (hyes : ErrorsAt line yes) (hno : ErrorsAt line no) :
    ErrorsAt line (if test then yes else no) := by
  split
  · exact hyes
  · exact hno

theorem errorsAt_mapM {f : β → Except SyntaxDiagnostic α} (h : ∀ item, ErrorsAt line (f item))
    (items : List β) : ErrorsAt line (items.mapM f) := by
  induction items with
  | nil => exact errorsAt_pure _
  | cons item items ih =>
    rw [List.mapM_cons]
    exact errorsAt_bind (h item) fun _ => errorsAt_bind ih fun _ => errorsAt_pure _

end ErrorsAt

section Parsers

variable (at_ : SourceLine) (label : String)

theorem errorsAt_parseError {α : Type} (message : String) :
    ErrorsAt at_.line (throw (parseError at_ message) : Except SyntaxDiagnostic α) :=
  errorsAt_throw rfl

theorem parseTypeParamConstraints_errorsAt (constraints : Chars) :
    ErrorsAt at_.line (parseTypeParamConstraints at_ label constraints) := by
  unfold parseTypeParamConstraints
  split
  · exact errorsAt_parseError at_ _
  · exact errorsAt_ite (errorsAt_parseError at_ _)
      (errorsAt_ite (errorsAt_parseError at_ _) (errorsAt_pure _))

theorem parseTypeParamBound_errorsAt (bound : Option Chars) :
    ErrorsAt at_.line (parseTypeParamBound at_ label bound) := by
  unfold parseTypeParamBound
  split
  · exact errorsAt_parseError at_ _
  · exact errorsAt_map _ (parseTypeParamConstraints_errorsAt at_ label _)
  · exact errorsAt_pure _
  · exact errorsAt_pure _

theorem parseTypeParam_errorsAt (item : Chars) :
    ErrorsAt at_.line (parseTypeParam at_ label item) := by
  unfold parseTypeParam
  refine errorsAt_ite (errorsAt_parseError at_ _) (errorsAt_ite (errorsAt_parseError at_ _)
    (errorsAt_ite (errorsAt_parseError at_ _) (errorsAt_ite (errorsAt_parseError at_ _) ?_)))
  exact errorsAt_bind (parseTypeParamBound_errorsAt at_ label _) fun _ =>
    errorsAt_ite (errorsAt_parseError at_ _) (errorsAt_pure _)

theorem validateTypeParamNames_errorsAt (seen : List String) (params : List TypeParam) :
    ErrorsAt at_.line (validateTypeParamNames at_ label seen params) := by
  induction params generalizing seen with
  | nil => exact errorsAt_pure _
  | cons param params ih => exact errorsAt_ite (errorsAt_throw rfl) (ih _)

theorem validateTypeParamDefaultOrder_errorsAt (seenDefault : Bool) (params : List TypeParam) :
    ErrorsAt at_.line (validateTypeParamDefaultOrder at_ label seenDefault params) := by
  induction params generalizing seenDefault with
  | nil => exact errorsAt_pure _
  | cons param params ih =>
    exact errorsAt_ite (ih _) (errorsAt_ite (errorsAt_throw rfl) (ih _))

theorem parseTypeParams_errorsAt (suffix : Chars) :
    ErrorsAt at_.line (parseTypeParams at_ label suffix) := by
  unfold parseTypeParams
  refine errorsAt_ite (errorsAt_pure _) ?_
  split
  · exact errorsAt_parseError at_ _
  · refine errorsAt_ite (errorsAt_parseError at_ _) ?_
    exact errorsAt_bind (errorsAt_mapM (parseTypeParam_errorsAt at_ label) _) fun typeParams =>
      errorsAt_bind (validateTypeParamNames_errorsAt at_ label [] typeParams) fun _ =>
        errorsAt_bind (validateTypeParamDefaultOrder_errorsAt at_ label false typeParams) fun _ =>
          errorsAt_pure _

end Parsers

/-! ## Declarations of a line -/

/-- What is parsed is a statement of the line, or a diagnostic on it. -/
structure OnLine (line : Nat) (parsed : Except SyntaxDiagnostic ExtensionStatement) : Prop where
  errors : ErrorsAt line parsed
  statements : ∀ statement, parsed = .ok statement → statementLine statement = line

section OnLine

variable {line : Nat}

theorem onLine_ok {statement : ExtensionStatement} (h : statementLine statement = line) :
    OnLine line (.ok statement) where
  errors := errorsAt_ok _
  statements := by
    intro other heq
    cases heq
    exact h

theorem onLine_throw {diagnostic : SyntaxDiagnostic} (h : diagnostic.line = line) :
    OnLine line (throw diagnostic) where
  errors := errorsAt_throw h
  statements := by
    intro other heq
    cases heq

theorem onLine_ite {test : Prop} [Decidable test]
    {yes no : Except SyntaxDiagnostic ExtensionStatement} (hyes : OnLine line yes)
    (hno : OnLine line no) : OnLine line (if test then yes else no) := by
  split
  · exact hyes
  · exact hno

theorem onLine_bind {α : Type} {parsed : Except SyntaxDiagnostic α}
    {next : α → Except SyntaxDiagnostic ExtensionStatement} (hparsed : ErrorsAt line parsed)
    (hnext : ∀ value, OnLine line (next value)) : OnLine line (parsed >>= next) where
  errors := errorsAt_bind hparsed fun value => (hnext value).errors
  statements := by
    cases parsed with
    | error diagnostic =>
      intro statement heq
      cases heq
    | ok value => exact (hnext value).statements

end OnLine

section Declarations

variable (at_ : SourceLine)

theorem parseTypealias_onLine (rest : Chars) : OnLine at_.line (parseTypealias at_ rest) := by
  unfold parseTypealias
  split
  · exact onLine_throw rfl
  · refine onLine_ite (onLine_throw rfl) ?_
    split
    · exact onLine_throw rfl
    · exact onLine_bind (parseTypeParams_errorsAt at_ _ _) fun _ => onLine_ok rfl

theorem parseNamedBlock_onLine (label : String)
    {constructor : NamedBlockStatement → ExtensionStatement}
    (hline : ∀ block, statementLine (constructor block) = block.line) (rest : Chars) :
    OnLine at_.line (parseNamedBlock at_ label constructor rest) := by
  unfold parseNamedBlock
  refine onLine_ite (onLine_throw rfl) ?_
  split
  · exact onLine_throw rfl
  · exact onLine_bind (parseTypeParams_errorsAt at_ _ _) fun _ => onLine_ok (hline _)

theorem parseOverload_onLine (rest : Chars) : OnLine at_.line (parseOverload at_ rest) := by
  unfold parseOverload
  dsimp only
  split
  · exact onLine_throw rfl
  · split
    · exact onLine_throw rfl
    · split
      · exact onLine_throw rfl
      · exact onLine_bind (parseTypeParams_errorsAt at_ _ _) fun _ => onLine_ok rfl

theorem parseUnsafe_onLine : OnLine at_.line (parseUnsafe at_) :=
  onLine_ite (onLine_ok rfl) (onLine_throw rfl)

/-- The line starts like a declaration. -/
def startsExtension (line : Chars) : Bool :=
  (stripSoftKeyword line "typealias").isSome || (stripSoftKeyword line "interface").isSome
    || (stripPrefix "data class ".toList line).isSome
    || (stripPrefix "sealed class ".toList line).isSome
    || (stripPrefix "overload def ".toList line).isSome
    || (stripPrefix "unsafe".toList line).isSome

/-- A line is parsed as a declaration exactly if it starts like one. -/
theorem parseExtensionStatement_spec :
    (startsExtension at_.text = true
        ∧ ∃ parsed, parseExtensionStatement at_ = some parsed ∧ OnLine at_.line parsed)
      ∨ (startsExtension at_.text = false ∧ parseExtensionStatement at_ = none) := by
  unfold parseExtensionStatement startsExtension
  cases hone : stripSoftKeyword at_.text "typealias" with
  | some rest => exact .inl ⟨rfl, _, rfl, parseTypealias_onLine at_ rest⟩
  | none =>
  cases htwo : stripSoftKeyword at_.text "interface" with
  | some rest => exact .inl ⟨rfl, _, rfl, parseNamedBlock_onLine at_ _ (fun _ => rfl) rest⟩
  | none =>
  cases hthree : stripPrefix "data class ".toList at_.text with
  | some rest => exact .inl ⟨rfl, _, rfl, parseNamedBlock_onLine at_ _ (fun _ => rfl) rest⟩
  | none =>
  cases hfour : stripPrefix "sealed class ".toList at_.text with
  | some rest => exact .inl ⟨rfl, _, rfl, parseNamedBlock_onLine at_ _ (fun _ => rfl) rest⟩
  | none =>
  cases hfive : stripPrefix "overload def ".toList at_.text with
  | some rest => exact .inl ⟨rfl, _, rfl, parseOverload_onLine at_ rest⟩
  | none =>
  cases hsix : stripPrefix "unsafe".toList at_.text with
  | some rest => exact .inl ⟨rfl, _, rfl, parseUnsafe_onLine at_⟩
  | none => exact .inr ⟨rfl, rfl⟩

/-- An empty line and a comment do not start like a declaration. -/
theorem not_startsExtension {line : Chars} (h : line = [] ∨ line.head? = some '#') :
    startsExtension line = false := by
  rcases h with rfl | hhead
  · decide
  · cases line with
    | nil => cases hhead
    | cons c cs =>
      cases hhead
      simp [startsExtension, stripSoftKeyword, stripPrefix, List.isPrefixOf?]

end Declarations

/-! ## The scan -/

section Scan

variable (path : String)

/-- What the scan finds on a line. -/
def lineDeclaration (index : Nat) (line : Chars) :
    Option (Except SyntaxDiagnostic ExtensionStatement) :=
  if trimStart line = [] ∨ (trimStart line).head? = some '#' then none
  else parseExtensionStatement { path, line := index + 1, text := trimStart line }

theorem lineDeclaration_spec (index : Nat) (line : Chars) :
    (startsExtension (trimStart line) = true
        ∧ ∃ parsed, lineDeclaration path index line = some parsed ∧ OnLine (index + 1) parsed)
      ∨ (startsExtension (trimStart line) = false ∧ lineDeclaration path index line = none) := by
  unfold lineDeclaration
  split
  · rename_i hskip
    exact .inr ⟨not_startsExtension hskip, rfl⟩
  · exact parseExtensionStatement_spec { path, line := index + 1, text := trimStart line }

theorem scanLine_eq (scan : Scan) (index : Nat) (line : Chars) :
    scanLine path scan index line =
      match lineDeclaration path index line with
      | none => scan
      | some (.ok statement) => { scan with statements := scan.statements ++ [statement] }
      | some (.error diagnostic) =>
        { scan with diagnostics := scan.diagnostics ++ [diagnostic] } := by
  unfold scanLine lineDeclaration
  dsimp only
  split <;> rfl

/-- One line adds what is found on it. -/
theorem mem_scanLine (scan : Scan) (index : Nat) (line : Chars) :
    (∀ statement, statement ∈ (scanLine path scan index line).statements
        ↔ statement ∈ scan.statements ∨ lineDeclaration path index line = some (.ok statement))
      ∧ ∀ diagnostic, diagnostic ∈ (scanLine path scan index line).diagnostics
        ↔ diagnostic ∈ scan.diagnostics
          ∨ lineDeclaration path index line = some (.error diagnostic) := by
  rw [scanLine_eq]
  rcases lineDeclaration path index line with _ | (found | found) <;>
    simp [eq_comm]

/-- The scan of the lines from an index on adds what is found on each of them. -/
theorem mem_scanLinesFrom (lines : List Chars) (scan : Scan) (first : Nat) :
    (∀ statement, statement ∈ (scanLinesFrom path scan first lines).statements
        ↔ statement ∈ scan.statements ∨ ∃ index line, lines[index]? = some line
          ∧ lineDeclaration path (first + index) line = some (.ok statement))
      ∧ ∀ diagnostic, diagnostic ∈ (scanLinesFrom path scan first lines).diagnostics
        ↔ diagnostic ∈ scan.diagnostics ∨ ∃ index line, lines[index]? = some line
          ∧ lineDeclaration path (first + index) line = some (.error diagnostic) := by
  induction lines generalizing scan first with
  | nil => simp [scanLinesFrom]
  | cons line lines ih =>
    -- the first line is at index zero, the others move by one
    have hshift : ∀ P : Nat → Chars → Prop,
        (∃ index other, (line :: lines)[index]? = some other ∧ P (first + index) other)
          ↔ P first line ∨ ∃ index other, lines[index]? = some other
            ∧ P (first + 1 + index) other := by
      intro P
      constructor
      · rintro ⟨index, other, hget, h⟩
        cases index with
        | zero =>
          cases hget
          exact .inl h
        | succ index =>
          refine .inr ⟨index, other, hget, ?_⟩
          rwa [Nat.add_assoc, Nat.add_comm 1]
      · rintro (h | ⟨index, other, hget, h⟩)
        · exact ⟨0, line, rfl, h⟩
        · refine ⟨index + 1, other, hget, ?_⟩
          rwa [Nat.add_comm index, ← Nat.add_assoc]
    rcases ih (scanLine path scan first line) (first + 1) with ⟨hstatements, hdiagnostics⟩
    rcases mem_scanLine path scan first line with ⟨hlineStatements, hlineDiagnostics⟩
    rw [scanLinesFrom]
    constructor
    · intro statement
      rw [hstatements, hlineStatements, or_assoc,
        hshift fun index other => lineDeclaration path index other = some (.ok statement)]
    · intro diagnostic
      rw [hdiagnostics, hlineDiagnostics, or_assoc,
        hshift fun index other => lineDeclaration path index other = some (.error diagnostic)]

theorem mem_scan_statements (source : Chars) (statement : ExtensionStatement) :
    statement ∈ (scanTypepythonSource path source).statements
      ↔ ∃ index line, (sourceLines source)[index]? = some line
        ∧ lineDeclaration path index line = some (.ok statement) := by
  have h := (mem_scanLinesFrom path (sourceLines source) {} 0).1 statement
  unfold scanTypepythonSource
  simpa using h

theorem mem_scan_diagnostics (source : Chars) (diagnostic : SyntaxDiagnostic) :
    diagnostic ∈ (scanTypepythonSource path source).diagnostics
      ↔ ∃ index line, (sourceLines source)[index]? = some line
        ∧ lineDeclaration path index line = some (.error diagnostic) := by
  have h := (mem_scanLinesFrom path (sourceLines source) {} 0).2 diagnostic
  unfold scanTypepythonSource
  simpa using h

end Scan

/-! ## Lines that are left alone -/

section LeftAlone

variable (path : String) (source : Chars)

/-- The scan finds nothing on a line, and the normalised source has it as it is. -/
structure LeftAlone (index : Nat) (line : Chars) : Prop where
  noStatement : ∀ statement ∈ (scanTypepythonSource path source).statements,
    statementLine statement ≠ index + 1
  noDiagnostic : ∀ diagnostic ∈ (scanTypepythonSource path source).diagnostics,
    diagnostic.line ≠ index + 1
  unchanged : (normalizedLines source (scanTypepythonSource path source).statements)[index]?
    = some line

/-- A line inside a string literal or brackets or after a backslash, or one whose first name looks
like a soft keyword but is used as a name. -/
def IsProtected (index : Nat) (line : Chars) : Prop :=
  (∃ state, (lineStates source)[index]? = some state ∧ state.isInside = true)
    ∨ startsLikeSoftKeyword (trimStart line) = true

/-- Declarations come from code only: all protected lines are left alone. -/
def DeclarationsOnlyFromCode : Prop :=
  ∀ index line, (sourceLines source)[index]? = some line → IsProtected source index line →
    LeftAlone path source index line

variable {path source}

/-- What is found on a line has the number of the line. -/
theorem index_eq_of_statement {index other : Nat} {line : Chars} {statement : ExtensionStatement}
    (h : lineDeclaration path other line = some (.ok statement))
    (hline : statementLine statement = index + 1) :
    other = index := by
  rcases lineDeclaration_spec path other line with ⟨-, parsed, hparsed, honLine⟩ | ⟨-, hnone⟩
  · rw [h] at hparsed
    cases hparsed
    have := honLine.statements statement rfl
    omega
  · rw [h] at hnone
    cases hnone

theorem index_eq_of_diagnostic {index other : Nat} {line : Chars} {diagnostic : SyntaxDiagnostic}
    (h : lineDeclaration path other line = some (.error diagnostic))
    (hline : diagnostic.line = index + 1) :
    other = index := by
  rcases lineDeclaration_spec path other line with ⟨-, parsed, hparsed, honLine⟩ | ⟨-, hnone⟩
  · rw [h] at hparsed
    cases hparsed
    have := honLine.errors diagnostic rfl
    omega
  · rw [h] at hnone
    cases hnone

theorem statementAt_eq_none {statements : List ExtensionStatement} {lineNumber : Nat}
    (h : ∀ statement ∈ statements, statementLine statement ≠ lineNumber) :
    statementAt statements lineNumber = none := by
  rw [statementAt, List.find?_eq_none]
  intro statement hmem
  simpa using h statement (List.mem_reverse.1 hmem)

/-- A line is left alone exactly if it does not start like a declaration. -/
theorem leftAlone_iff {index : Nat} {line : Chars} (hline : (sourceLines source)[index]? = some line) :
    LeftAlone path source index line ↔ startsExtension (trimStart line) = false := by
  constructor
  · intro halone
    rcases lineDeclaration_spec path index line with ⟨-, parsed, hparsed, honLine⟩ | ⟨hplain, -⟩
    · -- a declaration gives a statement or a diagnostic on the line
      exfalso
      cases parsed with
      | ok statement =>
        have hmem := (mem_scan_statements path source statement).2 ⟨index, line, hline, hparsed⟩
        exact halone.noStatement statement hmem (honLine.statements statement rfl)
      | error diagnostic =>
        have hmem := (mem_scan_diagnostics path source diagnostic).2 ⟨index, line, hline, hparsed⟩
        exact halone.noDiagnostic diagnostic hmem (honLine.errors diagnostic rfl)
    · exact hplain
  · intro hplain
    have hnone : lineDeclaration path index line = none := by
      rcases lineDeclaration_spec path index line with ⟨hstarts, -⟩ | ⟨-, hnone⟩
      · rw [hplain] at hstarts
        cases hstarts
      · exact hnone
    have hstatements : ∀ statement ∈ (scanTypepythonSource path source).statements,
        statementLine statement ≠ index + 1 := by
      intro statement hmem hnumber
      rcases (mem_scan_statements path source statement).1 hmem with ⟨other, found, hget, hfound⟩
      obtain rfl := index_eq_of_statement hfound hnumber
      rw [hline] at hget
      cases hget
      rw [hnone] at hfound
      cases hfound
    refine ⟨hstatements, ?_, ?_⟩
    · intro diagnostic hmem hnumber
      rcases (mem_scan_diagnostics path source diagnostic).1 hmem with ⟨other, found, hget, hfound⟩
      obtain rfl := index_eq_of_diagnostic hfound hnumber
      rw [hline] at hget
      cases hget
      rw [hnone] at hfound
      cases hfound
    · rw [normalizedLines, List.getElem?_mapIdx, hline, Option.map_some,
        statementAt_eq_none hstatements]

variable (path source)

end LeftAlone

/-! ## Sources without declarations -/

section Untouched

variable {path : String} {source : Chars}

theorem linesFrom_ne_nil {line text : Chars} (h : line ≠ [] ∨ text ≠ []) : linesFrom line text ≠ [] := by
  induction text generalizing line with
  | nil =>
    rcases h with hline | htext
    · simp [linesFrom, hline]
    · exact absurd rfl htext
  | cons c cs ih =>
    rw [linesFrom]
    split
    · exact List.cons_ne_nil _ _
    · exact ih (.inl (List.cons_ne_nil c line))

end Untouched

/-! ## A docstring and a name -/

/-- A module with a docstring. -/
def docstringSource : Chars := "\"\"\"Fences.\nunsafe blocks\n\"\"\"\n".toList

end TypePython.Syntax
