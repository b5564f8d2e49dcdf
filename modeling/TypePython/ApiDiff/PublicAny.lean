import Mathlib.Data.Prod.Lex
import Mathlib.Data.String.Basic
import TypePython.Lib.CodeUnits
import TypePython.Lib.SortDedup
import TypePython.Lib.Words

/-!
# Public mentions of `Any`

The migration gate compares the public exports of two versions that mention `Any`. An export is
known by a label: its name, and one of its type texts behind a colon.

* `mem_publicAny`: which labels are entries.
* `gateComplete_iff`: when every new mention has an entry.
-/

namespace TypePython.ApiDiff

open TypePython.Lib
open TypePython.Lib.Text

/-! ## Declarations -/

/-- A name as it stands in a source. -/
structure Identifier where
  text : String
  plain : ':' ∉ text.toList ∧ '.' ∉ text.toList

structure FunctionParam where
  name : String
  annotation : Option String

/-- A field or a method of a class. -/
structure ClassMember where
  name : Identifier
  annotation : Option String
  params : List FunctionParam
  returns : Option String

/-- Interfaces, data classes and sealed classes are looked at as classes are. -/
inductive Statement where
  | typeAlias (name : Identifier) (value : String)
  | classDef (name : Identifier) (bases : List String) (members : List ClassMember)
  | overloadDef (name : Identifier) (params : List FunctionParam) (returns : Option String)
  | functionDef (name : Identifier) (params : List FunctionParam) (returns : Option String)
  | value (names : List Identifier) ( annotation rendered : Option String)
  | other

structure SyntaxTree where
  path : String
  statements : List Statement

def isPublicName (name : String) : Bool := name.toList.head? ≠ some '_'

/-! ## Type texts -/

def isTokenChar (c : Char) : Bool := c.isAlphanum || c = '_'

def isDynamicToken (token : Chars) : Bool :=
  token = "Any".toList || token = "dynamic".toList

def isUnknownToken (token : Chars) : Bool :=
  token = "Unknown".toList || token = "unknown".toList

def countBoundaryTokens (text : String) : Nat × Nat :=
  let tokens := words isTokenChar text.toList
  (tokens.countP isDynamicToken, tokens.countP isUnknownToken)

/-- The text says nothing of the boundary. -/
def isKnownText (text : String) : Bool :=
  (countBoundaryTokens text).1 = 0 && (countBoundaryTokens text).2 = 0

def knownTypeSlot : Option String → Bool × Nat × Nat
  | none => (false, 0, 0)
  | some text =>
    let (dynamicCount, unknownCount) := countBoundaryTokens text
    (text ≠ "" && dynamicCount = 0 && unknownCount = 0, dynamicCount, unknownCount)

def functionSignatureCoverage (params : List FunctionParam) (returns : Option String)
    (allowImplicitReceiver : Bool) : Bool × Nat × Nat :=
  let isImplicitReceiver := fun param : FunctionParam × Nat =>
    allowImplicitReceiver && param.2 = 0 && Option.isNone ( FunctionParam.annotation param.1)
      && (param.1.name = "self" || param.1.name = "cls")
  let slots := ((params.zipIdx.filter fun param => !isImplicitReceiver param).map
    fun param => knownTypeSlot ( FunctionParam.annotation param.1)) ++ [knownTypeSlot returns]
  slots.foldl (fun (known, dynamicCount, unknownCount) slot =>
    (known && slot.1, dynamicCount + slot.2.1, unknownCount + slot.2.2)) (true, 0, 0)

def incompleteExportLabel (name annotation : String) : String :=
  if annotation = "" ∨ isKnownText annotation = true then name
  else name ++ ": " ++ annotation

/-! ## Public exports -/

structure MigrationPublicApiEntry where
  path : String
  publicExports : Nat
  knownPublicExports : Nat
  incompleteExports : List String

/-- An export: whether its types are known, and the label it has when they are not. -/
structure Export where
  known : Bool
  label : String

def callableExport (name : Identifier) (params : List FunctionParam) (returns : Option String) :
    Export where
  known := (functionSignatureCoverage params returns false).1
  label := incompleteExportLabel name.text (returns.getD "")

def Statement.exports : Statement → List Export
  | .typeAlias name text =>
    if isPublicName name.text then
      [⟨text ≠ "" && isKnownText text, incompleteExportLabel name.text text⟩]
    else []
  | .classDef name bases _ =>
    if isPublicName name.text then
      [⟨bases.all isKnownText, incompleteExportLabel name.text (join ", " bases)⟩]
    else []
  | .overloadDef name params returns | .functionDef name params returns =>
    if isPublicName name.text then [callableExport name params returns] else []
  | .value names annotation rendered =>
    (names.filter fun name => isPublicName name.text).map fun name =>
      ⟨(knownTypeSlot ( annotation.or rendered)).1,
        incompleteExportLabel name.text ( annotation.getD "")⟩
  | .other => []

def migrationPublicApiEntry (tree : SyntaxTree) : MigrationPublicApiEntry :=
  let exports := tree.statements.flatMap Statement.exports
  { path := tree.path
    publicExports := exports.length
    knownPublicExports := exports.countP Export.known
    incompleteExports := sortBy id ((exports.filter fun entry => !entry.known).map Export.label) }

def publicApiFiles (trees : List SyntaxTree) : List MigrationPublicApiEntry :=
  sortBy MigrationPublicApiEntry.path
    ((trees.map migrationPublicApiEntry).filter fun entry => 0 < entry.publicExports)

/-! ## Entries of the gate -/

structure MigrationPublicTypeDebtEntry where
  path : String
  symbol : String
  kind : String
deriving DecidableEq

inductive DebtToken where
  | any
  | unknown

def DebtToken.isToken : DebtToken → Chars → Bool
  | .any => isDynamicToken
  | .unknown => isUnknownToken

/-- What stands between the first two colons is taken for the annotation. -/
def symbolContainsTypeDebtToken (symbol : String) (token : DebtToken) : Bool :=
  ((symbol.toList.splitOn ':')[1]?).any fun typeText =>
    (words isTokenChar typeText).any token.isToken

def migrationPublicTypeDebtEntries (files : List MigrationPublicApiEntry) (token : DebtToken) :
    List MigrationPublicTypeDebtEntry :=
  files.flatMap fun entry =>
    (entry.incompleteExports.filter fun symbol => symbolContainsTypeDebtToken symbol token).map
      fun symbol => { path := entry.path, symbol, kind := "public-export" }

def MigrationPublicTypeDebtEntry.key (entry : MigrationPublicTypeDebtEntry) :
    String ×ₗ String ×ₗ String :=
  toLex (entry.path, toLex (entry.symbol, entry.kind))

/-- The public-`Any` part of a budget baseline. -/
def publicAny (trees : List SyntaxTree) : List MigrationPublicTypeDebtEntry :=
  dedupBy MigrationPublicTypeDebtEntry.key (sortBy MigrationPublicTypeDebtEntry.key
    (migrationPublicTypeDebtEntries (publicApiFiles trees) .any))

/-- `new_public_any` of the comparison of two baselines. -/
def newPublicAny (baseline current : List MigrationPublicTypeDebtEntry) :
    List MigrationPublicTypeDebtEntry :=
  (dedupBy MigrationPublicTypeDebtEntry.key
    (sortBy MigrationPublicTypeDebtEntry.key current)).filter fun entry => entry ∉ baseline

/-! ## Declared types -/

def MentionsAny (text : String) : Prop := (words isTokenChar text.toList).any isDynamicToken = true

/-- A declaration, of the module or of one of its classes, with the texts of its types. -/
structure Declaration where
  owner : Option Identifier
  name : Identifier
  types : List String

def Declaration.fullName (declaration : Declaration) : String :=
  match declaration.owner with
  | none => declaration.name.text
  | some owner => owner.text ++ "." ++ declaration.name.text

def Declaration.isPublic (declaration : Declaration) : Bool :=
  isPublicName declaration.name.text
    && declaration.owner.all fun owner => isPublicName owner.text

def signatureTypes (params : List FunctionParam) (returns : Option String) : List String :=
  params.filterMap FunctionParam.annotation ++ returns.toList

def memberDeclaration (owner : Identifier) (member : ClassMember) : Declaration where
  owner := some owner
  name := member.name
  types := member.annotation.toList ++ signatureTypes member.params member.returns

def Statement.declarations : Statement → List Declaration
  | .typeAlias name text => [⟨none, name, [text]⟩]
  | .classDef name bases members => ⟨none, name, bases⟩ :: members.map (memberDeclaration name)
  | .overloadDef name params returns | .functionDef name params returns =>
    [⟨none, name, signatureTypes params returns⟩]
  | .value names annotation _ => names.map fun name => ⟨none, name, annotation.toList⟩
  | .other => []

/-- The public declarations of a name in the file at a path. -/
def declarationsOf (trees : List SyntaxTree) (path fullName : String) : Set Declaration :=
  {declaration | declaration.isPublic = true ∧ declaration.fullName = fullName
    ∧ ∃ tree ∈ trees, tree.path = path
      ∧ ∃ statement ∈ tree.statements, declaration ∈ statement.declarations}

def Declares (trees : List SyntaxTree) (path fullName : String) : Prop :=
  ∃ declaration ∈ declarationsOf trees path fullName, ∃ text ∈ declaration.types, MentionsAny text

/-- A name that mentions `Any` in the new version, and does not in the old one. -/
def NewlyAny (old new : List SyntaxTree) (path fullName : String) : Prop :=
  Declares new path fullName ∧ ¬ Declares old path fullName

/-- The name of a label stands before its colon. -/
def labelName (symbol : String) : Chars := symbol.toList.takeWhile (· ≠ ':')

def Reported (old new : List SyntaxTree) (path fullName : String) : Prop :=
  ∃ entry ∈ newPublicAny (publicAny old) (publicAny new),
    entry.path = path ∧ labelName entry.symbol = fullName.toList

/-- Every new mention has an entry. -/
def GateComplete (old new : List SyntaxTree) : Prop :=
  ∀ path fullName, NewlyAny old new path fullName → Reported old new path fullName

/-- The names of a statement, with the text that is written behind each in its label. -/
def Statement.labelled : Statement → List (Identifier × String)
  | .typeAlias name text => [(name, text)]
  | .classDef name bases _ => [(name, join ", " bases)]
  | .overloadDef name _ returns | .functionDef name _ returns => [(name, returns.getD "")]
  | .value names annotation _ => names.map fun name => (name, annotation.getD "")
  | .other => []

/-- The beginning of the labelled text, up to a colon, mentions `Any`. -/
def ShownBeforeColon (trees : List SyntaxTree) (path fullName : String) : Prop :=
  ∃ tree ∈ trees, tree.path = path ∧ ∃ statement ∈ tree.statements,
    ∃ labelled ∈ statement.labelled, labelled.1.text = fullName ∧
      (words isTokenChar (labelled.2.toList.takeWhile (· ≠ ':'))).any isDynamicToken = true

/-! ## Labels -/

theorem isTokenChar_colon : isTokenChar ':' = false := rfl

theorem isKnownText_eq_false {text : String} (h : MentionsAny text) : isKnownText text = false := by
  unfold MentionsAny at h
  unfold isKnownText countBoundaryTokens
  rw [List.any_eq_true] at h
  have hcount := List.countP_pos_iff.2 h
  rw [Bool.and_eq_false_iff, decide_eq_false_iff_not]
  exact .inl hcount.ne'

/-- The words before a colon are words of the text. -/
theorem any_words_of_takeWhile {p : Chars → Bool} {text : Chars}
    (h : (words isTokenChar (text.takeWhile (· ≠ ':'))).any p = true) :
    (words isTokenChar text).any p = true := by
  have hparts : text.takeWhile (· ≠ ':') ++ text.dropWhile (· ≠ ':') = text :=
    List.takeWhile_append_dropWhile
  cases hrest : text.dropWhile (· ≠ ':') with
  | nil =>
    rw [hrest, List.append_nil] at hparts
    rwa [hparts] at h
  | cons c rest =>
    have hc : c = ':' := by
      have hhead := List.head?_dropWhile_not (· ≠ ':') text
      rw [hrest] at hhead
      simpa using hhead
    rw [hrest, hc] at hparts
    rw [← hparts, words_append isTokenChar_colon, List.any_append, h, Bool.true_or]

theorem splitOn_colon (before after : Chars) (h : ':' ∉ before) :
    (before ++ ':' :: after).splitOn ':' = before :: after.splitOn ':' := by
  unfold List.splitOn
  induction before with
  | nil => rw [List.nil_append, List.splitOnP_cons_eq_if_modifyHead, if_pos (beq_self_eq_true _)]
  | cons c rest ih =>
    rw [List.mem_cons, not_or] at h
    rw [List.cons_append, List.splitOnP_cons_eq_if_modifyHead, ih h.2,
      if_neg (by simpa using Ne.symm h.1)]
    rfl

theorem head?_splitOn_colon (text : Chars) :
    (text.splitOn ':')[0]? = some (text.takeWhile (· ≠ ':')) := by
  unfold List.splitOn
  induction text with
  | nil => rfl
  | cons c rest ih =>
    rw [List.splitOnP_cons_eq_if_modifyHead]
    by_cases hc : c = ':'
    · rw [if_pos (by simpa using hc), List.takeWhile_cons_of_neg (by simpa using hc)]
      rfl
    · rw [if_neg (by simpa using hc), List.takeWhile_cons_of_pos (by simpa using hc)]
      rcases hparts : rest.splitOnP (· == ':') with _ | ⟨part, parts⟩
      · exact absurd hparts (List.splitOnP_ne_nil _ _)
      · rw [hparts] at ih
        cases ih
        rfl

/-- A label is an entry when the text behind its name mentions `Any` before a colon. -/
theorem symbolContains_label (name : Identifier) (text : String) :
    symbolContainsTypeDebtToken (incompleteExportLabel name.text text) .any
      = (words isTokenChar (text.toList.takeWhile (· ≠ ':'))).any isDynamicToken := by
  unfold incompleteExportLabel symbolContainsTypeDebtToken
  split
  · -- nothing is written behind the name
    rename_i hbare
    have hnone : (name.text.toList.splitOn ':')[1]? = none := by
      unfold List.splitOn
      rw [List.splitOnP_eq_singleton]
      · rfl
      · intro c hc
        rw [beq_eq_false_iff_ne]
        rintro rfl
        exact name.plain.1 hc
    rw [hnone, Option.any_none]
    symm
    rw [Bool.eq_false_iff]
    intro hany
    have hmentions : MentionsAny text := any_words_of_takeWhile hany
    rcases hbare with rfl | hknown
    · cases hmentions
    · rw [isKnownText_eq_false hmentions] at hknown
      cases hknown
  · have hlabel : (name.text ++ ": " ++ text).toList
        = name.text.toList ++ ':' :: (' ' :: text.toList) := by
      rw [String.toList_append, String.toList_append, List.append_assoc]
      rfl
    rw [hlabel, splitOn_colon _ _ name.plain.1, List.getElem?_cons_succ, head?_splitOn_colon,
      Option.any_some, List.takeWhile_cons_of_pos (by decide), words_cons_of_not rfl]
    rfl

theorem labelName_label (name : Identifier) (text : String) :
    labelName (incompleteExportLabel name.text text) = name.text.toList := by
  unfold incompleteExportLabel labelName
  split
  · exact takeWhile_eq_self_of_notMem name.plain.1
  · rw [String.toList_append, String.toList_append, List.append_assoc]
    show (name.text.toList ++ ':' :: (' ' :: text.toList)).takeWhile _ = _
    rw [takeWhile_append_cons (by decide)]
    exact takeWhile_eq_self_of_notMem name.plain.1

/-! ## Entries -/

theorem mem_dedupBy_sortBy_key (entries : List MigrationPublicTypeDebtEntry)
    (entry : MigrationPublicTypeDebtEntry) :
    entry ∈ dedupBy MigrationPublicTypeDebtEntry.key (sortBy MigrationPublicTypeDebtEntry.key entries)
      ↔ entry ∈ entries := by
  have hinj : ∀ a b : MigrationPublicTypeDebtEntry, a.key = b.key → a = b := by
    rintro ⟨path, symbol, kind⟩ ⟨path', symbol', kind'⟩ h
    cases h
    rfl
  have hkeys := exists_mem_dedupBy_sortBy MigrationPublicTypeDebtEntry.key entries entry.key
  constructor
  · intro h
    rcases hkeys.1 ⟨entry, h, rfl⟩ with ⟨found, hfound, hkey⟩
    rwa [← hinj found entry hkey]
  · intro h
    rcases hkeys.2 ⟨entry, h, rfl⟩ with ⟨found, hfound, hkey⟩
    rwa [← hinj found entry hkey]

theorem mem_publicAny (trees : List SyntaxTree) (entry : MigrationPublicTypeDebtEntry) :
    entry ∈ publicAny trees
      ↔ entry.kind = "public-export" ∧ ∃ tree ∈ trees, tree.path = entry.path
        ∧ ∃ statement ∈ tree.statements, ∃ made ∈ statement.exports, made.known = false
          ∧ made.label = entry.symbol ∧ symbolContainsTypeDebtToken entry.symbol .any = true := by
  rw [publicAny, mem_dedupBy_sortBy_key, migrationPublicTypeDebtEntries, List.mem_flatMap]
  constructor
  · rintro ⟨file, hfile, hentry⟩
    rcases List.mem_map.1 hentry with ⟨symbol, hsymbol, rfl⟩
    rcases List.mem_filter.1 hsymbol with ⟨hlabel, hcontains⟩
    rcases List.mem_filter.1 ((perm_sortBy _ _).mem_iff.1 hfile) with ⟨hmade, -⟩
    rcases List.mem_map.1 hmade with ⟨tree, htree, rfl⟩
    rcases List.mem_map.1 ((perm_sortBy _ _).mem_iff.1 hlabel) with ⟨made, hin, rfl⟩
    rcases List.mem_filter.1 hin with ⟨hexport, hknown⟩
    rcases List.mem_flatMap.1 hexport with ⟨statement, hstatement, hmade'⟩
    rw [Bool.not_eq_true'] at hknown
    exact ⟨rfl, tree, htree, rfl, statement, hstatement, made, hmade', hknown, rfl, hcontains⟩
  · obtain ⟨path, symbol, kind⟩ := entry
    rintro ⟨rfl, tree, htree, rfl, statement, hstatement, made, hmade, hknown, rfl, hcontains⟩
    have hexport : made ∈ tree.statements.flatMap Statement.exports :=
      List.mem_flatMap.2 ⟨statement, hstatement, hmade⟩
    refine ⟨migrationPublicApiEntry tree, ?_, ?_⟩
    · refine (perm_sortBy _ _).mem_iff.2 (List.mem_filter.2 ⟨List.mem_map_of_mem htree, ?_⟩)
      exact decide_eq_true (List.length_pos_of_mem hexport)
    · refine List.mem_map.2 ⟨made.label, List.mem_filter.2 ⟨?_, hcontains⟩, rfl⟩
      refine (perm_sortBy _ _).mem_iff.2 (List.mem_map_of_mem (List.mem_filter.2 ⟨hexport, ?_⟩))
      rw [hknown]
      rfl

/-! ## Labels of statements -/

theorem mentionsAny_join {texts : List String} :
    MentionsAny (join ", " texts) ↔ ∃ text ∈ texts, MentionsAny text := by
  unfold MentionsAny
  induction texts with
  | nil => exact iff_of_false nofun fun ⟨text, h, _⟩ => nomatch h
  | cons text rest ih =>
    rw [List.exists_mem_cons_iff, ← ih]
    cases rest with
    | nil =>
      rw [join]
      exact (or_iff_left nofun).symm
    | cons next others =>
      have htext : (text ++ ", " ++ join ", " (next :: others)).toList
          = text.toList ++ ',' :: (' ' :: (join ", " (next :: others)).toList) := by
        rw [String.toList_append, String.toList_append, List.append_assoc]
        rfl
      rw [join, htext, words_append rfl, words_cons_of_not rfl, List.any_append, Bool.or_eq_true]

theorem knownTypeSlot_of_mentionsAny {text : String} (h : MentionsAny text) :
    (knownTypeSlot (some text)).1 = false := by
  have hunknown := isKnownText_eq_false h
  rw [isKnownText] at hunknown
  show (text ≠ "" && (countBoundaryTokens text).1 = 0 && (countBoundaryTokens text).2 = 0) = false
  rw [Bool.and_assoc, hunknown, Bool.and_false]

theorem functionSignatureCoverage_of_returns {text : String} (h : MentionsAny text)
    (params : List FunctionParam) (allowImplicitReceiver : Bool) :
    (functionSignatureCoverage params (some text) allowImplicitReceiver).1 = false := by
  unfold functionSignatureCoverage
  rw [List.foldl_append, List.foldl_cons, List.foldl_nil, knownTypeSlot_of_mentionsAny h]
  exact Bool.and_false _

theorem mentionsAny_of_shown {text : String}
    (h : (words isTokenChar (text.toList.takeWhile (· ≠ ':'))).any isDynamicToken = true) :
    MentionsAny text :=
  any_words_of_takeWhile h

theorem not_mentionsAny_empty : ¬ MentionsAny "" := nofun

/-- A text that is shown makes an export incomplete. -/
theorem exists_export {statement : Statement} {labelled : Identifier × String}
    (hlabelled : labelled ∈ statement.labelled) (hname : isPublicName labelled.1.text = true)
    (htext : MentionsAny labelled.2) :
    ∃ made ∈ statement.exports, made.known = false
      ∧ made.label = incompleteExportLabel labelled.1.text labelled.2 := by
  have hcallable : ∀ (name : Identifier) (params : List FunctionParam) (returns : Option String),
      labelled = (name, returns.getD "") → (callableExport name params returns).known = false := by
    rintro name params returns rfl
    cases returns with
    | none => exact absurd htext not_mentionsAny_empty
    | some text => exact functionSignatureCoverage_of_returns htext params false
  cases statement with
  | typeAlias name text =>
    cases List.mem_singleton.1 hlabelled
    refine ⟨_, by rw [Statement.exports, if_pos hname]; exact List.mem_singleton_self _, ?_, rfl⟩
    rw [isKnownText_eq_false htext, Bool.and_false]
  | classDef name bases members =>
    cases List.mem_singleton.1 hlabelled
    refine ⟨_, by rw [Statement.exports, if_pos hname]; exact List.mem_singleton_self _, ?_, rfl⟩
    rcases mentionsAny_join.1 htext with ⟨base, hbase, hmentions⟩
    rw [List.all_eq_false]
    exact ⟨base, hbase, by rw [isKnownText_eq_false hmentions]; exact Bool.false_ne_true⟩
  | overloadDef name params returns | functionDef name params returns =>
    have hsame := List.mem_singleton.1 hlabelled
    refine ⟨callableExport name params returns, ?_, hcallable name params returns hsame, ?_⟩
    · rw [hsame] at hname
      rw [Statement.exports, if_pos hname]
      exact List.mem_singleton_self _
    · rw [hsame]
      rfl
  | value names annotation rendered =>
    rcases List.mem_map.1 hlabelled with ⟨name, hin, rfl⟩
    refine ⟨_, List.mem_map_of_mem (List.mem_filter.2 ⟨hin, hname⟩), ?_, rfl⟩
    cases annotation with
    | none => exact absurd htext not_mentionsAny_empty
    | some text => exact knownTypeSlot_of_mentionsAny htext
  | other => cases hlabelled

theorem exists_labelled {statement : Statement} {made : Export} (h : made ∈ statement.exports) :
    ∃ labelled ∈ statement.labelled, isPublicName labelled.1.text = true
      ∧ made.label = incompleteExportLabel labelled.1.text labelled.2 := by
  cases statement with
  | typeAlias name text | classDef name bases members =>
    rw [Statement.exports] at h
    split_ifs at h with hname
    · cases List.mem_singleton.1 h
      exact ⟨_, List.mem_singleton_self _, hname, rfl⟩
    · cases h
  | overloadDef name params returns | functionDef name params returns =>
    rw [Statement.exports] at h
    split_ifs at h with hname
    · cases List.mem_singleton.1 h
      exact ⟨_, List.mem_singleton_self _, hname, rfl⟩
    · cases h
  | value names annotation rendered =>
    rcases List.mem_map.1 h with ⟨name, hin, rfl⟩
    rcases List.mem_filter.1 hin with ⟨hmem, hname⟩
    exact ⟨_, List.mem_map_of_mem hmem, hname, rfl⟩
  | other => cases h

/-- What is labelled is declared with the types that the text is made of. -/
theorem exists_declaration {statement : Statement} {labelled : Identifier × String}
    (hlabelled : labelled ∈ statement.labelled) (htext : MentionsAny labelled.2) :
    ∃ declaration ∈ statement.declarations, declaration.owner = none
      ∧ declaration.name = labelled.1 ∧ ∃ text ∈ declaration.types, MentionsAny text := by
  have hcallable : ∀ (name : Identifier) (params : List FunctionParam) (returns : Option String),
      labelled = (name, returns.getD "") →
      ∃ text ∈ signatureTypes params returns, MentionsAny text := by
    rintro name params returns rfl
    cases returns with
    | none => exact absurd htext not_mentionsAny_empty
    | some text => exact ⟨text, List.mem_append_right _ (List.mem_singleton_self _), htext⟩
  cases statement with
  | typeAlias name text =>
    cases List.mem_singleton.1 hlabelled
    exact ⟨_, List.mem_singleton_self _, rfl, rfl, text, List.mem_singleton_self _, htext⟩
  | classDef name bases members =>
    cases List.mem_singleton.1 hlabelled
    exact ⟨_, List.mem_cons_self, rfl, rfl, mentionsAny_join.1 htext⟩
  | overloadDef name params returns | functionDef name params returns =>
    have hsame := List.mem_singleton.1 hlabelled
    exact ⟨_, List.mem_singleton_self _, rfl, by rw [hsame], hcallable name params returns hsame⟩
  | value names annotation rendered =>
    rcases List.mem_map.1 hlabelled with ⟨name, hin, rfl⟩
    refine ⟨_, List.mem_map_of_mem hin, rfl, rfl, ?_⟩
    cases annotation with
    | none => exact absurd htext not_mentionsAny_empty
    | some text => exact ⟨text, List.mem_singleton_self _, htext⟩
  | other => cases hlabelled

/-! ## The gate -/

/-- A name without a dot is that of a declaration of the module. -/
theorem isPublicName_of_declares {trees : List SyntaxTree} {path : String} {name : Identifier}
    (h : Declares trees path name.text) : isPublicName name.text = true := by
  rcases h with ⟨declaration, ⟨hpublic, hname, -⟩, -⟩
  unfold Declaration.fullName at hname
  rw [Declaration.isPublic, Bool.and_eq_true] at hpublic
  cases howner : declaration.owner with
  | none =>
    rw [howner] at hname
    rw [← hname]
    exact hpublic.1
  | some owner =>
    rw [howner] at hname
    refine absurd ?_ name.plain.2
    rw [← hname, String.toList_append, String.toList_append]
    exact List.mem_append_left _ (List.mem_append_right _ (List.mem_singleton_self _))

/-- A new mention has an entry exactly if it is shown before a colon. -/
theorem reported_iff {old new : List SyntaxTree} {path fullName : String}
    (h : NewlyAny old new path fullName) :
    Reported old new path fullName ↔ ShownBeforeColon new path fullName := by
  constructor
  · rintro ⟨entry, hentry, rfl, hname⟩
    rw [newPublicAny, List.mem_filter, mem_dedupBy_sortBy_key, mem_publicAny] at hentry
    rcases hentry.1 with
      ⟨-, tree, htree, hpath, statement, hstatement, made, hmade, -, hlabel, hcontains⟩
    rcases exists_labelled hmade with ⟨labelled, hlabelled, -, hsymbol⟩
    rw [← hlabel, hsymbol] at hname hcontains
    rw [labelName_label] at hname
    rw [symbolContains_label] at hcontains
    exact ⟨tree, htree, hpath, statement, hstatement, labelled, hlabelled,
      String.toList_injective hname, hcontains⟩
  · rintro ⟨tree, htree, hpath, statement, hstatement, labelled, hlabelled, rfl, hshown⟩
    have hpublic := isPublicName_of_declares h.1
    rcases exists_export hlabelled hpublic (mentionsAny_of_shown hshown) with
      ⟨made, hmade, hknown, hlabel⟩
    have hcontains : symbolContainsTypeDebtToken made.label .any = true := by
      rw [hlabel, symbolContains_label]
      exact hshown
    refine ⟨⟨path, made.label, "public-export"⟩, ?_, rfl, by rw [hlabel]; exact labelName_label _ _⟩
    rw [newPublicAny, List.mem_filter, mem_dedupBy_sortBy_key]
    refine ⟨(mem_publicAny new _).2
      ⟨rfl, tree, htree, hpath, statement, hstatement, made, hmade, hknown, rfl, hcontains⟩,
      decide_eq_true fun hold => h.2 ?_⟩
    -- an entry of the old version would come from a declaration that mentions `Any`
    rcases (mem_publicAny old _).1 hold with
      ⟨-, tree', htree', hpath', statement', hstatement', made', hmade', -, hlabel', hcontains'⟩
    rcases exists_labelled hmade' with ⟨labelled', hlabelled', hpublic', hsymbol'⟩
    have hsame : labelled'.1.text = labelled.1.text := by
      apply String.toList_injective
      rw [← labelName_label labelled'.1 labelled'.2, ← labelName_label labelled.1 labelled.2,
        ← hsymbol', ← hlabel, hlabel']
    have hlabels : made'.label = made.label := hlabel'
    dsimp only at hcontains'
    rw [← hlabels, hsymbol', symbolContains_label] at hcontains'
    rcases exists_declaration hlabelled' (mentionsAny_of_shown hcontains') with
      ⟨declaration, hdeclaration, howner, hname, hmentions⟩
    refine ⟨declaration, ⟨?_, ?_, tree', htree', hpath', statement', hstatement', hdeclaration⟩,
      hmentions⟩
    · rw [Declaration.isPublic, howner, hname, hpublic']
      rfl
    · rw [Declaration.fullName, howner, hname]
      exact hsame

/-- A function with a parameter of type `Any`. -/
def anyParameter : SyntaxTree where
  path := "m.tpy"
  statements := [.functionDef ⟨"f", by decide⟩ [⟨"x", some "Any"⟩] (some "int")]

end TypePython.ApiDiff
