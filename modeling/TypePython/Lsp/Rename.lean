import Mathlib.Data.List.Induction
import Mathlib.Data.List.Infix
import Mathlib.Data.List.Nodup
import Mathlib.Data.List.Pairwise
import Std.Data.ExtTreeMap.Lemmas
import TypePython.Lsp.Positions

/-!
# Renaming

A symbol is renamed at its declarations and at the tokens that are taken for it. A declaration is
found by searching its line for the text of the name, a token is taken for a symbol by its name.

* `locations_dedupe`: no occurrence is lost, and none stands twice.
* `renames_iff`: when the edits of a symbol are its tokens.
-/

namespace TypePython.Lsp

open Std (ExtTreeMap)
open TypePython.Lib.Text

/-! ## Documents -/

/-- The declarations of a document, with the lines they are said to start on. -/
inductive SyntaxStatement where
  | typeAlias (name : String) (line : Nat)
  | classLike (name : String) (line : Nat) (members : List (String × Nat))
  | functionLike (name : String) (line : Nat)
  | importNames (bindings : List (String × String))
  | value (names : List String) (line : Nat)
  | other

/-- An identifier of the tokenizer; lines and columns count from zero, columns in characters. -/
structure TokenOccurrence where
  name : String
  line : Nat
  column : Nat
  precededByDot : Bool
deriving DecidableEq

/-- What a token stands for in the program. -/
inductive TokenMeaning where
  | symbol (canonical : String)
  | localVariable
  | other
deriving DecidableEq

/-- The names a statement declares. -/
def SyntaxStatement.names : SyntaxStatement → List String
  | .typeAlias name _ | .functionLike name _ => [name]
  | .classLike name _ members => name :: members.map Prod.fst
  | .value names _ => names
  | .importNames _ | .other => []

/-- The token before which the other one stands. -/
def TokenOccurrence.Before (token other : TokenOccurrence) : Prop :=
  token.line < other.line
    ∨ token.line = other.line ∧ token.column + token.name.toList.length ≤ other.column

/-- A document with its lines, tokens and declarations. `receiver` is the owner that the types of
the document give for what stands before a dot, `meaning` what its tokens stand for. -/
structure DocumentState where
  uri : String
  moduleKey : String
  lines : List Chars
  statements : List SyntaxStatement
  tokens : List TokenOccurrence
  receiver : TokenOccurrence → Option String
  meaning : TokenOccurrence → TokenMeaning
  stands : ∀ token ∈ tokens, token.name.toList ≠ [] ∧ ∃ text, lines[token.line]? = some text
    ∧ token.column ≤ text.length ∧ token.name.toList <+: text.drop token.column
  inOrder : tokens.Pairwise TokenOccurrence.Before
  undotted : ∀ statement ∈ statements, ∀ name ∈ statement.names, '.' ∉ name.toList

structure SymbolOccurrence where
  canonical : String
  name : String
  uri : String
  range : LspRange
  declaration : Bool
deriving DecidableEq

namespace DocumentState

variable (document : DocumentState)

/-- The range of a name that starts at a column of a line. -/
def nameRange (line column : Nat) (name : String) : LspRange :=
  let before := utf16Len ((document.lines.getD line []).take column)
  ⟨⟨line, before⟩, ⟨line, before + utf16Len name.toList⟩⟩

def tokenRange (token : TokenOccurrence) : LspRange :=
  document.nameRange token.line token.column token.name

/-! ## Declarations -/

/-- `find_name_range`: where the text of the name first occurs on a line; lines count from one. -/
def findNameRange (line : Nat) (name : String) : Option (Nat × Nat) :=
  (document.lines[line - 1]?).bind fun text =>
    (text.tails.findIdx? name.toList.isPrefixOf).map fun column => (line - 1, column)

def declarationKeywords : List Chars :=
  ["class ".toList, "def ".toList, "async def ".toList, "overload def ".toList, "typealias ".toList]

/-- `find_declaration_name_range`: six more lines are searched if they begin a declaration. -/
def findDeclarationNameRange (line : Nat) (name : String) : Option (Nat × Nat) :=
  (document.findNameRange line name).or <|
    (List.range 6).findSome? fun offset =>
      if (document.lines[line + offset]?).any fun text =>
          declarationKeywords.any fun keyword => keyword.isPrefixOf (trimStart text) then
        document.findNameRange (line + 1 + offset) name
      else none

/-- The names a statement declares with their canonical names and where they are found. -/
def declaredBy : SyntaxStatement → List (String × String × Option (Nat × Nat))
  | .typeAlias name line | .functionLike name line =>
    [(document.moduleKey ++ "." ++ name, name, document.findDeclarationNameRange line name)]
  | .classLike name line members =>
    (document.moduleKey ++ "." ++ name, name, document.findDeclarationNameRange line name)
      :: members.map fun member =>
        (document.moduleKey ++ "." ++ name ++ "." ++ member.1, member.1,
          document.findNameRange member.2 member.1)
  | .value names line =>
    names.map fun name =>
      (document.moduleKey ++ "." ++ name, name, document.findNameRange line name)
  | .importNames _ | .other => []

/-- The names a statement binds, with their canonical names. -/
def boundBy : SyntaxStatement → List (String × String)
  | .typeAlias name _ | .functionLike name _ | .classLike name _ _ =>
    [(name, document.moduleKey ++ "." ++ name)]
  | .importNames bindings => bindings
  | .value names _ => names.map fun name => (name, document.moduleKey ++ "." ++ name)
  | .other => []

/-- What the document's own declarations and imports say a name is; the last one counts. -/
def localSymbol (name : String) : Option String :=
  ((document.statements.flatMap document.boundBy).reverse.find? (·.1 = name)).map Prod.snd

/-- The declarations that are found, with their places. -/
def declaredPlaces : List (String × String × Nat × Nat) :=
  (document.statements.flatMap document.declaredBy).filterMap fun (canonical, name, place) =>
    place.map fun place => (canonical, name, place)

def declarations : List SymbolOccurrence :=
  document.declaredPlaces.map fun (canonical, name, line, column) =>
    { canonical := canonical, name := name, uri := document.uri,
      range := document.nameRange line column name, declaration := true }

end DocumentState

/-! ## Occurrences -/

/-- The documents of a workspace; each has its own identifier. -/
structure WorkspaceState where
  documents : List DocumentState
  uris : (documents.map DocumentState.uri).Nodup

def SymbolOccurrence.location (occurrence : SymbolOccurrence) : String × String × LspRange :=
  (occurrence.canonical, occurrence.uri, occurrence.range)

/-- One occurrence for each location; a declaration takes the place of a reference. -/
def dedupeStep (deduped : List SymbolOccurrence) (occurrence : SymbolOccurrence) :
    List SymbolOccurrence :=
  if occurrence.location ∈ deduped.map SymbolOccurrence.location then
    if occurrence.declaration then
      deduped.map fun kept =>
        if kept.location = occurrence.location ∧ kept.declaration = false then occurrence else kept
    else deduped
  else deduped ++ [occurrence]

def dedupeOccurrences (occurrences : List SymbolOccurrence) : List SymbolOccurrence :=
  occurrences.foldl dedupeStep []

structure LspTextEdit where
  range : LspRange
  newText : String
deriving DecidableEq

namespace WorkspaceState

variable (workspace : WorkspaceState)

/-- The members of this name that are declared anywhere. -/
def memberSymbols (name : String) : List String :=
  ((workspace.documents.flatMap DocumentState.declarations).filter fun occurrence =>
    2 ≤ occurrence.canonical.toList.count '.' && occurrence.name = name).map
      SymbolOccurrence.canonical

/-- A member of a name only one class has is taken for that class's member. -/
def resolveMemberSymbol (document : DocumentState) (token : TokenOccurrence) : Option String :=
  match workspace.memberSymbols token.name with
  | [] => none
  | [candidate] => some candidate
  | candidates =>
    (document.receiver token).bind fun owner =>
      candidates.find? (· = owner ++ "." ++ token.name)

/-- The symbol a token is taken for. -/
def referent (document : DocumentState) (token : TokenOccurrence) : Option String :=
  (document.localSymbol token.name).or
    (if token.precededByDot then workspace.resolveMemberSymbol document token else none)

def references (document : DocumentState) : List SymbolOccurrence :=
  document.tokens.filterMap fun token =>
    (workspace.referent document token).map fun canonical =>
      { canonical := canonical, name := token.name, uri := document.uri,
        range := document.tokenRange token, declaration := false }

def occurrences : List SymbolOccurrence :=
  dedupeOccurrences <| workspace.documents.flatMap fun document =>
    document.declarations ++ workspace.references document

/-- The edits of `rename` for a symbol, by document. -/
def changes (canonical newName : String) : ExtTreeMap String (List LspTextEdit) :=
  (workspace.occurrences.filter (·.canonical = canonical)).foldl
    (fun changes occurrence =>
      changes.insert occurrence.uri
        (changes.getD occurrence.uri [] ++ [{ range := occurrence.range, newText := newName }]))
    ∅

def rangeContains (range : LspRange) (position : LspPosition) : Bool :=
  (range.start.line < position.line
      || position.line = range.start.line && range.start.character ≤ position.character)
    && (position.line < range.stop.line
      || position.line = range.stop.line && position.character ≤ range.stop.character)

def resolveSymbol (uri : String) (position : LspPosition) : Option SymbolOccurrence :=
  workspace.occurrences.find? fun occurrence =>
    occurrence.uri = uri && rangeContains occurrence.range position

def rename (uri : String) (position : LspPosition) (newName : String) :
    Option (ExtTreeMap String (List LspTextEdit)) :=
  (workspace.resolveSymbol uri position).map fun symbol =>
    workspace.changes symbol.canonical newName

end WorkspaceState

/-! ## What a renaming should do -/

def LspPosition.Le (position other : LspPosition) : Prop :=
  position.line < other.line
    ∨ position.line = other.line ∧ position.character ≤ other.character

def LspRange.Disjoint (range other : LspRange) : Prop :=
  range.stop.Le other.start ∨ other.stop.Le range.start

/-- A name of something else: an attribute behind a dot, or a parameter or local variable. -/
def DocumentState.Foreign (document : DocumentState) (canonical : String)
    (token : TokenOccurrence) : Prop :=
  token.precededByDot = true ∧ document.meaning token ≠ .symbol canonical
    ∨ document.meaning token = .localVariable

/-- Where the declarations of a symbol are found. -/
def DocumentState.placesOf (document : DocumentState) (canonical : String) : List (Nat × Nat) :=
  (document.declaredPlaces.filter (·.1 = canonical)).map fun declared => declared.2.2

section

variable (workspace : WorkspaceState) (canonical newName : String)

/-- Every edit replaces a whole token with the name of the symbol by the new name, no two edits of a
document touch, and none touches a token that names something else. -/
structure RenamesSymbol : Prop where
  whole : ∀ uri, ∀ edit ∈ (workspace.changes canonical newName).getD uri [],
    edit.newText = newName ∧ ∃ document ∈ workspace.documents, document.uri = uri
      ∧ ∃ token ∈ document.tokens, document.tokenRange token = edit.range
        ∧ token.name = lastSegment '.' canonical
  disjoint : ∀ uri, ((workspace.changes canonical newName).getD uri []).Pairwise
    fun edit edit' => edit.range.Disjoint edit'.range
  own : ∀ document ∈ workspace.documents,
    ∀ edit ∈ (workspace.changes canonical newName).getD document.uri [],
      ∀ token ∈ document.tokens, ¬ edit.range.Disjoint (document.tokenRange token) →
        ¬ document.Foreign canonical token

/-- The text of the name first occurs as a token where a declaration is searched for, what is taken
for the symbol has its name, and none of it names something else. -/
structure Renameable : Prop where
  declared : ∀ document ∈ workspace.documents, ∀ place ∈ document.placesOf canonical,
    ∃ token ∈ document.tokens, (token.line, token.column) = place
      ∧ token.name = lastSegment '.' canonical
  unaliased : ∀ document ∈ workspace.documents, ∀ token ∈ document.tokens,
    workspace.referent document token = some canonical → token.name = lastSegment '.' canonical
  own : ∀ document ∈ workspace.documents, ∀ token ∈ document.tokens,
    workspace.referent document token = some canonical
        ∨ (token.line, token.column) ∈ document.placesOf canonical →
      ¬ document.Foreign canonical token

end

/-! ## Occurrences and edits -/

theorem map_location_dedupeStep (deduped : List SymbolOccurrence) (occurrence : SymbolOccurrence) :
    (dedupeStep deduped occurrence).map SymbolOccurrence.location
      = if occurrence.location ∈ deduped.map SymbolOccurrence.location then
          deduped.map SymbolOccurrence.location
        else deduped.map SymbolOccurrence.location ++ [occurrence.location] := by
  unfold dedupeStep
  by_cases hknown : occurrence.location ∈ deduped.map SymbolOccurrence.location
  · rw [if_pos hknown, if_pos hknown]
    split
    · rw [List.map_map]
      refine List.map_congr_left fun kept _ => ?_
      show SymbolOccurrence.location (if _ then _ else _) = _
      split
      · next hsame => exact hsame.1.symm
      · rfl
    · rfl
  · rw [if_neg hknown, if_neg hknown, List.map_append]
    rfl

/-- Nothing is lost, and nothing stands twice. -/
theorem locations_dedupe (occurrences : List SymbolOccurrence) :
    ((dedupeOccurrences occurrences).map SymbolOccurrence.location).Nodup
      ∧ ∀ location, location ∈ (dedupeOccurrences occurrences).map SymbolOccurrence.location
        ↔ location ∈ occurrences.map SymbolOccurrence.location := by
  unfold dedupeOccurrences
  induction occurrences using List.reverseRecOn with
  | nil => exact ⟨List.nodup_nil, fun _ => Iff.rfl⟩
  | append_singleton occurrences occurrence ih =>
    rw [List.foldl_append, List.foldl_cons, List.foldl_nil, map_location_dedupeStep]
    constructor
    · split
      · exact ih.1
      · next hnew =>
          refine List.nodup_append.2 ⟨ih.1, List.nodup_singleton _, ?_⟩
          rintro location hmem _ hlast rfl
          exact hnew (by rw [← List.mem_singleton.1 hlast]; exact hmem)
    · intro location
      rw [List.map_append, List.mem_append, ← ih.2 location]
      split
      · next hknown =>
          refine ⟨.inl, fun h => h.elim id fun hlast => ?_⟩
          rw [List.mem_singleton.1 hlast]
          exact hknown
      · exact List.mem_append

variable {workspace : WorkspaceState} {canonical newName : String}

theorem getD_foldl_insert (occurrences : List SymbolOccurrence) (uri : String) :
    ∀ changes : ExtTreeMap String (List LspTextEdit),
      (occurrences.foldl (fun changes occurrence =>
        changes.insert occurrence.uri
          (changes.getD occurrence.uri []
            ++ [{ range := occurrence.range, newText := newName }])) changes).getD uri []
        = changes.getD uri [] ++ (occurrences.filter (·.uri = uri)).map fun occurrence =>
          { range := occurrence.range, newText := newName } := by
  induction occurrences with
  | nil => exact fun changes => (List.append_nil _).symm
  | cons occurrence rest ih =>
    intro changes
    rw [List.foldl_cons, ih, ExtTreeMap.getD_insert]
    rw [List.filter_cons]
    by_cases huri : occurrence.uri = uri
    · rw [if_pos (Std.LawfulEqCmp.compare_eq_iff_eq.2 huri), if_pos (decide_eq_true huri),
        List.map_cons, huri, List.append_assoc]
      rfl
    · rw [if_neg fun hsame => huri (Std.LawfulEqCmp.compare_eq_iff_eq.1 hsame),
        if_neg (by rw [decide_eq_false huri]; exact Bool.false_ne_true)]

/-- The edits of a document are at the locations of the symbol. -/
theorem getD_changes (uri : String) : (workspace.changes canonical newName).getD uri []
    = ((workspace.occurrences.filter (·.canonical = canonical)).filter (·.uri = uri)).map
      fun occurrence => { range := occurrence.range, newText := newName } := by
  unfold WorkspaceState.changes
  rw [getD_foldl_insert, ExtTreeMap.getD_empty, List.nil_append]

variable {edit : LspTextEdit}

theorem mem_changes_iff {uri : String} : edit ∈ (workspace.changes canonical newName).getD uri []
      ↔ edit.newText = newName ∧ (canonical, uri, edit.range)
        ∈ (workspace.documents.flatMap fun document =>
          document.declarations ++ workspace.references document).map
            SymbolOccurrence.location := by
  rw [getD_changes, ← (locations_dedupe _).2]
  constructor
  · intro h
    rcases List.mem_map.1 h with ⟨occurrence, hoccurrence, rfl⟩
    rw [List.mem_filter, List.mem_filter, decide_eq_true_eq, decide_eq_true_eq] at hoccurrence
    rcases hoccurrence with ⟨⟨hmem, rfl⟩, rfl⟩
    exact ⟨rfl, List.mem_map_of_mem hmem⟩
  · rintro ⟨rfl, h⟩
    rcases List.mem_map.1 h with ⟨occurrence, hmem, hlocation⟩
    rcases Prod.mk.inj hlocation with ⟨hcanonical, hrest⟩
    rcases Prod.mk.inj hrest with ⟨huri, hrange⟩
    refine List.mem_map.2 ⟨occurrence, ?_, by rw [hrange]⟩
    rw [List.mem_filter, List.mem_filter, decide_eq_true_eq, decide_eq_true_eq]
    exact ⟨⟨hmem, hcanonical⟩, huri⟩

/-- The ranges of the edits of a document are different. -/
theorem nodup_changes (uri : String) :
    (((workspace.changes canonical newName).getD uri []).map LspTextEdit.range).Nodup := by
  rw [getD_changes, List.map_map]
  have hnodup := (locations_dedupe (workspace.documents.flatMap fun document =>
    document.declarations ++ workspace.references document)).1
  have hsub : List.Sublist (((workspace.occurrences.filter (·.canonical = canonical)).filter
      (·.uri = uri)).map SymbolOccurrence.location)
      (workspace.occurrences.map SymbolOccurrence.location) :=
    (List.filter_sublist.trans List.filter_sublist).map _
  refine List.Nodup.map_on ?_ ((hnodup.sublist hsub).of_map _)
  intro occurrence hoccurrence other hother hrange
  rw [List.mem_filter, List.mem_filter, decide_eq_true_eq, decide_eq_true_eq]
    at hoccurrence hother
  -- the canonical name and the document are the same, so the location is
  refine List.inj_on_of_nodup_map hnodup hoccurrence.1.1 hother.1.1 ?_
  unfold SymbolOccurrence.location
  rw [hoccurrence.1.2, hother.1.2, hoccurrence.2, hother.2]
  exact congrArg (canonical, uri, ·) hrange

/-! ## Ranges of names -/

variable {column : Nat}

theorem utf16Len_take_lt {text : Chars} {column' : Nat} (hlt : column < column')
    (hle : column' ≤ text.length) : utf16Len (text.take column) < utf16Len (text.take column') := by
  have hparts : text.take column'
      = text.take column ++ (text.drop column).take (column' - column) := by
    rw [← List.take_add]
    congr 1
    omega
  have hmore := length_le_utf16Len ((text.drop column).take (column' - column))
  rw [List.length_take, List.length_drop] at hmore
  rw [hparts, utf16Len_append]
  omega

theorem column_eq_of_utf16Len {text : Chars} {column' : Nat} (hle : column ≤ text.length)
    (hle' : column' ≤ text.length)
    (h : utf16Len (text.take column) = utf16Len (text.take column')) : column = column' := by
  rcases Nat.lt_trichotomy column column' with hlt | heq | hgt
  · have hless := utf16Len_take_lt hlt hle'
    omega
  · exact heq
  · have hless := utf16Len_take_lt hgt hle
    omega

variable {name : String} {line : Nat} {place : Nat × Nat} {other : TokenOccurrence}

namespace DocumentState

variable {document : DocumentState}

theorem column_le {token : TokenOccurrence} (h : token ∈ document.tokens) :
    token.column ≤ (document.lines.getD token.line []).length := by
  rcases (document.stands token h).2 with ⟨text, hline, hcolumn, -⟩
  rw [List.getD_eq_getElem?_getD, hline]
  exact hcolumn

/-- The place of a token is known by its range. -/
theorem place_of_range {token : TokenOccurrence} (h : token ∈ document.tokens)
    (hle : column ≤ (document.lines.getD line []).length)
    (hrange : document.tokenRange token = document.nameRange line column name) :
    (token.line, token.column) = (line, column) := by
  have hstart := congrArg LspRange.start hrange
  have hline : token.line = line := congrArg LspPosition.line hstart
  have hcharacter := congrArg LspPosition.character hstart
  subst hline
  rw [column_eq_of_utf16Len (column_le h) hle hcharacter]

theorem nonempty_token {token : TokenOccurrence} (h : token ∈ document.tokens) :
    0 < utf16Len token.name.toList := by
  have hpos := List.length_pos_iff.2 (document.stands token h).1
  have hlength := length_le_utf16Len token.name.toList
  omega

theorem not_disjoint_self {token : TokenOccurrence} (h : token ∈ document.tokens) :
    ¬ (document.tokenRange token).Disjoint (document.tokenRange token) := by
  have hpos := nonempty_token h
  unfold LspRange.Disjoint LspPosition.Le tokenRange nameRange
  dsimp only
  omega

/-- Where a token ends on its line. -/
theorem stop_tokenRange {token : TokenOccurrence} (h : token ∈ document.tokens) :
    token.column + token.name.toList.length ≤ (document.lines.getD token.line []).length
      ∧ (document.tokenRange token).stop = ⟨token.line, utf16Len
        ((document.lines.getD token.line []).take
          (token.column + token.name.toList.length))⟩ := by
  rcases (document.stands token h).2 with ⟨text, hline, hcolumn, rest, hrest⟩
  have hget : document.lines.getD token.line [] = text := by
    rw [List.getD_eq_getElem?_getD, hline]
    rfl
  have hlength := congrArg List.length hrest
  rw [List.length_append, List.length_drop] at hlength
  unfold tokenRange nameRange
  rw [hget, List.take_add, ← hrest, List.take_left, utf16Len_append]
  refine ⟨?_, rfl⟩
  omega

theorem disjoint_of_before {token : TokenOccurrence} (h : token ∈ document.tokens)
    (h' : other ∈ document.tokens) (hbefore : token.Before other) :
    (document.tokenRange token).Disjoint (document.tokenRange other) := by
  left
  rw [(stop_tokenRange h).2]
  rcases hbefore with hline | ⟨hline, hcolumn⟩
  · exact .inl hline
  · refine .inr ⟨hline, ?_⟩
    have hle := column_le h'
    unfold tokenRange nameRange
    dsimp only
    rw [← hline] at hle ⊢
    rcases Nat.eq_or_lt_of_le hcolumn with heq | hlt
    · rw [heq]
    · exact Nat.le_of_lt (utf16Len_take_lt hlt hle)

/-- Different tokens do not touch. -/
theorem disjoint_tokens {token : TokenOccurrence} (h : token ∈ document.tokens)
    (h' : other ∈ document.tokens) (hne : token ≠ other) :
    (document.tokenRange token).Disjoint (document.tokenRange other) := by
  have hboth : document.tokens.Pairwise fun token other =>
      token.Before other ∨ other.Before token := document.inOrder.imp .inl
  have hsymm : Std.Symm fun token other : TokenOccurrence =>
      token.Before other ∨ other.Before token := ⟨fun _ _ => Or.symm⟩
  rcases hboth.forall h h' hne with hbefore | hbefore
  · exact disjoint_of_before h h' hbefore
  · exact (disjoint_of_before h' h hbefore).symm

theorem token_eq_of_range {token : TokenOccurrence} (h : token ∈ document.tokens)
    (h' : other ∈ document.tokens)
    (htouch : ¬ (document.tokenRange token).Disjoint (document.tokenRange other)) :
    token = other := by
  by_contra hne
  exact htouch (disjoint_tokens h h' hne)

/-! ## Declarations and their places -/

theorem mem_findNameRange (h : document.findNameRange line name = some place) :
    place.2 ≤ (document.lines.getD place.1 []).length := by
  rcases Option.bind_eq_some_iff.1 h with ⟨text, htext, hfound⟩
  rcases Option.map_eq_some_iff.1 hfound with ⟨column, hcolumn, rfl⟩
  have hlt := (List.findIdx?_eq_some_iff_getElem.1 hcolumn).1
  rw [List.length_tails] at hlt
  rw [List.getD_eq_getElem?_getD, htext]
  exact Nat.le_of_lt_succ hlt

theorem mem_findDeclarationNameRange
    (h : document.findDeclarationNameRange line name = some place) :
    place.2 ≤ (document.lines.getD place.1 []).length := by
  rcases Option.or_eq_some_iff.1 h with hfound | ⟨-, hfound⟩
  · exact mem_findNameRange hfound
  · rcases List.exists_of_findSome?_eq_some hfound with ⟨offset, -, hoffset⟩
    split at hoffset
    · exact mem_findNameRange hoffset
    · cases hoffset

theorem lastSegment_dotted {owner : String} (h : '.' ∉ name.toList) :
    lastSegment '.' (owner ++ "." ++ name) = name := by
  have hshape : (owner ++ "." ++ name).toList = owner.toList ++ '.' :: name.toList := by simp
  unfold lastSegment
  rw [hshape, rsplitOnce_append h]
  exact String.ofList_toList

/-- A declaration is found on a line, and its canonical name ends with its name. -/
theorem declaredPlaces_spec {canonical : String}
    (h : (canonical, name, line, column) ∈ document.declaredPlaces) :
    lastSegment '.' canonical = name ∧ column ≤ (document.lines.getD line []).length := by
  rcases List.mem_filterMap.1 h with ⟨⟨canonical', name', place⟩, hdeclared, hplace⟩
  rcases Option.map_eq_some_iff.1 hplace with ⟨⟨line', column'⟩, hfound, hsame⟩
  rcases Prod.mk.inj hsame with ⟨rfl, hsame'⟩
  rcases Prod.mk.inj hsame' with ⟨rfl, hsame''⟩
  rcases Prod.mk.inj hsame'' with ⟨rfl, rfl⟩
  rcases List.mem_flatMap.1 hdeclared with ⟨statement, hstatement, hby⟩
  have hundotted := document.undotted statement hstatement
  cases statement with
  | typeAlias name line | functionLike name line =>
    rcases Prod.mk.inj (List.mem_singleton.1 hby) with ⟨rfl, hrest⟩
    rcases Prod.mk.inj hrest with ⟨rfl, rfl⟩
    exact ⟨lastSegment_dotted (hundotted _ List.mem_cons_self),
      mem_findDeclarationNameRange hfound⟩
  | classLike name line members =>
    rcases List.mem_cons.1 hby with hclass | hmember
    · rcases Prod.mk.inj hclass with ⟨rfl, hrest⟩
      rcases Prod.mk.inj hrest with ⟨rfl, rfl⟩
      exact ⟨lastSegment_dotted (hundotted _ List.mem_cons_self),
        mem_findDeclarationNameRange hfound⟩
    · rcases List.mem_map.1 hmember with ⟨member, hmem, hsame⟩
      rcases Prod.mk.inj hsame with ⟨rfl, hrest⟩
      rcases Prod.mk.inj hrest with ⟨rfl, rfl⟩
      exact ⟨lastSegment_dotted (hundotted _ (List.mem_cons_of_mem _
        (List.mem_map_of_mem hmem))), mem_findNameRange hfound⟩
  | value names line =>
    rcases List.mem_map.1 hby with ⟨name, hmem, hsame⟩
    rcases Prod.mk.inj hsame with ⟨rfl, hrest⟩
    rcases Prod.mk.inj hrest with ⟨rfl, rfl⟩
    exact ⟨lastSegment_dotted (hundotted _ hmem), mem_findNameRange hfound⟩
  | importNames bindings => cases hby
  | other => cases hby

theorem mem_placesOf {canonical : String} : place ∈ document.placesOf canonical
      ↔ ∃ name, (canonical, name, place) ∈ document.declaredPlaces := by
  unfold placesOf
  constructor
  · intro h
    rcases List.mem_map.1 h with ⟨declared, hdeclared, rfl⟩
    rw [List.mem_filter, decide_eq_true_eq] at hdeclared
    rcases hdeclared with ⟨hmem, rfl⟩
    exact ⟨declared.2.1, hmem⟩
  · rintro ⟨name, h⟩
    exact List.mem_map.2 ⟨_, List.mem_filter.2 ⟨h, decide_eq_true rfl⟩, rfl⟩

end DocumentState

/-! ## When a renaming is right -/

section

variable {workspace : WorkspaceState} {canonical newName : String}

/-- An edit is at a declaration that is found or at a token that is taken for the symbol. -/
theorem mem_changes_cases {uri : String} : edit ∈ (workspace.changes canonical newName).getD uri []
      ↔ edit.newText = newName ∧ ∃ document ∈ workspace.documents, document.uri = uri
        ∧ ((∃ name line column, (canonical, name, line, column) ∈ document.declaredPlaces
            ∧ document.nameRange line column name = edit.range)
          ∨ ∃ token ∈ document.tokens, workspace.referent document token = some canonical
            ∧ document.tokenRange token = edit.range) := by
  rw [mem_changes_iff]
  refine and_congr_right fun _ => ?_
  constructor
  · intro h
    rcases List.mem_map.1 h with ⟨occurrence, hoccurrence, hlocation⟩
    rcases List.mem_flatMap.1 hoccurrence with ⟨document, hdocument, hmem⟩
    rcases Prod.mk.inj hlocation with ⟨rfl, hrest⟩
    rcases Prod.mk.inj hrest with ⟨rfl, hrange⟩
    rcases List.mem_append.1 hmem with hdeclaration | hreference
    · rcases List.mem_map.1 hdeclaration with ⟨⟨canonical, name, line, column⟩, hplace, rfl⟩
      exact ⟨document, hdocument, rfl, .inl ⟨name, line, column, hplace, hrange⟩⟩
    · rcases List.mem_filterMap.1 hreference with ⟨token, htoken, hsome⟩
      rcases Option.map_eq_some_iff.1 hsome with ⟨canonical, hreferent, rfl⟩
      exact ⟨document, hdocument, rfl, .inr ⟨token, htoken, hreferent, hrange⟩⟩
  · rintro ⟨document, hdocument, rfl, hcases⟩
    rcases hcases with ⟨name, line, column, hplace, hrange⟩ | ⟨token, htoken, hreferent, hrange⟩
    · refine List.mem_map.2 ⟨⟨canonical, name, document.uri,
        document.nameRange line column name, true⟩, ?_, ?_⟩
      · exact List.mem_flatMap.2 ⟨document, hdocument, List.mem_append_left _
          (List.mem_map.2 ⟨_, hplace, rfl⟩)⟩
      · rw [← hrange]
        rfl
    · refine List.mem_map.2 ⟨⟨canonical, token.name, document.uri,
        document.tokenRange token, false⟩, ?_, ?_⟩
      · refine List.mem_flatMap.2 ⟨document, hdocument, List.mem_append_right _
          (List.mem_filterMap.2 ⟨token, htoken, ?_⟩)⟩
        rw [hreferent]
        rfl
      · rw [← hrange]
        rfl

/-- A document is known by its identifier. -/
theorem document_eq_of_uri {document other : DocumentState}
    (h : document ∈ workspace.documents) (h' : other ∈ workspace.documents)
    (huri : document.uri = other.uri) : document = other :=
  List.inj_on_of_nodup_map workspace.uris h h' huri

/-- An edit of a renameable symbol replaces one of its tokens. -/
theorem Renameable.token (h : Renameable workspace canonical) {uri : String}
    (hedit : edit ∈ (workspace.changes canonical newName).getD uri []) :
    ∃ document ∈ workspace.documents, document.uri = uri
      ∧ ∃ token ∈ document.tokens, document.tokenRange token = edit.range
        ∧ token.name = lastSegment '.' canonical
        ∧ (workspace.referent document token = some canonical
          ∨ (token.line, token.column) ∈ document.placesOf canonical) := by
  rcases (mem_changes_cases.1 hedit).2 with ⟨document, hdocument, huri, hcases⟩
  refine ⟨document, hdocument, huri, ?_⟩
  rcases hcases with ⟨name, line, column, hplace, hrange⟩ | ⟨token, htoken, hreferent, hrange⟩
  · have hplaces := DocumentState.mem_placesOf.2 ⟨name, hplace⟩
    rcases h.declared document hdocument _ hplaces with ⟨token, htoken, hat, hname⟩
    refine ⟨token, htoken, ?_, hname, .inr (by rw [hat]; exact hplaces)⟩
    rcases Prod.mk.inj hat with ⟨rfl, rfl⟩
    rw [(DocumentState.declaredPlaces_spec hplace).1] at hname
    rw [DocumentState.tokenRange, hname, hrange]
  · exact ⟨token, htoken, hrange, h.unaliased document hdocument token htoken hreferent,
      .inl hreferent⟩

theorem RenamesSymbol.declared (h : RenamesSymbol workspace canonical newName)
    {document : DocumentState} (hdocument : document ∈ workspace.documents)
    (hplace : place ∈ document.placesOf canonical) :
    ∃ token ∈ document.tokens, (token.line, token.column) = place
      ∧ token.name = lastSegment '.' canonical := by
  rcases DocumentState.mem_placesOf.1 hplace with ⟨name, hdeclared⟩
  have hedit : (⟨document.nameRange place.1 place.2 name, newName⟩ : LspTextEdit)
      ∈ (workspace.changes canonical newName).getD document.uri [] :=
    mem_changes_cases.2 ⟨rfl, document, hdocument, rfl, .inl ⟨name, _, _, hdeclared, rfl⟩⟩
  rcases (h.whole _ _ hedit).2 with ⟨other, hother, huri, token, htoken, hrange, hname⟩
  have hsame := document_eq_of_uri hother hdocument huri
  subst hsame
  exact ⟨token, htoken, DocumentState.place_of_range htoken
    (DocumentState.declaredPlaces_spec hdeclared).2 hrange, hname⟩

/-- There is an edit at every token that is taken for the symbol or stands where it is declared. -/
theorem RenamesSymbol.edited (h : RenamesSymbol workspace canonical newName)
    {document : DocumentState} (hdocument : document ∈ workspace.documents)
    {token : TokenOccurrence} (htoken : token ∈ document.tokens)
    (hnamed : workspace.referent document token = some canonical
      ∨ (token.line, token.column) ∈ document.placesOf canonical) :
    (⟨document.tokenRange token, newName⟩ : LspTextEdit)
      ∈ (workspace.changes canonical newName).getD document.uri [] := by
  rcases hnamed with hreferent | hplace
  · exact mem_changes_cases.2 ⟨rfl, document, hdocument, rfl, .inr ⟨token, htoken, hreferent, rfl⟩⟩
  · rcases DocumentState.mem_placesOf.1 hplace with ⟨name, hdeclared⟩
    refine mem_changes_cases.2 ⟨rfl, document, hdocument, rfl, .inl ⟨name, _, _, hdeclared, ?_⟩⟩
    rcases h.declared hdocument hplace with ⟨other, hother, hat, hname⟩
    -- two tokens at one place are one
    have hsame : other = token := by
      by_contra hne
      have hapart := DocumentState.disjoint_tokens hother htoken hne
      have hpos := DocumentState.nonempty_token hother
      have hpos' := DocumentState.nonempty_token htoken
      rcases Prod.mk.inj hat with ⟨hline, hcolumn⟩
      unfold LspRange.Disjoint LspPosition.Le DocumentState.tokenRange
        DocumentState.nameRange at hapart
      rw [hline, hcolumn] at hapart
      dsimp only at hapart
      omega
    rw [DocumentState.tokenRange, ← hsame, hname, (DocumentState.declaredPlaces_spec hdeclared).1]

/-- Renaming a symbol edits its tokens exactly if its declarations are found at their names, nothing
else is bound to it, and nothing else goes by its name. -/
theorem renames_iff (workspace : WorkspaceState) (canonical newName : String) :
    RenamesSymbol workspace canonical newName ↔ Renameable workspace canonical := by
  constructor
  · intro h
    refine ⟨fun document hdocument place => h.declared hdocument, ?_, ?_⟩
    · intro document hdocument token htoken hreferent
      rcases (h.whole _ _ (h.edited hdocument htoken (.inl hreferent))).2 with
        ⟨other, hother, huri, token', htoken', hrange, hname⟩
      have hsame := document_eq_of_uri hother hdocument huri
      subst hsame
      have htouch := DocumentState.not_disjoint_self htoken
      have heq : token' = token := DocumentState.token_eq_of_range htoken' htoken (by
        rw [hrange]
        exact htouch)
      rw [← heq, hname]
    · intro document hdocument token htoken hnamed
      exact h.own document hdocument _ (h.edited hdocument htoken hnamed) token htoken
        (DocumentState.not_disjoint_self htoken)
  · intro h
    refine ⟨?_, ?_, ?_⟩
    · intro uri edit hedit
      rcases h.token hedit with ⟨document, hdocument, huri, token, htoken, hrange, hname, -⟩
      exact ⟨(mem_changes_cases.1 hedit).1, document, hdocument, huri, token, htoken, hrange, hname⟩
    · intro uri
      have hnodup := List.pairwise_map.1 (@nodup_changes workspace canonical newName uri)
      refine hnodup.imp_of_mem fun {edit edit'} hedit hedit' hne => ?_
      rcases h.token hedit with ⟨document, hdocument, huri, token, htoken, hrange, -⟩
      rcases h.token hedit' with ⟨other, hother, huri', token', htoken', hrange', -⟩
      have hsame := document_eq_of_uri hother hdocument (huri'.trans huri.symm)
      subst hsame
      rw [← hrange, ← hrange']
      refine DocumentState.disjoint_tokens htoken htoken' ?_
      rintro rfl
      exact hne (hrange.symm.trans hrange')
    · intro document hdocument edit hedit token htoken htouch
      rcases h.token hedit with ⟨other, hother, huri, token', htoken', hrange, -, hnamed⟩
      have hsame := document_eq_of_uri hother hdocument huri
      subst hsame
      rw [← hrange] at htouch
      rw [← DocumentState.token_eq_of_range htoken' htoken htouch]
      exact h.own other hother token' htoken' hnamed

end

/-- A function whose name is a letter of the keyword before it. -/
def shortNamed : DocumentState where
  uri := "file:///a.tpy"
  moduleKey := "a"
  lines := ["def f(): ...".toList]
  statements := [.functionLike "f" 1]
  tokens := [⟨"f", 0, 4, false⟩]
  receiver _ := none
  meaning _ := .symbol "a.f"
  stands := by
    intro token htoken
    rw [List.mem_singleton.1 htoken]
    exact ⟨by decide, "def f(): ...".toList, rfl, by decide, by decide⟩
  inOrder := List.pairwise_singleton _ _
  undotted := by
    intro statement hstatement name hname
    rw [List.mem_singleton.1 hstatement] at hname
    rw [List.mem_singleton.1 hname]
    decide

def shortNamedWorkspace : WorkspaceState where
  documents := [shortNamed]
  uris := List.nodup_singleton _

/-- The keyword is edited too. -/
theorem shortNamed_not_renamed : ¬ RenamesSymbol shortNamedWorkspace "a.f" "g" := by
  intro h
  have hplace : (0, 2) ∈ shortNamed.placesOf "a.f" := by decide
  rcases h.declared List.mem_cons_self hplace with ⟨token, htoken, hat, -⟩
  rw [List.mem_singleton.1 htoken] at hat
  cases hat

end TypePython.Lsp
