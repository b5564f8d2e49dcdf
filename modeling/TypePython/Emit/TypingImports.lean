import TypePython.Emit.HeaderSuffixes
import TypePython.Emit.TypingReferences
import TypePython.Lib.CodeUnits
import TypePython.Lib.Replacement
import TypePython.Lib.Words

/-!
# Imports from the typing modules

A line `from typing import …` is split into one line for each module that owns some of its names.
The pass sees one line at a time, as text. The indentation it gives the lines is wrong where the
line has white space at its end, an alias is only seen behind ` as `, and a line of a literal is
rewritten like any other. `lineKept_iff` says when the names are kept, and when a line of a
literal is.
-/

namespace TypePython.Emit

open TypePython.Lib
open TypePython.Lib.Text

/-! ## The pass -/

/-- `str::split` at a character. -/
def splitAtEvery (delim : Char) : Chars → List Chars
  | [] => [[]]
  | c :: rest =>
    if c = delim then [] :: splitAtEvery delim rest else consFirst c (splitAtEvery delim rest)

/-- Put a name into the group of its module. -/
def addToGroup (module name : Chars) : List (Chars × List Chars) → List (Chars × List Chars)
  | [] => [(module, [name])]
  | (other, names) :: rest =>
    if other = module then (other, names ++ [name]) :: rest
    else (other, names) :: addToGroup module name rest

/-- The names between the commas. -/
def importEntries (names : Chars) : List Chars :=
  ((splitAtEvery ',' names).map trim).filter (· ≠ [])

def importedSymbol (entry : Chars) : Chars :=
  match splitAtFirst " as ".toList entry with
  | some (name, _) => trim name
  | none => entry

section

variable (target : PythonTarget)

def ownerOrModule (module symbol : Chars) : Chars := (target.stdlibOwner symbol).getD module

/-- The names by the modules they are imported from, in the order in which the modules come. -/
def groupedNames (module names : Chars) : List (Chars × List Chars) :=
  (importEntries names).foldl
    (fun groups entry => addToGroup (ownerOrModule target module (importedSymbol entry)) entry groups) []

def importLine (indentation : Chars) (group : Chars × List Chars) : Chars :=
  indentation ++ "from ".toList ++ group.1 ++ " import ".toList ++ joinTexts [',', ' '] group.2

def normalizeImportFromLine (indentation module names : Chars) : List Chars :=
  (groupedNames target module names).map (importLine indentation)

/-- The module and the names of a line that imports from one of the modules. -/
def typingImport (trimmed : Chars) : Option (Chars × Chars) :=
  (stripPrefix "from ".toList trimmed).bind fun rest =>
    (splitAtFirst " import ".toList rest).bind fun (module, names) =>
      if module ∈ typingModules then some (module, names) else none

/-- There is no result where the indentation would end inside a character. -/
def normalizeTargetCompatibilityLine (tokenize : Chars → List PyToken) (line : Chars) :
    Option (List Chars) :=
  match typingImport (trim line) with
  | some (module, names) =>
    (splitAtByte line (byteLen line - byteLen (trim line))).map fun (indentation, _) =>
      let normalized := normalizeImportFromLine target indentation module names
      if normalized.map trim ≠ [trim line] then normalized
      else [normalizeTargetCompatibilityText target tokenize line]
  | none => some [normalizeTargetCompatibilityText target tokenize line]

end

/-! ## What a line imports -/

/-- A name, and the name it is bound to if that is another one. -/
structure ImportItem where
  symbol : Chars
  rename : Option Chars
deriving DecidableEq

def ImportItem.bound (item : ImportItem) : Chars := item.rename.getD item.symbol

structure ImportedNames where
  indentation : Chars
  module : Chars
  names : Chars
  items : List ImportItem
deriving DecidableEq

def isNamePart (c : Char) : Bool := !isWhitespace c && c ≠ ','

/-- A name that is no keyword of an import. -/
def isImportable (word : Chars) : Bool :=
  word.all isNameCharacter && word ∉ ["as".toList, "from".toList, "import".toList]

def readItem (text : Chars) : Option ImportItem :=
  match words isNamePart text with
  | [symbol] => if isImportable symbol then some ⟨symbol, none⟩ else none
  | [symbol, keyword, rename] =>
    if keyword = "as".toList && isImportable symbol && isImportable rename then
      some ⟨symbol, some rename⟩
    else none
  | _ => none

/-- What a line `from module import names` imports. -/
def readImport (line : Chars) : Option ImportedNames :=
  (stripPrefix "from ".toList (trim line)).bind fun rest =>
    (stripPrefix " import ".toList (rest.dropWhile (· ≠ ' '))).bind fun names =>
      ((splitAtEvery ',' names).mapM readItem).map fun items =>
        { indentation := line.takeWhile isWhitespace
          module := rest.takeWhile (· ≠ ' ')
          names
          items }

/-- The names, each with the module that it is imported from. -/
def ImportedNames.imports (imported : ImportedNames) : List (Chars × ImportItem) :=
  imported.items.map fun item => (imported.module, item)

/-- The text of the line of some names. -/
def importText (module names : Chars) : Chars :=
  "from ".toList ++ module ++ " import ".toList ++ names

/-- The names of the source, each of them once and from its owner, under the same indentation. -/
def NamesKept (target : PythonTarget) (source : ImportedNames) (lines : List Chars) : Prop :=
  ∃ read : List ImportedNames, lines.map readImport = read.map some
    ∧ (∀ imported ∈ read, imported.indentation = source.indentation)
    ∧ (read.flatMap ImportedNames.imports).Perm
        (source.items.map fun item => (ownerOrModule target source.module item.symbol, item))
    ∧ ((read.flatMap ImportedNames.imports).map fun imported => imported.2.bound).Nodup

/-- A line outside of literals keeps its names, a line of a literal stays as it is. -/
def LineKept (target : PythonTarget) (tokenize : Chars → List PyToken) (inLiteral : Bool)
    (line : Chars) : Prop :=
  if inLiteral then normalizeTargetCompatibilityLine target tokenize line = some [line]
  else ∀ source, readImport line = some source → source.module ∈ typingModules →
    ∃ lines, normalizeTargetCompatibilityLine target tokenize line = some lines
      ∧ NamesKept target source lines

/-- No white space at the end, no alias that is overlooked, and no name twice. -/
structure NamesKeepable (target : PythonTarget) (line : Chars) (source : ImportedNames) : Prop where
  ends : trimEnd line = line
  aliases : ∀ entry ∈ importEntries source.names, ∀ item, readItem entry = some item →
    item.rename = none ∨ (splitAtFirst " as ".toList entry).isSome = true
      ∨ ownerOrModule target source.module item.symbol = source.module
  once : (source.items.map ImportItem.bound).Nodup

/-- The line is no import to be split, and has no reference to be rewritten. -/
structure StaysInLiteral (target : PythonTarget) (tokenize : Chars → List PyToken) (line : Chars) :
    Prop where
  imports : ∀ module names, typingImport (trim line) = some (module, names) →
    trimEnd line = line ∧ names = joinTexts [',', ' '] (importEntries names)
      ∧ importEntries names ≠ []
      ∧ ∀ entry ∈ importEntries names,
        ownerOrModule target module (importedSymbol entry) = module
  references : movedReferences target line false (tokenize line) = []

/-! ## Reading -/

theorem splitAtFirst_of_notMem {first : Char} {others before after : Chars} (h : first ∉ before) :
    splitAtFirst (first :: others) (before ++ (first :: others) ++ after) = some (before, after) := by
  induction before with
  | nil =>
    have hfront := stripPrefix_append (first :: others) after
    rw [List.cons_append] at hfront
    rw [List.nil_append, List.cons_append, splitAtFirst, hfront]
  | cons c before ih =>
    rw [List.mem_cons, not_or] at h
    rw [List.cons_append, List.cons_append, splitAtFirst]
    split
    · rename_i hfront
      exact absurd (List.cons.inj (eq_of_stripPrefix hfront)).1.symm h.1
    · rw [ih h.2]
      rfl

theorem space_notMem_typingModules {module : Chars} (h : module ∈ typingModules) :
    ' ' ∉ module := by
  have hall : ∀ module ∈ typingModules, ' ' ∉ module := by decide
  exact hall module h

variable {text : Chars}

theorem typingImport_eq_some {module names : Chars} : typingImport text = some (module, names)
      ↔ text = importText module names ∧ module ∈ typingModules := by
  unfold typingImport importText
  constructor
  · intro h
    obtain ⟨rest, hrest, hsplit⟩ := Option.bind_eq_some_iff.1 h
    obtain ⟨⟨module', names'⟩, hfirst, hmodule⟩ := Option.bind_eq_some_iff.1 hsplit
    simp only at hmodule
    split at hmodule
    · rename_i hmem
      rw [Option.some.injEq, Prod.mk.injEq] at hmodule
      rcases hmodule with ⟨rfl, rfl⟩
      refine ⟨?_, hmem⟩
      rw [eq_of_stripPrefix hrest, splitAtFirst_eq_some hfirst]
      simp only [List.append_assoc]
    · cases hmodule
  · rintro ⟨rfl, hmem⟩
    have hspace := space_notMem_typingModules hmem
    have hfirst := @splitAtFirst_of_notMem ' ' "import ".toList module names hspace
    rw [List.append_assoc, List.append_assoc, stripPrefix_append, Option.bind_some,
      ← List.append_assoc]
    rw [show " import ".toList = ' ' :: "import ".toList from rfl, hfirst, Option.bind_some]
    exact if_pos hmem

/-- A line that is read is the line of its names. -/
theorem readImport_eq_some {line : Chars} {source : ImportedNames} :
    readImport line = some source
      ↔ trim line = importText source.module source.names ∧ ' ' ∉ source.module
        ∧ (splitAtEvery ',' source.names).mapM readItem = some source.items
        ∧ source.indentation = line.takeWhile isWhitespace := by
  unfold readImport importText
  constructor
  · intro h
    obtain ⟨rest, hrest, hbelow⟩ := Option.bind_eq_some_iff.1 h
    obtain ⟨names, hnames, hitems⟩ := Option.bind_eq_some_iff.1 hbelow
    obtain ⟨items, hread, rfl⟩ := Option.map_eq_some_iff.1 hitems
    refine ⟨?_, ?_, hread, rfl⟩
    · have hsplit := List.takeWhile_append_dropWhile (p := (· ≠ ' ')) (l := rest)
      rw [eq_of_stripPrefix hnames] at hsplit
      rw [eq_of_stripPrefix hrest]
      conv_lhs => rw [← hsplit]
      simp only [List.append_assoc]
    · intro hmem
      have hne := List.mem_takeWhile_imp hmem
      simp at hne
  · rintro ⟨htrim, hspace, hitems, hindentation⟩
    obtain ⟨indentation, module, names, items⟩ := source
    simp only at htrim hspace hitems hindentation
    have hcut : (module ++ (" import ".toList ++ names)).takeWhile (· ≠ ' ') = module
        ∧ (module ++ (" import ".toList ++ names)).dropWhile (· ≠ ' ')
          = " import ".toList ++ names := by
      have hall : ∀ c ∈ module, decide (c ≠ ' ') = true :=
        fun c hc => decide_eq_true fun heq => hspace (heq ▸ hc)
      rw [List.takeWhile_append_of_pos hall, List.dropWhile_append_of_pos hall]
      exact ⟨List.append_nil module, rfl⟩
    rw [htrim, List.append_assoc, List.append_assoc, stripPrefix_append, Option.bind_some, hcut.1,
      hcut.2, stripPrefix_append, Option.bind_some, hitems, hindentation]
    rfl

/-! ## Names between commas -/

theorem splitAtEvery_ne_nil (delim : Char) (text : Chars) : splitAtEvery delim text ≠ [] := by
  cases text with
  | nil => exact List.cons_ne_nil _ _
  | cons c rest =>
    rw [splitAtEvery]
    split
    · exact List.cons_ne_nil _ _
    · cases splitAtEvery delim rest with
      | nil => exact List.cons_ne_nil _ _
      | cons part parts => exact List.cons_ne_nil _ _

theorem splitAtEvery_of_notMem {delim : Char} (h : delim ∉ text) :
    splitAtEvery delim text = [text] := by
  induction text with
  | nil => rfl
  | cons c rest ih =>
    rw [List.mem_cons, not_or] at h
    rw [splitAtEvery, if_neg (Ne.symm h.1), ih h.2]
    rfl

theorem splitAtEvery_append {delim : Char} (h : delim ∉ text) (rest : Chars) :
    splitAtEvery delim (text ++ delim :: rest) = text :: splitAtEvery delim rest := by
  induction text with
  | nil => rw [List.nil_append, splitAtEvery, if_pos rfl]
  | cons c text ih =>
    rw [List.mem_cons, not_or] at h
    rw [List.cons_append, splitAtEvery, if_neg (Ne.symm h.1), ih h.2]
    rfl

/-- No part has the character that the text is split at, and no other character is lost. -/
theorem notMem_splitAtEvery {delim : Char} {part : Chars} (h : part ∈ splitAtEvery delim text) :
    delim ∉ part := by
  induction text generalizing part with
  | nil =>
    rw [splitAtEvery, List.mem_singleton] at h
    rw [h]
    exact List.not_mem_nil
  | cons c rest ih =>
    rw [splitAtEvery] at h
    split at h
    · rcases List.mem_cons.1 h with rfl | hmem
      · exact List.not_mem_nil
      · exact ih hmem
    · rename_i hc
      cases hparts : splitAtEvery delim rest with
      | nil => exact absurd hparts (splitAtEvery_ne_nil _ _)
      | cons first others =>
        rw [hparts] at h
        rcases List.mem_cons.1 h with rfl | hmem
        · rw [List.mem_cons, not_or]
          exact ⟨Ne.symm hc, ih (by rw [hparts]; exact List.mem_cons_self)⟩
        · exact ih (by rw [hparts]; exact List.mem_cons_of_mem _ hmem)

theorem count_splitAtEvery {delim c : Char} (hc : c ≠ delim) (text : Chars) :
    (splitAtEvery delim text).flatten.count c = text.count c := by
  induction text with
  | nil => rfl
  | cons d rest ih =>
    rw [splitAtEvery]
    split
    · rename_i hd
      rw [List.flatten_cons, List.nil_append, ih, hd, List.count_cons_of_ne (Ne.symm hc)]
    · cases hparts : splitAtEvery delim rest with
      | nil => exact absurd hparts (splitAtEvery_ne_nil _ _)
      | cons first others =>
        rw [hparts] at ih
        rw [consFirst, List.flatten_cons, List.cons_append, List.count_cons, List.count_cons,
          ← ih, List.flatten_cons]

variable {entry : Chars}

theorem splitAtEvery_joinTexts {rest : List Chars} (h : ∀ text ∈ entry :: rest, ',' ∉ text) :
    splitAtEvery ',' (joinTexts [',', ' '] (entry :: rest)) = entry :: rest.map (' ' :: ·) := by
  induction rest generalizing entry with
  | nil => exact splitAtEvery_of_notMem (h entry List.mem_cons_self)
  | cons next rest ih =>
    rw [List.forall_mem_cons] at h
    have hnext : ∀ text ∈ (' ' :: next) :: rest, ',' ∉ text := by
      rw [List.forall_mem_cons] at h ⊢
      exact ⟨fun hmem => h.2.1 ((List.mem_cons.1 hmem).resolve_left (by decide)), h.2.2⟩
    have hjoin : joinTexts [',', ' '] (entry :: next :: rest)
        = entry ++ ',' :: joinTexts [',', ' '] ((' ' :: next) :: rest) := by
      rw [joinTexts_cons (List.cons_ne_nil _ _), List.append_assoc]
      cases rest with
      | nil => rfl
      | cons text rest => rfl
    rw [hjoin, splitAtEvery_append h.1, ih hnext]
    rfl

theorem count_words {isWord : Char → Bool} {c : Char} (hc : isWord c = true) (text : Chars) :
    (words isWord text).flatten.count c = text.count c := by
  have hfrom : ∀ current, (wordsFrom isWord current text).flatten.count c
      = current.count c + text.count c := by
    induction text with
    | nil =>
      intro current
      rw [wordsFrom, endWord]
      split
      · rename_i hnil
        rw [hnil]
        rfl
      · simp
    | cons d rest ih =>
      intro current
      rw [wordsFrom]
      split
      · rw [ih, List.count_cons, List.count_cons]
        omega
      · rename_i hd
        have hne : d ≠ c := by
          rintro rfl
          exact hd hc
        rw [List.flatten_append, List.count_append, ih, endWord, List.count_cons_of_ne hne]
        split
        · rename_i hnil
          simp [hnil]
        · simp
  rw [words, hfrom]
  simp

/-! ## Counting a letter -/

/-- The characters of the names of an item. -/
def ImportItem.letters (item : ImportItem) : Chars := item.symbol ++ item.rename.getD []

variable {item : ImportItem}

theorem count_readItem (h : readItem text = some item) :
    item.letters.count 'f' = text.count 'f' := by
  rw [← @count_words isNamePart 'f' (by decide) text]
  unfold readItem at h
  split at h
  · rename_i symbol hwords
    split at h
    · cases h
      rw [hwords]
      simp [ImportItem.letters]
    · cases h
  · rename_i symbol keyword rename hwords
    split at h
    · rename_i hvalid
      simp only [Bool.and_eq_true, decide_eq_true_iff] at hvalid
      cases h
      rw [hwords, hvalid.1.1]
      have has : ("as".toList).count 'f' = 0 := by decide
      simp only [ImportItem.letters, Option.getD_some, List.flatten_cons, List.flatten_nil,
        List.count_append, List.append_nil, has]
      omega
    · cases h
  · cases h

variable {items : List ImportItem} {texts : List Chars}

theorem count_mapM_readItem (h : texts.mapM readItem = some items) :
    (items.flatMap ImportItem.letters).count 'f' = texts.flatten.count 'f' := by
  induction texts generalizing items with
  | nil =>
    rw [List.mapM_nil] at h
    cases h
    rfl
  | cons text rest ih =>
    rw [List.mapM_cons] at h
    obtain ⟨item, hitem, hrest⟩ := Option.bind_eq_some_iff.1 h
    obtain ⟨others, hothers, heq⟩ := Option.bind_eq_some_iff.1 hrest
    cases heq
    rw [List.flatMap_cons, List.flatten_cons, List.count_append, List.count_append, ih hothers,
      count_readItem hitem]

/-! ## Entries -/

theorem isNamePart_of_isWhitespace (c : Char) (h : isWhitespace c = true) : isNamePart c = false := by
  rw [isNamePart, h]
  rfl

theorem readItem_trim (text : Chars) : readItem (trim text) = readItem text := by
  unfold readItem
  rw [words_trim isNamePart_of_isWhitespace]

theorem readItem_space (text : Chars) : readItem (' ' :: text) = readItem text := by
  unfold readItem
  rw [words_cons_of_not (by decide)]

theorem ne_nil_of_readItem (h : readItem text = some item) : trim text ≠ [] := by
  intro hnil
  rw [← readItem_trim, hnil] at h
  cases h

theorem mapM_congr_readItem (f : Chars → Chars) (h : ∀ text, readItem (f text) = readItem text) :
    (texts.map f).mapM readItem = texts.mapM readItem := by
  induction texts with
  | nil => rfl
  | cons text rest ih => rw [List.map_cons, List.mapM_cons, List.mapM_cons, ih, h]

theorem forall_readItem (h : texts.mapM readItem = some items) :
    ∀ text ∈ texts, ∃ item, readItem text = some item := by
  induction texts generalizing items with
  | nil => exact fun _ hmem => absurd hmem List.not_mem_nil
  | cons text rest ih =>
    rw [List.mapM_cons] at h
    obtain ⟨item, hitem, hrest⟩ := Option.bind_eq_some_iff.1 h
    obtain ⟨others, hothers, -⟩ := Option.bind_eq_some_iff.1 hrest
    exact List.forall_mem_cons.2 ⟨⟨item, hitem⟩, ih hothers⟩

/-- An entry: between commas, without white space around it, and not empty. -/
structure IsEntry (entry : Chars) : Prop where
  noComma : ',' ∉ entry
  trimmed : trim entry = entry
  nonempty : entry ≠ []

theorem isEntry_of_mem {names : Chars} (h : entry ∈ importEntries names) : IsEntry entry := by
  unfold importEntries at h
  rw [List.mem_filter, List.mem_map] at h
  obtain ⟨⟨part, hpart, rfl⟩, hne⟩ := h
  refine ⟨?_, trim_trim part, by simpa using hne⟩
  intro hmem
  obtain ⟨before, after, hsplit, -⟩ := exists_trim part
  apply notMem_splitAtEvery hpart
  rw [hsplit]
  exact List.mem_append_right _ (List.mem_append_left _ hmem)

/-- Where every name is read, the entries are the parts between the commas. -/
theorem importEntries_eq {names : Chars} (h : (splitAtEvery ',' names).mapM readItem = some items) :
    importEntries names = (splitAtEvery ',' names).map trim
      ∧ (importEntries names).mapM readItem = some items := by
  have hentries : importEntries names = (splitAtEvery ',' names).map trim := by
    unfold importEntries
    rw [List.filter_eq_self]
    intro entry hentry
    obtain ⟨part, hpart, rfl⟩ := List.mem_map.1 hentry
    obtain ⟨item, hitem⟩ := forall_readItem h part hpart
    exact decide_eq_true (ne_nil_of_readItem hitem)
  refine ⟨hentries, ?_⟩
  rw [hentries, mapM_congr_readItem trim readItem_trim, h]

theorem count_importEntries (names : Chars) :
    (importEntries names).flatten.count 'f' = names.count 'f' := by
  unfold importEntries
  rw [← @count_splitAtEvery ',' 'f' (by decide) names]
  generalize splitAtEvery ',' names = parts
  induction parts with
  | nil => rfl
  | cons part rest ih =>
    have hpart := @count_trim 'f' (by decide) part
    rw [List.map_cons, List.flatten_cons, List.count_append, ← ih, ← hpart]
    by_cases hnil : trim part = []
    · rw [List.filter_cons_of_neg (by simp [hnil]), hnil]
      simp
    · rw [List.filter_cons_of_pos (by simp [hnil]), List.flatten_cons, List.count_append]

/-! ## Groups -/

theorem addToGroup_perm {β : Type} (f : Chars → Chars → β) (module name : Chars)
    (groups : List (Chars × List Chars)) :
    ((addToGroup module name groups).flatMap fun group => group.2.map (f group.1)).Perm
      ((groups.flatMap fun group => group.2.map (f group.1)) ++ [f module name]) := by
  induction groups with
  | nil => exact List.Perm.refl _
  | cons group rest ih =>
    obtain ⟨other, names⟩ := group
    rw [addToGroup]
    split
    · rename_i hsame
      rw [List.flatMap_cons, List.flatMap_cons, List.map_append, hsame, List.append_assoc,
        List.append_assoc]
      exact List.Perm.append_left _ List.perm_append_comm
    · rw [List.flatMap_cons, List.flatMap_cons, List.append_assoc]
      exact List.Perm.append_left _ ih

/-- What every group has: a module that satisfies `P`, and names that satisfy `Q`. -/
theorem forall_addToGroup {P Q : Chars → Prop} {module name : Chars}
    {groups : List (Chars × List Chars)} (hmodule : P module) (hname : Q name)
    (h : ∀ group ∈ groups, P group.1 ∧ group.2 ≠ [] ∧ ∀ name ∈ group.2, Q name) :
    ∀ group ∈ addToGroup module name groups, P group.1 ∧ group.2 ≠ [] ∧ ∀ name ∈ group.2, Q name := by
  induction groups with
  | nil =>
    intro group hgroup
    rw [addToGroup, List.mem_singleton] at hgroup
    rw [hgroup]
    exact ⟨hmodule, List.cons_ne_nil _ _, List.forall_mem_singleton.2 hname⟩
  | cons group rest ih =>
    obtain ⟨other, names⟩ := group
    rw [List.forall_mem_cons] at h
    rw [addToGroup]
    split
    · refine List.forall_mem_cons.2 ⟨⟨h.1.1, ?_, ?_⟩, h.2⟩
      · exact List.append_ne_nil_of_right_ne_nil _ (List.cons_ne_nil _ _)
      · intro name' hname'
        rcases List.mem_append.1 hname' with hmem | hmem
        · exact h.1.2.2 name' hmem
        · rw [List.mem_singleton.1 hmem]
          exact hname
    · exact List.forall_mem_cons.2 ⟨h.1, ih h.2⟩

section

variable {target : PythonTarget} {module names : Chars}

theorem ownerOrModule_mem {symbol : Chars} (hmodule : module ∈ typingModules) :
    ownerOrModule target module symbol ∈ typingModules := by
  unfold ownerOrModule
  cases howner : target.stdlibOwner symbol with
  | none => exact hmodule
  | some owner => exact PythonTarget.stdlibOwner_mem howner

theorem groupedNames_spec {β : Type} (f : Chars → Chars → β) (hmodule : module ∈ typingModules) :
    ((groupedNames target module names).flatMap fun group => group.2.map (f group.1)).Perm
        ((importEntries names).map fun entry =>
          f (ownerOrModule target module (importedSymbol entry)) entry)
      ∧ ∀ group ∈ groupedNames target module names, group.1 ∈ typingModules ∧ group.2 ≠ []
        ∧ ∀ entry ∈ group.2, entry ∈ importEntries names := by
  unfold groupedNames
  have hrun : ∀ (entries : List Chars) (groups : List (Chars × List Chars)),
      (∀ entry ∈ entries, entry ∈ importEntries names) →
      (∀ group ∈ groups, group.1 ∈ typingModules ∧ group.2 ≠ []
        ∧ ∀ entry ∈ group.2, entry ∈ importEntries names) →
      ((entries.foldl (fun groups entry =>
            addToGroup (ownerOrModule target module (importedSymbol entry)) entry groups)
          groups).flatMap fun group => group.2.map (f group.1)).Perm
          ((groups.flatMap fun group => group.2.map (f group.1))
            ++ entries.map fun entry =>
              f (ownerOrModule target module (importedSymbol entry)) entry)
        ∧ ∀ group ∈ entries.foldl (fun groups entry =>
            addToGroup (ownerOrModule target module (importedSymbol entry)) entry groups) groups,
          group.1 ∈ typingModules ∧ group.2 ≠ []
            ∧ ∀ entry ∈ group.2, entry ∈ importEntries names := by
    intro entries
    induction entries with
    | nil =>
      intro groups _ hgroups
      refine ⟨?_, hgroups⟩
      rw [List.map_nil, List.append_nil]
      exact List.Perm.refl _
    | cons entry rest ih =>
      intro groups hentries hgroups
      rw [List.forall_mem_cons] at hentries
      obtain ⟨hperm, hall⟩ := ih _ hentries.2
        (forall_addToGroup (ownerOrModule_mem hmodule) hentries.1 hgroups)
      refine ⟨hperm.trans ?_, hall⟩
      rw [List.map_cons, List.append_cons]
      exact List.Perm.append_right _ (addToGroup_perm f _ _ _)
  have h := hrun (importEntries names) [] (fun _ hentry => hentry)
    (fun _ hmem => absurd hmem List.not_mem_nil)
  exact h

end

/-! ## Lines and their indentation -/

/-- A line with the white space around it. -/
structure LineParts (line start gap : Chars) : Prop where
  eq : line = start ++ (trim line ++ gap)
  startSpace : ∀ c ∈ start, isWhitespace c = true
  gapSpace : ∀ c ∈ gap, isWhitespace c = true
  indentation : line.takeWhile isWhitespace = start
  ends : trimEnd line = line ↔ gap = []

theorem exists_parts {line rest : Chars} (h : trim line = 'f' :: rest) :
    ∃ start gap, LineParts line start gap := by
  obtain ⟨start, gap, hline, hstart, hgap⟩ := exists_trim line
  refine ⟨start, gap, hline, hstart, hgap, ?_, ?_⟩
  · rw [hline, h, List.takeWhile_append_of_pos hstart, List.cons_append,
      List.takeWhile_cons_of_neg (by decide), List.append_nil]
  · obtain ⟨c, hc⟩ : ∃ c, (trim line).getLast? = some c := by
      rw [h]
      exact ⟨_, List.getLast?_eq_some_getLast (List.cons_ne_nil _ _)⟩
    obtain ⟨before, hbefore⟩ := List.getLast?_eq_some_iff.1 hc
    have hspace := getLast?_trim hc
    have hend : trimEnd line = start ++ trim line := by
      conv_lhs => rw [hline, ← List.append_assoc, trimEnd_append hgap]
      rw [hbefore]
      unfold trimEnd
      rw [← List.append_assoc, List.reverse_append, List.reverse_singleton, List.singleton_append,
        List.dropWhile_cons_of_neg (by rw [hspace]; exact Bool.false_ne_true), List.reverse_cons,
        List.reverse_reverse]
    rw [hend]
    conv_lhs => rhs; rw [hline, ← List.append_assoc]
    constructor
    · intro hsame
      exact List.append_cancel_left (hsame.symm.trans (List.append_nil _).symm)
    · intro hnil
      rw [hnil, List.append_nil]

variable {entries : List Chars}

/-- The entries of a line, with a blank behind each comma, end with the last entry. -/
theorem getLast?_joinTexts (hne : entries ≠ []) (h : ∀ entry ∈ entries, IsEntry entry) :
    ∃ before c, joinTexts [',', ' '] entries = before ++ [c] ∧ isWhitespace c = false := by
  induction entries with
  | nil => exact absurd rfl hne
  | cons entry rest ih =>
    rw [List.forall_mem_cons] at h
    by_cases hrest : rest = []
    · obtain ⟨c, hc⟩ : ∃ c, entry.getLast? = some c :=
        ⟨_, List.getLast?_eq_some_getLast h.1.nonempty⟩
      obtain ⟨before, hbefore⟩ := List.getLast?_eq_some_iff.1 hc
      refine ⟨before, c, by rw [hrest]; exact hbefore, ?_⟩
      rw [← h.1.trimmed] at hc
      exact getLast?_trim hc
    · obtain ⟨before, c, hjoin, hc⟩ := ih hrest h.2
      refine ⟨entry ++ [',', ' '] ++ before, c, ?_, hc⟩
      rw [joinTexts_cons hrest, hjoin, List.append_assoc _ before]

theorem trim_importLine {indentation : Chars} (hindentation : ∀ c ∈ indentation, isWhitespace c = true)
    {module : Chars} {entries : List Chars} (hne : entries ≠ [])
    (h : ∀ entry ∈ entries, IsEntry entry) :
    trim (importLine indentation (module, entries))
      = importText module (joinTexts [',', ' '] entries) := by
  obtain ⟨before, c, hjoin, hc⟩ := getLast?_joinTexts hne h
  have hsolid : Solid (importText module (joinTexts [',', ' '] entries)) := by
    constructor
    · exact ⟨'f', "rom ".toList ++ module ++ " import ".toList ++ joinTexts [',', ' '] entries, rfl,
        by decide⟩
    · refine ⟨c, "from ".toList ++ module ++ " import ".toList ++ before, ?_, hc⟩
      unfold importText
      rw [hjoin, List.append_assoc _ before]
  have hline : importLine indentation (module, entries)
      = indentation ++ (importText module (joinTexts [',', ' '] entries) ++ []) := by
    unfold importLine importText
    simp only [List.append_assoc, List.append_nil]
  rw [hline, trim_spaced_of_forall _ _ _ hindentation (fun _ hmem => absurd hmem List.not_mem_nil),
    hsolid.trim_eq]

/-- The line of a group imports the names of the group from its module. -/
theorem readImport_importLine {indentation : Chars}
    (hindentation : ∀ c ∈ indentation, isWhitespace c = true) {module : Chars}
    (hmodule : module ∈ typingModules) (hne : entries ≠ []) (h : ∀ entry ∈ entries, IsEntry entry)
    (hitems : entries.mapM readItem = some items) :
    readImport (importLine indentation (module, entries))
      = some ⟨indentation, module, joinTexts [',', ' '] entries, items⟩ := by
  rw [readImport_eq_some]
  refine ⟨trim_importLine hindentation hne h, space_notMem_typingModules hmodule, ?_, ?_⟩
  · obtain ⟨entry, rest, rfl⟩ := List.exists_cons_of_ne_nil hne
    rw [splitAtEvery_joinTexts fun text htext => (h text htext).noComma, ← hitems, List.mapM_cons,
      List.mapM_cons, mapM_congr_readItem _ readItem_space]
  · have hline : importLine indentation (module, entries)
        = indentation ++ ('f' :: ("rom ".toList ++ module ++ " import ".toList
          ++ joinTexts [',', ' '] entries)) := by
      unfold importLine
      simp only [List.append_assoc]
      rfl
    rw [hline, List.takeWhile_append_of_pos hindentation,
      List.takeWhile_cons_of_neg (by decide), List.append_nil]

/-! ## Symbols -/

theorem not_isWord_of_words_eq_nil {isWord : Char → Bool} (h : words isWord text = []) :
    ∀ c ∈ text, isWord c = false := by
  intro c hc
  rw [← Bool.not_eq_true]
  intro hword
  have hcount := count_words hword text
  rw [h] at hcount
  exact List.count_eq_zero.1 hcount.symm hc

theorem words_of_forall {isWord : Char → Bool} (h : ∀ c ∈ text, isWord c = true) (hne : text ≠ []) :
    words isWord text = [text] := by
  have hfrom : ∀ current, wordsFrom isWord current text = endWord (text.reverse ++ current) := by
    clear hne
    induction text with
    | nil =>
      intro current
      rfl
    | cons c rest ih =>
      intro current
      rw [List.forall_mem_cons] at h
      rw [wordsFrom, if_pos h.1, ih h.2]
      simp
  rw [words, hfrom, List.append_nil, endWord, if_neg (by simpa using hne), List.reverse_reverse]

theorem head?_of_trim_eq (h : trim text = text) {c : Char} {rest : Chars}
    (htext : text = c :: rest) : isWhitespace c = false := by
  rw [← Bool.not_eq_true]
  intro hc
  have hspaced := trim_spaced_of_forall [c] rest [] (by simpa using hc) (by simp)
  rw [List.append_nil, List.singleton_append, ← htext, h] at hspaced
  obtain ⟨before, after, hrest, -, -⟩ := exists_trim rest
  have hlength := congrArg List.length hrest
  rw [← hspaced, htext, List.length_append, List.length_append, List.length_cons] at hlength
  omega

/-- A trimmed text of one word is the word. -/
theorem eq_of_words_singleton {word : Chars} (htrim : trim text = text) (hcomma : ',' ∉ text)
    (h : words isNamePart text = [word]) : text = word := by
  by_cases hall : ∀ c ∈ text, isNamePart c = true
  · have hne : text ≠ [] := by
      rintro rfl
      cases h
    rw [words_of_forall hall hne] at h
    exact (List.cons.inj h).1
  · simp only [not_forall, Bool.not_eq_true] at hall
    obtain ⟨c, hc, hpart⟩ := hall
    obtain ⟨before, after, htext⟩ := List.append_of_mem hc
    have hspace : ∀ d ∈ text, isNamePart d = false → isWhitespace d = true := by
      intro d hd hnot
      unfold isNamePart at hnot
      rw [Bool.and_eq_false_iff, Bool.not_eq_false', decide_eq_false_iff_not, not_not] at hnot
      rcases hnot with hspace | rfl
      · exact hspace
      · exact absurd hd hcomma
    rw [htext, words_append hpart] at h
    -- the word stands on one side of the space, and the other side is all space
    rcases List.append_eq_singleton_iff.1 h with ⟨hnone, -⟩ | ⟨-, hnone⟩
    · have hblank := not_isWord_of_words_eq_nil hnone
      cases hbefore : before with
      | nil =>
        rw [hbefore, List.nil_append] at htext
        have hfirst := head?_of_trim_eq htrim htext
        rw [hspace c hc hpart] at hfirst
        cases hfirst
      | cons d rest =>
        rw [hbefore] at htext
        have hfirst := head?_of_trim_eq htrim htext
        have hd : d ∈ before := hbefore ▸ List.mem_cons_self
        rw [hspace d (by rw [htext]; exact List.mem_cons_self) (hblank d hd)] at hfirst
        cases hfirst
    · have hblank := not_isWord_of_words_eq_nil hnone
      obtain ⟨d, hd⟩ : ∃ d, (c :: after).getLast? = some d :=
        ⟨_, List.getLast?_eq_some_getLast (List.cons_ne_nil _ _)⟩
      have hlast : text.getLast? = some d := by
        rw [htext, List.getLast?_append_of_ne_nil _ (List.cons_ne_nil _ _), hd]
      have hmem : d ∈ text := List.mem_of_getLast? hlast
      have hnot : isNamePart d = false := by
        rcases List.mem_cons.1 (List.mem_of_getLast? hd) with rfl | hafter
        · exact hpart
        · exact hblank d hafter
      rw [← htrim] at hlast
      have hsolid := getLast?_trim hlast
      rw [hspace d hmem hnot] at hsolid
      cases hsolid

/-- Only single words have owners. -/
theorem stdlibOwner_eq_none {target : PythonTarget} (h : (words isNamePart text).length ≠ 1) :
    target.stdlibOwner text = none := by
  have hnone : ∀ symbols : List Chars,
      (∀ symbol ∈ symbols, (words isNamePart symbol).length = 1) → text ∉ symbols :=
    fun symbols hall hmem => h (hall text hmem)
  have hother : ∀ symbol : Chars, (words isNamePart symbol).length = 1 → text ≠ symbol := by
    rintro symbol hone rfl
    exact h hone
  unfold PythonTarget.stdlibOwner
  rw [if_neg (hother _ (by decide)), if_neg (hnone _ (by decide)), if_neg (hother _ (by decide)),
    if_neg (hnone _ (by decide)), if_neg (hnone _ (by decide)), if_neg (hother _ (by decide))]

theorem all_isNameCharacter {word : Chars} (h : isImportable word = true) :
    ∀ c ∈ word, isNameCharacter c = true := by
  unfold isImportable at h
  rw [Bool.and_eq_true] at h
  exact List.all_eq_true.1 h.1

theorem ne_as_of_isImportable {word : Chars} (h : isImportable word = true) : word ≠ "as".toList := by
  rintro rfl
  revert h
  decide

/-- What stands before ` as ` is the name. -/
theorem words_before_as {before after symbol rename : Chars}
    (hentry : entry = before ++ " as ".toList ++ after)
    (h : words isNamePart entry = [symbol, "as".toList, rename])
    (hsymbol : isImportable symbol = true) (hrename : isImportable rename = true) :
    words isNamePart before = [symbol] := by
  have has : words isNamePart "as".toList = ["as".toList] := by decide
  have htext : entry = before ++ ' ' :: ("as".toList ++ ' ' :: after) := by
    rw [hentry, List.append_assoc]
    rfl
  rw [htext, words_append (by decide), words_append (by decide), has] at h
  match hbefore : words isNamePart before with
  | [] =>
    rw [hbefore] at h
    exact absurd (List.cons.inj h).1.symm (ne_as_of_isImportable hsymbol)
  | [word] =>
    rw [hbefore] at h
    rw [(List.cons.inj h).1]
  | word :: word' :: [] =>
    rw [hbefore] at h
    have htail := (List.cons.inj (List.cons.inj h).2).2
    exact absurd (List.cons.inj htail).1.symm (ne_as_of_isImportable hrename)
  | word :: word' :: word'' :: rest =>
    rw [hbefore] at h
    have hlength := congrArg List.length h
    simp only [List.length_append, List.length_cons, List.length_nil] at hlength
    omega

/-- The module that an entry is imported from is the owner of its symbol, unless its alias is
overlooked. -/
theorem ownerOrModule_importedSymbol {target : PythonTarget} {module : Chars}
    (hentry : IsEntry entry) (h : readItem entry = some item) :
    ownerOrModule target module (importedSymbol entry) = ownerOrModule target module item.symbol
      ↔ item.rename = none ∨ (splitAtFirst " as ".toList entry).isSome = true
        ∨ ownerOrModule target module item.symbol = module := by
  unfold readItem at h
  split at h
  · rename_i symbol hwords
    split at h
    · cases h
      have hsame := eq_of_words_singleton hentry.trimmed hentry.noComma hwords
      have hspace : ' ' ∉ entry := by
        intro hmem
        have hname := all_isNameCharacter ‹isImportable symbol = true› ' ' (hsame ▸ hmem)
        revert hname
        decide
      have hnone : splitAtFirst " as ".toList entry = none := by
        rw [splitAtFirst_eq_none (by decide)]
        intro before after htext
        apply hspace
        rw [htext]
        simp
      refine iff_of_true ?_ (.inl rfl)
      rw [importedSymbol, hnone, hsame]
    · cases h
  · rename_i symbol keyword rename hwords
    split at h
    · rename_i hvalid
      simp only [Bool.and_eq_true, decide_eq_true_iff] at hvalid
      cases h
      cases hsplit : splitAtFirst " as ".toList entry with
      | none =>
        have hnoOwner : target.stdlibOwner entry = none := by
          apply stdlibOwner_eq_none
          rw [hwords]
          simp
        rw [importedSymbol, hsplit]
        simp only [ownerOrModule, hnoOwner, Option.getD_none]
        constructor
        · intro heq
          exact .inr (.inr heq.symm)
        · rintro (hnone | hsome | heq)
          · cases hnone
          · cases hsome
          · exact heq.symm
      | some parts =>
        obtain ⟨before, after⟩ := parts
        have htext := splitAtFirst_eq_some hsplit
        refine iff_of_true ?_ (.inr (.inl rfl))
        have hbefore := words_before_as htext (hvalid.1.1 ▸ hwords) hvalid.1.2 hvalid.2
        have hcomma : ',' ∉ trim before := by
          intro hmem
          obtain ⟨start, gap, hcut, -⟩ := exists_trim before
          apply hentry.noComma
          rw [htext, hcut]
          simp [hmem]
        have hsymbol := eq_of_words_singleton (trim_trim before) hcomma
          (by rw [words_trim isNamePart_of_isWhitespace, hbefore])
        rw [importedSymbol, hsplit]
        exact congrArg (ownerOrModule target module) hsymbol
    · cases h
  · cases h

/-! ## What is produced -/

section

variable {target : PythonTarget} {module names : Chars}

theorem count_typingModules (h : module ∈ typingModules) : module.count 'f' = 0 := by
  have hall : ∀ module ∈ typingModules, module.count 'f' = 0 := by decide
  exact hall module h

theorem count_importText (h : module ∈ typingModules) (names : Chars) :
    (importText module names).count 'f' = 1 + names.count 'f' := by
  unfold importText
  have hfrom : ("from ".toList).count 'f' = 1 := by decide
  have himport : (" import ".toList).count 'f' = 0 := by decide
  rw [List.count_append, List.count_append, List.count_append, hfrom, himport,
    count_typingModules h]

theorem count_importLine (indentation : Chars) (h : module ∈ typingModules) (entries : List Chars) :
    (importLine indentation (module, entries)).count 'f'
      = indentation.count 'f' + 1 + entries.flatten.count 'f' := by
  have hline : importLine indentation (module, entries)
      = indentation ++ importText module (joinTexts [',', ' '] entries) := by
    unfold importLine importText
    simp only [List.append_assoc]
  rw [hline, List.count_append, count_importText h, count_joinTexts (by decide) (by decide)]
  omega

theorem groupedNames_flatten (hmodule : module ∈ typingModules) :
    (((groupedNames target module names).flatMap Prod.snd).flatten).count 'f'
      = names.count 'f' := by
  have hperm := (@groupedNames_spec target module names Chars (fun _ entry => entry) hmodule).1
  simp only [List.map_id'] at hperm
  rw [← count_importEntries names]
  exact hperm.flatten.count_eq 'f'

/-- A letter in the indentation shows in the lines. -/
theorem trim_normalizeImportFromLine_ne {indentation : Chars} (hmodule : module ∈ typingModules)
    (h : 0 < indentation.count 'f') :
    (normalizeImportFromLine target indentation module names).map trim
      ≠ [importText module names] := by
  intro hsame
  have hcount := @groupedNames_flatten target module names hmodule
  obtain ⟨-, hgroups⟩ := @groupedNames_spec target module names Chars (fun _ entry => entry) hmodule
  unfold normalizeImportFromLine at hsame
  match hgrouped : groupedNames target module names with
  | [] =>
    rw [hgrouped] at hsame
    cases hsame
  | [group] =>
    rw [hgrouped] at hsame hcount hgroups
    have hline := congrArg (List.count 'f') (List.cons.inj hsame).1
    have hgroup := (hgroups group List.mem_cons_self).1
    rw [count_trim (by decide), count_importLine indentation hgroup, count_importText hmodule] at hline
    rw [List.flatMap_singleton] at hcount
    omega
  | group :: group' :: rest =>
    rw [hgrouped] at hsame
    cases (List.cons.inj hsame).2

/-- All names have one module: there is one group. -/
theorem groupedNames_of_forall
    (h : ∀ entry ∈ importEntries names, ownerOrModule target module (importedSymbol entry) = module)
    (hne : importEntries names ≠ []) :
    groupedNames target module names = [(module, importEntries names)] := by
  have hrun : ∀ entries before : List Chars,
      (∀ entry ∈ entries, ownerOrModule target module (importedSymbol entry) = module) →
      entries.foldl (fun groups entry =>
          addToGroup (ownerOrModule target module (importedSymbol entry)) entry groups)
        [(module, before)] = [(module, before ++ entries)] := by
    intro entries
    induction entries with
    | nil =>
      intro before _
      rw [List.append_nil]
      rfl
    | cons entry rest ih =>
      intro before hall
      rw [List.forall_mem_cons] at hall
      rw [List.foldl_cons, hall.1, addToGroup, if_pos rfl, ih _ hall.2, List.append_assoc]
      rfl
  unfold groupedNames
  obtain ⟨entry, rest, hentries⟩ := List.exists_cons_of_ne_nil hne
  rw [hentries] at h ⊢
  rw [List.forall_mem_cons] at h
  rw [List.foldl_cons, h.1, addToGroup, hrun rest _ h.2]
  rfl

theorem importEntries_isEntry : ∀ entry ∈ importEntries names, IsEntry entry :=
  fun _ hentry => isEntry_of_mem hentry

/-- The produced line is the line itself exactly if it is written the way it is produced. -/
theorem trim_normalizeImportFromLine_iff {indentation : Chars}
    (hindentation : ∀ c ∈ indentation, isWhitespace c = true) (hmodule : module ∈ typingModules) :
    (normalizeImportFromLine target indentation module names).map trim = [importText module names]
      ↔ names = joinTexts [',', ' '] (importEntries names) ∧ importEntries names ≠ []
        ∧ ∀ entry ∈ importEntries names,
          ownerOrModule target module (importedSymbol entry) = module := by
  constructor
  · intro hsame
    obtain ⟨hperm, hgroups⟩ :=
      @groupedNames_spec target module names (Chars × Chars) Prod.mk hmodule
    unfold normalizeImportFromLine at hsame
    match hgrouped : groupedNames target module names with
    | [] =>
      rw [hgrouped] at hsame
      cases hsame
    | [group] =>
      obtain ⟨module', entries⟩ := group
      rw [hgrouped] at hsame hgroups hperm
      obtain ⟨hmodule', hne, hentries⟩ := hgroups _ List.mem_cons_self
      simp only at hmodule' hne hentries
      have htrim := @trim_importLine indentation hindentation module' entries hne
        fun entry hentry => importEntries_isEntry entry (hentries entry hentry)
      have htext : importText module' (joinTexts [',', ' '] entries) = importText module names := by
        rw [← htrim]
        exact (List.cons.inj hsame).1
      have hread : typingImport (importText module' (joinTexts [',', ' '] entries))
          = some (module', joinTexts [',', ' '] entries) :=
        typingImport_eq_some.2 ⟨rfl, hmodule'⟩
      rw [htext, typingImport_eq_some.2 ⟨rfl, hmodule⟩, Option.some.injEq, Prod.mk.injEq] at hread
      rw [List.flatMap_singleton] at hperm
      have hkeys : ∀ entry ∈ importEntries names,
          ownerOrModule target module (importedSymbol entry) = module := by
        intro entry hentry
        have hmem := hperm.symm.subset (List.mem_map_of_mem hentry)
        obtain ⟨entry', -, hpair⟩ := List.mem_map.1 hmem
        rw [← (Prod.mk.inj hpair).1, hread.1]
      have hnonempty : importEntries names ≠ [] := by
        obtain ⟨entry, rest, rfl⟩ := List.exists_cons_of_ne_nil hne
        exact List.ne_nil_of_mem (hentries entry List.mem_cons_self)
      refine ⟨?_, hnonempty, hkeys⟩
      rw [groupedNames_of_forall hkeys hnonempty, List.singleton_inj, Prod.mk.injEq] at hgrouped
      rw [hgrouped.2]
      exact hread.2
    | group :: group' :: rest =>
      rw [hgrouped] at hsame
      cases (List.cons.inj hsame).2
  · rintro ⟨hnames, hne, hkeys⟩
    unfold normalizeImportFromLine
    rw [groupedNames_of_forall hkeys hne, List.map_singleton, List.map_singleton,
      trim_importLine hindentation hne importEntries_isEntry, ← hnames]

end

/-! ## The indentation -/

section

variable {target : PythonTarget} {tokenize : Chars → List PyToken} {line module names start gap : Chars}

theorem byteLen_parts (h : LineParts line start gap) :
    byteLen line - byteLen (trim line) = byteLen start + byteLen gap := by
  have hlength := congrArg byteLen h.eq
  rw [byteLen_append, byteLen_append] at hlength
  omega

/-- Without white space at the end, the indentation is that of the line. -/
theorem normalizeLine_of_ends (h : LineParts line start gap) (hgap : gap = [])
    (himport : typingImport (trim line) = some (module, names)) :
    normalizeTargetCompatibilityLine target tokenize line
      = some (if (normalizeImportFromLine target start module names).map trim ≠ [trim line] then
          normalizeImportFromLine target start module names
        else [normalizeTargetCompatibilityText target tokenize line]) := by
  have hsplit : splitAtByte line (byteLen line - byteLen (trim line)) = some (start, trim line) := by
    have hline := h.eq
    rw [hgap, List.append_nil] at hline
    rw [byteLen_parts h, hgap, byteLen, Nat.add_zero]
    conv_lhs => rw [hline]
    exact splitAtByte_append start (trim line)
  unfold normalizeTargetCompatibilityLine
  rw [himport]
  simp only
  rw [hsplit, Option.map_some]

/-- With white space at the end, a part of the line is taken for indentation. -/
theorem normalizeLine_of_gap (h : LineParts line start gap) (hgap : gap ≠ [])
    (himport : typingImport (trim line) = some (module, names)) :
    normalizeTargetCompatibilityLine target tokenize line = none
      ∨ ∃ indentation, 0 < indentation.count 'f'
        ∧ normalizeTargetCompatibilityLine target tokenize line
          = some (normalizeImportFromLine target indentation module names) := by
  obtain ⟨htext, hmodule⟩ := typingImport_eq_some.1 himport
  unfold normalizeTargetCompatibilityLine
  rw [himport]
  simp only
  cases hsplit : splitAtByte line (byteLen line - byteLen (trim line)) with
  | none => exact .inl rfl
  | some parts =>
    obtain ⟨indentation, rest⟩ := parts
    obtain ⟨hline, hlength⟩ := splitAtByte_eq_some hsplit
    have hpos := byteLen_lt_of_ne_nil hgap
    rw [byteLen_parts h] at hlength
    have hcount : 0 < indentation.count 'f' := by
      have hsame := h.eq
      rw [hline] at hsame
      rcases List.append_eq_append_iff.1 hsame with ⟨middle, hstart, -⟩ | ⟨middle, hstart, hrest⟩
      · rw [hstart, byteLen_append] at hlength
        omega
      · cases middle with
        | nil =>
          rw [List.append_nil] at hstart
          rw [hstart] at hlength
          omega
        | cons c middle =>
          have hc : c = 'f' := by
            rw [← hline, htext] at hrest
            exact (List.cons.inj hrest).1.symm
          rw [hstart, hc, List.count_append, List.count_cons_self]
          omega
    refine .inr ⟨indentation, hcount, ?_⟩
    rw [Option.map_some]
    simp only
    rw [if_pos]
    rw [htext]
    exact trim_normalizeImportFromLine_ne hmodule hcount

theorem exists_parts_of_import (himport : typingImport (trim line) = some (module, names)) :
    ∃ start gap, LineParts line start gap := by
  obtain ⟨htext, -⟩ := typingImport_eq_some.1 himport
  exact @exists_parts line ("rom ".toList ++ module ++ " import ".toList ++ names) htext

/-- When a line of a literal stays as it is. -/
theorem normalizeLine_literal_iff (h : Tokenizes tokenize) :
    normalizeTargetCompatibilityLine target tokenize line = some [line]
      ↔ StaysInLiteral target tokenize line := by
  have htextIff := @normalizeTargetCompatibilityText_eq_iff target line tokenize h
  cases himport : typingImport (trim line) with
  | none =>
    have hline : normalizeTargetCompatibilityLine target tokenize line
        = some [normalizeTargetCompatibilityText target tokenize line] := by
      unfold normalizeTargetCompatibilityLine
      rw [himport]
    rw [hline, Option.some.injEq, List.singleton_inj, htextIff]
    constructor
    · intro hnone
      refine ⟨?_, hnone⟩
      intro module names hsome
      rw [himport] at hsome
      cases hsome
    · exact fun hstays => hstays.references
  | some parts =>
    obtain ⟨module, names⟩ := parts
    obtain ⟨htext, hmodule⟩ := typingImport_eq_some.1 himport
    obtain ⟨start, gap, hparts⟩ := exists_parts_of_import himport
    by_cases hgap : gap = []
    · have hiff := @trim_normalizeImportFromLine_iff target module names start hparts.startSpace
        hmodule
      rw [normalizeLine_of_ends hparts hgap himport, Option.some.injEq, htext]
      by_cases hsame : (normalizeImportFromLine target start module names).map trim
          = [importText module names]
      · rw [if_neg (not_not.2 hsame), List.singleton_inj, htextIff]
        constructor
        · intro hnone
          refine ⟨?_, hnone⟩
          intro module' names' hsome
          rw [himport, Option.some.injEq, Prod.mk.injEq] at hsome
          rcases hsome with ⟨rfl, rfl⟩
          exact ⟨hparts.ends.2 hgap, hiff.1 hsame⟩
        · exact fun hstays => hstays.references
      · rw [if_pos hsame]
        constructor
        · intro hline
          rw [hline, List.map_singleton, htext] at hsame
          exact absurd rfl hsame
        · intro hstays
          exact absurd (hiff.2 (hstays.imports module names himport).2) hsame
    · refine iff_of_false ?_ ?_
      · rcases @normalizeLine_of_gap target tokenize line module names start gap hparts hgap himport
          with hnone | ⟨indentation, hcount, hsome⟩
        · rw [hnone]
          intro hline
          cases hline
        · rw [hsome, Option.some.injEq]
          intro hline
          have hne := @trim_normalizeImportFromLine_ne target module names indentation hmodule hcount
          rw [hline, List.map_singleton, htext] at hne
          exact hne rfl
      · intro hstays
        exact hgap (hparts.ends.1 (hstays.imports module names himport).1)

end

/-! ## The names that are kept -/

/-- The item of an entry that is read. -/
def itemOf (entry : Chars) : ImportItem := (readItem entry).getD ⟨[], none⟩

theorem mapM_eq_map_itemOf (h : ∀ entry ∈ entries, ∃ item, readItem entry = some item) :
    entries.mapM readItem = some (entries.map itemOf) := by
  induction entries with
  | nil => rfl
  | cons entry rest ih =>
    rw [List.forall_mem_cons] at h
    obtain ⟨item, hitem⟩ := h.1
    have hitem' : itemOf entry = item := by rw [itemOf, hitem, Option.getD_some]
    rw [List.mapM_cons, ih h.2, hitem, List.map_cons, hitem']
    rfl

variable {read : List ImportedNames}

theorem map_some_injective {read' : List ImportedNames} (h : read.map some = read'.map some) :
    read = read' :=
  List.map_injective_iff.2 (fun _ _ heq => Option.some.inj heq) h

/-- A line that is read has no dot. -/
theorem notMem_dot {names : Chars} (h : (splitAtEvery ',' names).mapM readItem = some items) :
    '.' ∉ names := by
  intro hmem
  have hcount := @count_splitAtEvery ',' '.' (by decide) names
  have hpos : 0 < (splitAtEvery ',' names).flatten.count '.' := by
    rw [hcount]
    exact List.count_pos_iff.2 hmem
  obtain ⟨part, hpart, hdot⟩ := List.mem_flatten.1 (List.count_pos_iff.1 hpos)
  obtain ⟨item, hitem⟩ := forall_readItem h part hpart
  have hword : 0 < (words isNamePart part).flatten.count '.' := by
    rw [count_words (by decide)]
    exact List.count_pos_iff.2 hdot
  obtain ⟨word, hword, hdot⟩ := List.mem_flatten.1 (List.count_pos_iff.1 hword)
  have hname : ∀ {name : Chars}, isImportable name = true → '.' ∉ name := by
    intro name hname hmem
    have hcharacter := all_isNameCharacter hname '.' hmem
    revert hcharacter
    decide
  unfold readItem at hitem
  split at hitem
  · rename_i symbol hwords
    split at hitem
    · rename_i hvalid
      rw [hwords, List.mem_singleton] at hword
      rw [hword] at hdot
      exact hname hvalid hdot
    · cases hitem
  · rename_i symbol keyword rename hwords
    split at hitem
    · rename_i hvalid
      simp only [Bool.and_eq_true, decide_eq_true_iff] at hvalid
      rw [hwords] at hword
      simp only [List.mem_cons, List.not_mem_nil, or_false] at hword
      rcases hword with rfl | rfl | rfl
      · exact hname hvalid.1.2 hdot
      · rw [hvalid.1.1] at hdot
        revert hdot
        decide
      · exact hname hvalid.2 hdot
    · cases hitem
  · cases hitem

section

variable {target : PythonTarget} {tokenize : Chars → List PyToken} {line start gap : Chars}
  {source : ImportedNames}

/-- The names that are read from what is produced, when the indentation is right. -/
structure Produced (target : PythonTarget) (source : ImportedNames) (lines : List Chars)
    (read : List ImportedNames) : Prop where
  lines : lines.map readImport = read.map some
  indentation : ∀ imported ∈ read, imported.indentation = source.indentation
  names : (read.flatMap ImportedNames.imports).Perm
    ((importEntries source.names).map fun entry =>
      (ownerOrModule target source.module (importedSymbol entry), itemOf entry))

theorem exists_produced (h : Tokenizes tokenize) (hread : readImport line = some source)
    (hmodule : source.module ∈ typingModules) (hends : trimEnd line = line) :
    ∃ lines read, normalizeTargetCompatibilityLine target tokenize line = some lines
      ∧ Produced target source lines read := by
  obtain ⟨htext, -, hitems, hindentation⟩ := readImport_eq_some.1 hread
  have himport : typingImport (trim line) = some (source.module, source.names) :=
    typingImport_eq_some.2 ⟨htext, hmodule⟩
  obtain ⟨start, gap, hparts⟩ := exists_parts_of_import himport
  have hgap := hparts.ends.1 hends
  have hstart : source.indentation = start := hindentation.trans hparts.indentation
  obtain ⟨-, hentries⟩ := importEntries_eq hitems
  have hreadable := forall_readItem hentries
  have hsourceItems : source.items = (importEntries source.names).map itemOf := by
    rw [mapM_eq_map_itemOf hreadable] at hentries
    exact (Option.some.inj hentries).symm
  rw [normalizeLine_of_ends hparts hgap himport]
  by_cases hsame : (normalizeImportFromLine target start source.module source.names).map trim
      = [trim line]
  · -- the line stays as it is
    rw [htext] at hsame
    obtain ⟨-, -, hkeys⟩ := (trim_normalizeImportFromLine_iff hparts.startSpace hmodule).1 hsame
    rw [htext, if_neg (not_not.2 hsame)]
    have hdot : '.' ∉ line := by
      have hline := hparts.eq
      rw [htext] at hline
      have hspace : ∀ {space : Chars}, (∀ c ∈ space, isWhitespace c = true) → '.' ∉ space := by
        intro space hspace hmem
        have hdot := hspace '.' hmem
        revert hdot
        decide
      have hmodule' : '.' ∉ source.module := by
        have hall : ∀ module ∈ typingModules, '.' ∉ module := by decide
        exact hall _ hmodule
      rw [hline]
      unfold importText
      simp only [List.mem_append, not_or]
      exact ⟨hspace hparts.startSpace, ⟨⟨⟨by decide, hmodule'⟩, by decide⟩, notMem_dot hitems⟩,
        hspace hparts.gapSpace⟩
    have hkept : normalizeTargetCompatibilityText target tokenize line = line :=
      (normalizeTargetCompatibilityText_eq_iff h).2 (movedReferences_eq_nil h hdot)
    refine ⟨_, [source], rfl, ?_, ?_, ?_⟩
    · rw [hkept, List.map_singleton, List.map_singleton, hread]
    · exact List.forall_mem_singleton.2 rfl
    · rw [List.flatMap_singleton, ImportedNames.imports, hsourceItems, List.map_map]
      refine List.Perm.of_eq (List.map_congr_left ?_)
      intro entry hentry
      rw [Function.comp_apply, hkeys entry hentry]
  · rw [if_pos hsame]
    obtain ⟨hperm, hgroups⟩ := @groupedNames_spec target source.module source.names
      (Chars × ImportItem) (fun module entry => (module, itemOf entry)) hmodule
    refine ⟨_, (groupedNames target source.module source.names).map fun group =>
      ⟨start, group.1, joinTexts [',', ' '] group.2, group.2.map itemOf⟩, rfl, ?_, ?_, ?_⟩
    · unfold normalizeImportFromLine
      rw [List.map_map, List.map_map]
      apply List.map_congr_left
      intro group hgroup
      obtain ⟨hmodule', hne, hmem⟩ := hgroups group hgroup
      exact readImport_importLine hparts.startSpace hmodule' hne
        (fun entry hentry => isEntry_of_mem (hmem entry hentry))
        (mapM_eq_map_itemOf fun entry hentry => hreadable entry (hmem entry hentry))
    · intro imported himported
      obtain ⟨group, -, rfl⟩ := List.mem_map.1 himported
      exact hstart.symm
    · rw [List.flatMap_map]
      simp only [ImportedNames.imports, List.map_map]
      exact hperm

/-! ### Lines under a wrong indentation -/

theorem items_ne_nil (h : readImport line = some source) : source.items ≠ [] := by
  obtain ⟨-, -, hitems, -⟩ := readImport_eq_some.1 h
  intro hnil
  rw [hnil] at hitems
  obtain ⟨part, parts, hparts⟩ := List.exists_cons_of_ne_nil (splitAtEvery_ne_nil ',' source.names)
  rw [hparts, List.mapM_cons] at hitems
  obtain ⟨item, -, hrest⟩ := Option.bind_eq_some_iff.1 hitems
  obtain ⟨others, -, hcons⟩ := Option.bind_eq_some_iff.1 hrest
  cases hcons

theorem count_names (h : readImport line = some source) :
    (source.items.flatMap ImportItem.letters).count 'f' = source.names.count 'f' := by
  obtain ⟨-, -, hitems, -⟩ := readImport_eq_some.1 h
  rw [count_mapM_readItem hitems, count_splitAtEvery (by decide)]

theorem count_line (h : readImport line = some source) (hmodule : source.module ∈ typingModules) :
    line.count 'f' = 1 + (source.items.flatMap ImportItem.letters).count 'f' := by
  obtain ⟨htext, -, -, -⟩ := readImport_eq_some.1 h
  rw [count_names h, ← count_importText hmodule, ← htext, count_trim (by decide)]

theorem count_lines {lines : List Chars} (hread : lines.map readImport = read.map some)
    (hmodules : ∀ imported ∈ read, imported.module ∈ typingModules) : lines.flatten.count 'f'
      = lines.length + ((read.flatMap ImportedNames.items).flatMap ImportItem.letters).count 'f' := by
  induction lines generalizing read with
  | nil =>
    cases read with
    | nil => rfl
    | cons imported rest => cases hread
  | cons line lines ih =>
    cases read with
    | nil => cases hread
    | cons imported rest =>
      rw [List.map_cons, List.map_cons, List.cons.injEq] at hread
      rw [List.forall_mem_cons] at hmodules
      rw [List.flatten_cons, List.count_append, count_line hread.1 hmodules.1,
        ih hread.2 hmodules.2, List.flatMap_cons, List.flatMap_append, List.count_append,
        List.length_cons]
      omega

theorem count_normalizeImportFromLine {module names : Chars} (indentation : Chars)
    (hmodule : module ∈ typingModules) :
    (normalizeImportFromLine target indentation module names).flatten.count 'f'
      = (normalizeImportFromLine target indentation module names).length
          * (indentation.count 'f' + 1) + names.count 'f' := by
  obtain ⟨-, hgroups⟩ := @groupedNames_spec target module names Chars (fun _ entry => entry) hmodule
  rw [← @groupedNames_flatten target module names hmodule]
  unfold normalizeImportFromLine
  generalize groupedNames target module names = groups at hgroups
  induction groups with
  | nil => simp
  | cons group rest ih =>
    obtain ⟨module', entries⟩ := group
    rw [List.forall_mem_cons] at hgroups
    rw [List.map_cons, List.flatten_cons, List.count_append,
      count_importLine indentation hgroups.1.1, ih hgroups.2, List.flatMap_cons,
      List.flatten_append, List.count_append, List.length_cons, Nat.add_mul]
    simp only
    omega

/-- A letter in the indentation is one that no name accounts for. -/
theorem not_namesKept_of_gap (hread : readImport line = some source)
    (hmodule : source.module ∈ typingModules) {indentation : Chars}
    (hcount : 0 < indentation.count 'f') :
    ¬ NamesKept target source
      (normalizeImportFromLine target indentation source.module source.names) := by
  rintro ⟨read, hlines, -, hperm, -⟩
  have hmodules : ∀ imported ∈ read, imported.module ∈ typingModules := by
    intro imported himported
    obtain ⟨line', -, hline'⟩ : ∃ line' ∈ normalizeImportFromLine target indentation source.module
        source.names, readImport line' = some imported := by
      have hmem : some imported ∈ read.map some := List.mem_map_of_mem himported
      rw [← hlines] at hmem
      exact List.mem_map.1 hmem
    obtain ⟨item, rest, hitems⟩ := List.exists_cons_of_ne_nil (items_ne_nil hline')
    have hpair : (imported.module, item) ∈ read.flatMap ImportedNames.imports := by
      refine List.mem_flatMap.2 ⟨imported, himported, ?_⟩
      rw [ImportedNames.imports, hitems]
      exact List.mem_cons_self
    obtain ⟨item', -, hsame⟩ := List.mem_map.1 (hperm.subset hpair)
    rw [← (Prod.mk.inj hsame).1]
    exact ownerOrModule_mem hmodule
  have hitems : (read.flatMap ImportedNames.items).Perm source.items := by
    have hsecond := hperm.map Prod.snd
    rw [List.map_flatMap, List.map_map] at hsecond
    simpa [ImportedNames.imports, Function.comp_def] using hsecond
  have hletters := (hitems.flatMap_right ImportItem.letters).count_eq 'f'
  have htotal := count_lines hlines hmodules
  rw [count_normalizeImportFromLine indentation hmodule, hletters, count_names hread,
    Nat.mul_add, Nat.mul_one] at htotal
  have hnone : (normalizeImportFromLine target indentation source.module source.names).length = 0 := by
    have hmul : (normalizeImportFromLine target indentation source.module source.names).length
        * indentation.count 'f' = 0 := by omega
    rcases Nat.mul_eq_zero.1 hmul with hlength | hzero
    · exact hlength
    · omega
  rw [List.length_eq_zero_iff.1 hnone] at hlines
  have hreadNil : read = [] := by
    cases read with
    | nil => rfl
    | cons imported rest => cases hlines
  rw [hreadNil] at hitems
  exact items_ne_nil hread hitems.nil_eq.symm

/-! ### The claims of a line -/

/-- With the right indentation it depends on the aliases, and on whether a name comes twice. -/
theorem namesKept_iff {lines : List Chars} (h : Produced target source lines read)
    (hread : readImport line = some source) : NamesKept target source lines
      ↔ (∀ entry ∈ importEntries source.names, ∀ item, readItem entry = some item →
          item.rename = none ∨ (splitAtFirst " as ".toList entry).isSome = true
            ∨ ownerOrModule target source.module item.symbol = source.module)
        ∧ (source.items.map ImportItem.bound).Nodup := by
  obtain ⟨-, -, hitems, -⟩ := readImport_eq_some.1 hread
  obtain ⟨-, hentries⟩ := importEntries_eq hitems
  have hreadable := forall_readItem hentries
  have hsource : source.items = (importEntries source.names).map itemOf := by
    rw [mapM_eq_map_itemOf hreadable] at hentries
    exact (Option.some.inj hentries).symm
  have hwanted : (source.items.map fun item =>
        (ownerOrModule target source.module item.symbol, item))
      = (importEntries source.names).map fun entry =>
        (ownerOrModule target source.module (itemOf entry).symbol, itemOf entry) := by
    rw [hsource, List.map_map]
    rfl
  have hbound : ((read.flatMap ImportedNames.imports).map fun imported => imported.2.bound).Nodup
      ↔ (source.items.map ImportItem.bound).Nodup := by
    have hperm := h.names.map fun imported : Chars × ImportItem => imported.2.bound
    rw [List.map_map] at hperm
    rw [hperm.nodup_iff, hsource, List.map_map]
    rfl
  constructor
  · rintro ⟨read', hlines, -, hperm, hnodup⟩
    have hsame : read' = read := map_some_injective (hlines.symm.trans h.lines)
    rw [hsame] at hperm hnodup
    refine ⟨?_, hbound.1 hnodup⟩
    intro entry hentry item hitem
    have hitem' : itemOf entry = item := by rw [itemOf, hitem, Option.getD_some]
    have hmem : (ownerOrModule target source.module (importedSymbol entry), itemOf entry)
        ∈ source.items.map fun item => (ownerOrModule target source.module item.symbol, item) :=
      hperm.subset (h.names.symm.subset (List.mem_map_of_mem hentry))
    obtain ⟨other, -, hpair⟩ := List.mem_map.1 hmem
    rw [Prod.mk.injEq, hitem'] at hpair
    rcases hpair with ⟨hkey, rfl⟩
    exact (ownerOrModule_importedSymbol (isEntry_of_mem hentry) hitem).1 hkey.symm
  · rintro ⟨haliases, honce⟩
    refine ⟨read, h.lines, h.indentation, ?_, hbound.2 honce⟩
    rw [hwanted]
    refine h.names.trans (List.Perm.of_eq (List.map_congr_left ?_))
    intro entry hentry
    obtain ⟨item, hitem⟩ := hreadable entry hentry
    have hitem' : itemOf entry = item := by rw [itemOf, hitem, Option.getD_some]
    rw [hitem', (ownerOrModule_importedSymbol (isEntry_of_mem hentry) hitem).2
      (haliases entry hentry item hitem)]

/-- When the names of a line are kept. -/
theorem exists_namesKept_iff (h : Tokenizes tokenize) (hread : readImport line = some source)
    (hmodule : source.module ∈ typingModules) :
    (∃ lines, normalizeTargetCompatibilityLine target tokenize line = some lines
        ∧ NamesKept target source lines) ↔ NamesKeepable target line source := by
  by_cases hends : trimEnd line = line
  · obtain ⟨lines, read, hlines, hproduced⟩ := @exists_produced target tokenize line source h hread
      hmodule hends
    rw [hlines]
    constructor
    · rintro ⟨lines', hsame, hkept⟩
      rw [← Option.some.inj hsame] at hkept
      obtain ⟨haliases, honce⟩ := (namesKept_iff hproduced hread).1 hkept
      exact ⟨hends, haliases, honce⟩
    · intro hkeepable
      exact ⟨lines, rfl, (namesKept_iff hproduced hread).2 ⟨hkeepable.aliases, hkeepable.once⟩⟩
  · refine iff_of_false ?_ fun hkeepable => hends hkeepable.ends
    rintro ⟨lines, hlines, hkept⟩
    obtain ⟨htext, -, -, -⟩ := readImport_eq_some.1 hread
    have himport : typingImport (trim line) = some (source.module, source.names) :=
      typingImport_eq_some.2 ⟨htext, hmodule⟩
    obtain ⟨start, gap, hparts⟩ := exists_parts_of_import himport
    have hgap : gap ≠ [] := fun hnil => hends (hparts.ends.2 hnil)
    rcases @normalizeLine_of_gap target tokenize line source.module source.names start gap hparts
      hgap himport with hnone | ⟨indentation, hcount, hsome⟩
    · rw [hnone] at hlines
      cases hlines
    · rw [hsome, Option.some.injEq] at hlines
      rw [← hlines] at hkept
      exact not_namesKept_of_gap hread hmodule hcount hkept

end

/-- A line outside of literals keeps its names exactly if they are keepable, and a line of a literal
stays as it is exactly if there is nothing in it to split or to rewrite. -/
theorem lineKept_iff (target : PythonTarget) {tokenize : Chars → List PyToken}
    (h : Tokenizes tokenize) (inLiteral : Bool) (line : Chars) :
    LineKept target tokenize inLiteral line
      ↔ if inLiteral then StaysInLiteral target tokenize line
        else ∀ source, readImport line = some source → source.module ∈ typingModules →
          NamesKeepable target line source := by
  unfold LineKept
  cases inLiteral with
  | true =>
    rw [if_pos rfl, if_pos rfl]
    exact normalizeLine_literal_iff h
  | false =>
    rw [if_neg Bool.false_ne_true, if_neg Bool.false_ne_true]
    refine forall_congr' fun source => forall_congr' fun hread => forall_congr' fun hmodule => ?_
    exact exists_namesKept_iff h hread hmodule

/-- A tokenizer of one line. -/
def tokensOfLine (line : Chars) (tokens : List PyToken) (text : Chars) : List PyToken :=
  if text = line then tokens else []

theorem tokensOfLine_tokenizes {line : Chars} {tokens : List PyToken}
    (horder : tokens.Pairwise fun token token' => token.range.stop ≤ token'.range.start)
    (h : ∀ token ∈ tokens, token.range.stop ≤ line.length
      ∧ (token.kind ≠ .other → token.range.start < token.range.stop)
      ∧ (token.kind = .dot → slice line token.range = ['.'])
      ∧ (token.kind = .name → (line.drop token.range.stop).head? ≠ some '_')) :
    Tokenizes (tokensOfLine line tokens) := by
  have hmem : ∀ text, ∀ token ∈ tokensOfLine line tokens text, text = line ∧ token ∈ tokens := by
    intro text token htoken
    unfold tokensOfLine at htoken
    split at htoken
    · rename_i htext
      exact ⟨htext, htoken⟩
    · cases htoken
  constructor
  · intro text
    unfold tokensOfLine
    split
    · exact horder
    · exact List.Pairwise.nil
  · intro text token htoken
    exact (h token (hmem text token htoken).2).2.1
  · intro text token htoken
    obtain ⟨rfl, hmember⟩ := hmem text token htoken
    exact (h token hmember).1
  · intro text token htoken
    obtain ⟨rfl, hmember⟩ := hmem text token htoken
    exact (h token hmember).2.2.1
  · intro text token htoken
    obtain ⟨rfl, hmember⟩ := hmem text token htoken
    exact (h token hmember).2.2.2

/-- The line is split, and both lines have its indentation. -/
theorem lineKept_split : LineKept ⟨3, 10⟩
    (tokensOfLine "    from typing import Self, List".toList
      [⟨.other, 0, 4⟩, ⟨.other, 4, 8⟩, ⟨.name, 9, 15⟩, ⟨.other, 16, 22⟩, ⟨.name, 23, 27⟩,
        ⟨.other, 27, 28⟩, ⟨.name, 29, 33⟩, ⟨.other, 33, 33⟩, ⟨.other, 33, 33⟩])
    false "    from typing import Self, List".toList := by
  refine (lineKept_iff ⟨3, 10⟩ (tokensOfLine_tokenizes (by decide) (by decide)) false _).2 ?_
  rw [if_neg Bool.false_ne_true]
  intro source hsource hmodule
  have hread : readImport "    from typing import Self, List".toList
      = some ⟨"    ".toList, "typing".toList, "Self, List".toList,
        [⟨"Self".toList, none⟩, ⟨"List".toList, none⟩]⟩ := by decide +kernel
  rw [hread, Option.some.injEq] at hsource
  rw [← hsource]
  refine ⟨by decide, ?_, by decide⟩
  have hentries : importEntries "Self, List".toList = ["Self".toList, "List".toList] := by decide
  intro entry hentry item hitem
  rw [hentries, List.mem_cons, List.mem_singleton] at hentry
  rcases hentry with rfl | rfl
  · have hself : readItem "Self".toList = some ⟨"Self".toList, none⟩ := by decide
    rw [hself, Option.some.injEq] at hitem
    exact .inl (congrArg ImportItem.rename hitem).symm
  · have hlist : readItem "List".toList = some ⟨"List".toList, none⟩ := by decide
    rw [hlist, Option.some.injEq] at hitem
    exact .inl (congrArg ImportItem.rename hitem).symm

/-- With a blank at its end, a letter of the line is taken for its indentation. -/
theorem not_lineKept_blank : ¬ LineKept ⟨3, 10⟩
    (tokensOfLine "from typing import Self ".toList
      [⟨.other, 0, 4⟩, ⟨.name, 5, 11⟩, ⟨.other, 12, 18⟩, ⟨.name, 19, 23⟩, ⟨.other, 24, 24⟩])
    false "from typing import Self ".toList := by
  intro h
  have hread : readImport "from typing import Self ".toList
      = some ⟨[], "typing".toList, "Self".toList, [⟨"Self".toList, none⟩]⟩ := by decide +kernel
  obtain ⟨lines, hlines, read, hsame, -⟩ := h _ hread (by decide)
  have hnormalized : normalizeTargetCompatibilityLine ⟨3, 10⟩
      (tokensOfLine "from typing import Self ".toList
        [⟨.other, 0, 4⟩, ⟨.name, 5, 11⟩, ⟨.other, 12, 18⟩, ⟨.name, 19, 23⟩, ⟨.other, 24, 24⟩])
      "from typing import Self ".toList
      = some ["ffrom typing_extensions import Self".toList] := by decide +kernel
  rw [hnormalized, Option.some.injEq] at hlines
  have hnone : readImport "ffrom typing_extensions import Self".toList = none := by decide +kernel
  rw [← hlines, List.map_singleton, hnone] at hsame
  cases read with
  | nil => cases hsame
  | cons imported rest => cases hsame

end TypePython.Emit
