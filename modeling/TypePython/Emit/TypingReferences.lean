import TypePython.Lib.Splices
import TypePython.Lib.Text

/-!
# References into the typing modules

Which module owns a symbol of `typing`, `typing_extensions` or `warnings` depends on the Python
that is targeted. A reference such as `typing.Self` is rewritten to name the owner, on the tokens
of a line. A line is left alone exactly if it has no reference to another module than the owner
(`normalizeTargetCompatibilityText_eq_iff`).
-/

namespace TypePython.Emit

open TypePython.Lib
open TypePython.Lib.Text

structure PythonTarget where
  major : Nat
  minor : Nat
deriving DecidableEq, Repr

/-- Whether a target is Python 3 of this minor version, or later. -/
def PythonTarget.reaches (target : PythonTarget) (minor : Nat) : Bool :=
  3 < target.major || target.major = 3 && minor ≤ target.minor

def typingModule : Chars := "typing".toList

def typingExtensionsModule : Chars := "typing_extensions".toList

def warningsModule : Chars := "warnings".toList

def typingModules : List Chars := [typingModule, typingExtensionsModule, warningsModule]

namespace PythonTarget

/-- An owner from a minor version on. Before it, there is the backport. -/
def ownerSince (target : PythonTarget) (minor : Nat) (owner : Chars) : Chars :=
  if target.reaches minor then owner else typingExtensionsModule

def stdlibOwner (target : PythonTarget) (symbol : Chars) : Option Chars :=
  if symbol = "Self".toList then some (target.ownerSince 11 typingModule)
  else if symbol ∈ ["Required".toList, "NotRequired".toList, "dataclass_transform".toList] then
    some (target.ownerSince 11 typingModule)
  else if symbol = "override".toList then some (target.ownerSince 12 typingModule)
  else if symbol ∈ ["TypeVarTuple".toList, "Unpack".toList] then
    some (target.ownerSince 11 typingModule)
  else if symbol ∈ ["ReadOnly".toList, "TypeIs".toList, "NoDefault".toList] then
    some (target.ownerSince 13 typingModule)
  else if symbol = "deprecated".toList then some (target.ownerSince 13 warningsModule)
  else none

theorem ownerSince_mem {target : PythonTarget} {minor : Nat} {owner : Chars}
    (h : owner ∈ typingModules) : target.ownerSince minor owner ∈ typingModules := by
  unfold ownerSince
  split
  · exact h
  · decide

theorem stdlibOwner_mem {target : PythonTarget} {symbol owner : Chars}
    (h : target.stdlibOwner symbol = some owner) : owner ∈ typingModules := by
  have htyping : typingModule ∈ typingModules := by decide
  have hwarnings : warningsModule ∈ typingModules := by decide
  unfold stdlibOwner at h
  split at h
  · exact Option.some.inj h ▸ ownerSince_mem htyping
  split at h
  · exact Option.some.inj h ▸ ownerSince_mem htyping
  split at h
  · exact Option.some.inj h ▸ ownerSince_mem htyping
  split at h
  · exact Option.some.inj h ▸ ownerSince_mem htyping
  split at h
  · exact Option.some.inj h ▸ ownerSince_mem htyping
  split at h
  · exact Option.some.inj h ▸ ownerSince_mem hwarnings
  · cases h

end PythonTarget

def isTargetCompatibilitySymbol (symbol : Chars) : Bool :=
  symbol ∈ ["Self".toList, "Required".toList, "NotRequired".toList, "dataclass_transform".toList,
    "override".toList, "TypeVarTuple".toList, "Unpack".toList, "ReadOnly".toList, "TypeIs".toList,
    "NoDefault".toList, "deprecated".toList]

/-! ## Tokens -/

inductive TokenKind where
  | name
  | dot
  | other
deriving DecidableEq, Repr

/-- A token of a line, with its place in characters. -/
structure PyToken where
  kind : TokenKind
  range : TextRange
deriving DecidableEq, Repr

/-- What the parser's tokens are relied on for: they follow one another, names and dots have text, a
dot is a dot, and a name goes on as far as it can. -/
structure Tokenizes (tokenize : Chars → List PyToken) : Prop where
  inOrder : ∀ text, (tokenize text).Pairwise fun token token' =>
    token.range.stop ≤ token'.range.start
  wide : ∀ text, ∀ token ∈ tokenize text, token.kind ≠ .other →
    token.range.start < token.range.stop
  inside : ∀ text, ∀ token ∈ tokenize text, token.range.stop ≤ text.length
  dot : ∀ text, ∀ token ∈ tokenize text, token.kind = .dot → slice text token.range = ['.']
  name : ∀ text, ∀ token ∈ tokenize text, token.kind = .name →
    (text.drop token.range.stop).head? ≠ some '_'

section

variable (target : PythonTarget) (text : Chars)

/-- The module of a reference and its owner, if they are different ones. -/
def movedReference (source symbol : PyToken) : List (TextRange × Chars) :=
  if slice text source.range ∈ typingModules
      && isTargetCompatibilitySymbol (slice text symbol.range) then
    match target.stdlibOwner (slice text symbol.range) with
    | some owner => if owner ≠ slice text source.range then [(source.range, owner)] else []
    | none => []
  else []

/-- The windows of three tokens, each with whether a dot stands before it. -/
def movedReferences : Bool → List PyToken → List (TextRange × Chars)
  | behindDot, source :: dot :: symbol :: rest =>
    (if source.kind = .name && dot.kind = .dot && symbol.kind = .name && !behindDot then
        movedReference target text source symbol
      else [])
      ++ movedReferences (source.kind = .dot) (dot :: symbol :: rest)
  | _, _ => []

end

/-- The last reference is rewritten first. -/
def normalizeTargetCompatibilityText (target : PythonTarget) (tokenize : Chars → List PyToken)
    (text : Chars) : Chars :=
  ((movedReferences target text false (tokenize text)).mergeSort
      fun left right => decide (right.1.start ≤ left.1.start)).foldl
    (fun text edit => replaceRange text edit.1 edit.2) text

/-! ## Lines without such references -/

variable {target : PythonTarget} {text : Chars}

theorem mem_movedReference {source symbol : PyToken} {edit : TextRange × Chars}
    (h : edit ∈ movedReference target text source symbol) :
    edit.1 = source.range ∧ slice text source.range ∈ typingModules
      ∧ edit.2 ∈ typingModules ∧ edit.2 ≠ slice text source.range := by
  unfold movedReference at h
  split at h
  · rename_i hsource
    rw [Bool.and_eq_true, decide_eq_true_iff] at hsource
    cases howner : target.stdlibOwner (slice text symbol.range) with
    | none =>
      rw [howner] at h
      exact absurd h List.not_mem_nil
    | some owner =>
      rw [howner] at h
      simp only at h
      split at h
      · rename_i hne
        rw [List.mem_singleton.1 h]
        exact ⟨rfl, hsource.1, PythonTarget.stdlibOwner_mem howner, hne⟩
      · exact absurd h List.not_mem_nil
  · exact absurd h List.not_mem_nil

/-- A rewritten name is followed by a dot. -/
theorem mem_movedReferences {behindDot : Bool} {tokens : List PyToken} {edit : TextRange × Chars}
    (h : edit ∈ movedReferences target text behindDot tokens) :
    ∃ before source dot after, tokens = before ++ source :: dot :: after ∧ source.kind = .name
      ∧ dot.kind = .dot ∧ edit.1 = source.range ∧ slice text source.range ∈ typingModules
      ∧ edit.2 ∈ typingModules ∧ edit.2 ≠ slice text source.range := by
  induction tokens generalizing behindDot with
  | nil => cases h
  | cons source tokens ih =>
    cases tokens with
    | nil => cases h
    | cons dot tokens =>
      cases tokens with
      | nil => cases h
      | cons symbol rest =>
        rw [movedReferences, List.mem_append] at h
        rcases h with h | h
        · split at h
          · rename_i hkinds
            simp only [Bool.and_eq_true, decide_eq_true_iff] at hkinds
            exact ⟨[], source, dot, symbol :: rest, rfl, hkinds.1.1.1, hkinds.1.1.2,
              mem_movedReference h⟩
          · cases h
        · obtain ⟨before, source', dot', after, htokens, hfound⟩ := ih h
          exact ⟨source :: before, source', dot', after, by rw [htokens]; rfl, hfound⟩

theorem movedReferences_sublist (behindDot : Bool) (tokens : List PyToken) :
    ((movedReferences target text behindDot tokens).map Prod.fst).Sublist
      (tokens.map PyToken.range) := by
  induction tokens generalizing behindDot with
  | nil => exact List.Sublist.refl _
  | cons source tokens ih =>
    cases tokens with
    | nil => exact List.nil_sublist _
    | cons dot tokens =>
      cases tokens with
      | nil => exact List.nil_sublist _
      | cons symbol rest =>
        rw [movedReferences, List.map_append, List.map_cons]
        have hrest := ih (decide (source.kind = .dot))
        have hfirst : ((if source.kind = .name && dot.kind = .dot && symbol.kind = .name
              && !behindDot then movedReference target text source symbol else []).map
            Prod.fst).Sublist [source.range] := by
          split
          · cases hmoved : movedReference target text source symbol with
            | nil => exact List.nil_sublist _
            | cons edit others =>
              have hmem : edit ∈ movedReference target text source symbol := by
                rw [hmoved]
                exact List.mem_cons_self
              have hnone : others = [] := by
                unfold movedReference at hmoved
                split at hmoved
                · split at hmoved
                  · split at hmoved
                    · exact (List.cons.inj hmoved).2.symm
                    · cases hmoved
                  · cases hmoved
                · cases hmoved
              rw [hnone, List.map_singleton, (mem_movedReference hmem).1]
          · exact List.nil_sublist _
        exact hfirst.append hrest

variable {tokenize : Chars → List PyToken}

theorem movedReferences_inOrder (h : Tokenizes tokenize) :
    InOrder ((movedReferences target text false (tokenize text)).map Prod.fst) := by
  constructor
  · exact (List.pairwise_map.2 (h.inOrder text)).sublist (movedReferences_sublist _ _)
  · intro range hrange
    obtain ⟨edit, hedit, rfl⟩ := List.mem_map.1 hrange
    obtain ⟨before, source, dot, after, htokens, hname, -, hsource, -⟩ := mem_movedReferences hedit
    have hmem : source ∈ tokenize text := by
      rw [htokens]
      simp
    rw [hsource]
    refine h.wide text source hmem ?_
    rw [hname]
    decide

theorem normalizeTargetCompatibilityText_eq (h : Tokenizes tokenize) :
    normalizeTargetCompatibilityText target tokenize text
      = replaceRanges text (movedReferences target text false (tokenize text)) := by
  unfold normalizeTargetCompatibilityText replaceRanges
  rw [InOrder.mergeSort_descending (movedReferences_inOrder h), List.foldl_reverse]

/-- The names of two modules, followed by something that no name goes on with. -/
theorem ne_of_module_ne {owner source : Chars} (howner : owner ∈ typingModules)
    (hsource : source ∈ typingModules) (hne : owner ≠ source) {c : Char} (hc : c ≠ '_')
    (rest rest' : Chars) : owner ++ c :: rest ≠ source ++ c :: rest' := by
  have hextends : typingExtensionsModule = typingModule ++ '_' :: "extensions".toList := rfl
  have hdiffer : ∀ {first first' : Chars}, first.head? ≠ first'.head? → first ≠ [] → first' ≠ [] →
      first ++ c :: rest ≠ first' ++ c :: rest' := by
    intro first first' hhead hfirst hfirst' hsame
    have hheads := congrArg List.head? hsame
    rw [List.head?_append_of_ne_nil _ hfirst, List.head?_append_of_ne_nil _ hfirst'] at hheads
    exact hhead hheads
  simp only [typingModules, List.mem_cons, List.not_mem_nil, or_false] at howner hsource
  rcases howner with rfl | rfl | rfl
  · rcases hsource with rfl | rfl | rfl
    · exact absurd rfl hne
    · -- the longer name goes on where the shorter one ends
      intro hsame
      rw [hextends, List.append_assoc] at hsame
      exact hc (List.cons.inj (List.append_cancel_left hsame)).1
    · exact hdiffer (by decide) (by decide) (by decide)
  · rcases hsource with rfl | rfl | rfl
    · intro hsame
      rw [hextends, List.append_assoc] at hsame
      exact hc (List.cons.inj (List.append_cancel_left hsame)).1.symm
    · exact absurd rfl hne
    · exact hdiffer (by decide) (by decide) (by decide)
  · rcases hsource with rfl | rfl | rfl
    · exact hdiffer (by decide) (by decide) (by decide)
    · exact hdiffer (by decide) (by decide) (by decide)
    · exact absurd rfl hne

/-- Behind a name and its dot stands every other name that comes later. -/
theorem lt_start_of_mem {before after : List PyToken} {source dot other : PyToken}
    (horder : (before ++ source :: dot :: after).Pairwise fun token token' =>
      token.range.stop ≤ token'.range.start)
    (hwide : ∀ token ∈ before ++ source :: dot :: after, token.kind ≠ .other →
      token.range.start < token.range.stop)
    (hother : other ∈ before ++ source :: dot :: after) (hname : source.kind = .name)
    (hkind : dot.kind = .dot) (hkind' : other.kind = .name)
    (hlater : source.range.stop ≤ other.range.start) :
    source.range.stop < other.range.start := by
  have hwideDot := hwide dot (by simp) (by rw [hkind]; decide)
  have hwideOther := hwide other hother (by rw [hkind']; decide)
  rw [List.pairwise_append] at horder
  obtain ⟨-, htail, hbefore⟩ := horder
  rw [List.pairwise_cons, List.pairwise_cons] at htail
  have hdot := htail.1 dot List.mem_cons_self
  rcases List.mem_append.1 hother with hmem | hmem
  · have hwideSource := hwide source (by simp) (by rw [hname]; decide)
    have hle := hbefore other hmem source List.mem_cons_self
    omega
  rcases List.mem_cons.1 hmem with rfl | hmem
  · omega
  rcases List.mem_cons.1 hmem with rfl | hmem
  · rw [hkind] at hkind'
    cases hkind'
  · have hle := htail.2.1 other hmem
    omega

/-- A line stays as it is exactly if it has no reference that names another module than the
owner. -/
theorem normalizeTargetCompatibilityText_eq_iff (h : Tokenizes tokenize) :
    normalizeTargetCompatibilityText target tokenize text = text
      ↔ movedReferences target text false (tokenize text) = [] := by
  rw [normalizeTargetCompatibilityText_eq h]
  constructor
  · intro hsame
    have horder := @movedReferences_inOrder target text tokenize h
    cases hmoved : movedReferences target text false (tokenize text) with
    | nil => rfl
    | cons edit rest =>
      exfalso
      have hmem : ∀ other ∈ edit :: rest,
          other ∈ movedReferences target text false (tokenize text) := by
        intro other hother
        rwa [hmoved]
      obtain ⟨before, source, dot, after, htokens, hname, hkind, hrange, hsource, howner, hne⟩ :=
        mem_movedReferences (hmem edit List.mem_cons_self)
      rw [hmoved] at hsame horder
      rw [List.map_cons] at horder
      have hsourceMem : source ∈ tokenize text := by
        rw [htokens]
        simp
      have hdotMem : dot ∈ tokenize text := by
        rw [htokens]
        simp
      -- the character behind the name is not rewritten
      have hnext : ∀ other ∈ rest, source.range.stop + 1 ≤ other.1.start := by
        intro other hother
        obtain ⟨_, source', _, _, htokens', hname', _, hrange', _⟩ :=
          mem_movedReferences (hmem other (List.mem_cons_of_mem _ hother))
        have hlater := (List.pairwise_cons.1 horder.1).1 other.1 (List.mem_map_of_mem hother)
        rw [hrange, hrange'] at hlater
        rw [hrange']
        refine lt_start_of_mem (htokens ▸ h.inOrder text) (htokens ▸ h.wide text) ?_ hname hkind
          hname' hlater
        rw [← htokens, htokens']
        simp
      have hinside : source.range.stop + 1 ≤ text.length := by
        have hdot := h.inside text dot hdotMem
        have hall := h.inOrder text
        rw [htokens] at hall
        have hwide := h.wide text dot hdotMem (by rw [hkind]; decide)
        rw [List.pairwise_append] at hall
        have hle := (List.pairwise_cons.1 hall.2.1).1 dot List.mem_cons_self
        omega
      obtain ⟨htake, hlength⟩ := take_replaceRanges hinside hnext
      obtain ⟨c, below, hbelow⟩ := List.exists_cons_of_ne_nil
        (show text.drop source.range.stop ≠ [] by rw [Ne, List.drop_eq_nil_iff]; omega)
      have hc : c ≠ '_' := by
        intro heq
        apply h.name text source hsourceMem hname
        rw [hbelow, heq, List.head?_cons]
      have hwide : source.range.start < source.range.stop :=
        h.wide text source hsourceMem (by rw [hname]; decide)
      obtain ⟨below', hbelow'⟩ : ∃ below',
          (replaceRanges text rest).drop source.range.stop = c :: below' := by
        have hdrop := congrArg (List.drop source.range.stop) htake
        rw [List.drop_take, List.drop_take, hbelow, Nat.add_sub_cancel_left] at hdrop
        cases hfound : (replaceRanges text rest).drop source.range.stop with
        | nil =>
          rw [hfound] at hdrop
          cases hdrop
        | cons d others =>
          rw [hfound] at hdrop
          exact ⟨others, by rw [(List.cons.inj hdrop).1]⟩
      have hstart : (replaceRanges text rest).take source.range.start
          = text.take source.range.start := by
        have htake' := congrArg (List.take source.range.start) htake
        rwa [List.take_take, List.take_take, Nat.min_eq_left (by omega)] at htake'
      have hold : text = text.take source.range.start
          ++ (slice text source.range ++ c :: below) := by
        rw [← hbelow]
        unfold slice
        conv_lhs => rw [← List.take_append_drop source.range.start text]
        congr 1
        conv_lhs => rw [← List.take_append_drop (source.range.stop - source.range.start)
          (text.drop source.range.start)]
        rw [List.drop_drop, Nat.add_sub_cancel' (Nat.le_of_lt hwide)]
      have hnew : replaceRanges text (edit :: rest)
          = text.take source.range.start ++ (edit.2 ++ c :: below') := by
        have hcut : replaceRanges text (edit :: rest)
            = (replaceRanges text rest).take edit.1.start ++ edit.2
              ++ (replaceRanges text rest).drop edit.1.stop := rfl
        rw [hcut, hrange, hstart, hbelow', List.append_assoc]
      rw [hnew] at hsame
      conv_rhs at hsame => rw [hold]
      exact ne_of_module_ne howner hsource hne hc _ _ (List.append_cancel_left hsame)
  · intro hnone
    rw [hnone]
    rfl

/-- A line without a dot has no references. -/
theorem movedReferences_eq_nil (h : Tokenizes tokenize) (hdot : '.' ∉ text) :
    movedReferences target text false (tokenize text) = [] := by
  rw [List.eq_nil_iff_forall_not_mem]
  intro edit hedit
  obtain ⟨before, source, dot, after, htokens, -, hkind, -⟩ := mem_movedReferences hedit
  have hmem : dot ∈ tokenize text := by
    rw [htokens]
    simp
  have hslice := h.dot text dot hmem hkind
  apply hdot
  have hin : '.' ∈ slice text dot.range := by
    rw [hslice]
    exact List.mem_singleton.2 rfl
  exact List.mem_of_mem_drop (List.mem_of_mem_take hin)

end TypePython.Emit
