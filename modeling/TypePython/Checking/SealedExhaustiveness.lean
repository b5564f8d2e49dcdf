import Mathlib.Data.List.TakeWhile
import TypePython.Checking.SealedMatch

/-!
# Exhaustive matches at run time

Whether a match over a sealed class that the check accepts has a case for every object of a
subclass. The check reads a class pattern as if it had no sub-patterns and looks for subclasses
by the text of their bases, so a match may be accepted that lacks a case
(`literalSubPattern_not_sound`). Where sub-patterns take every value and bases are written as plain
names, it is sound (`sealedMatch_sound`).
-/

namespace TypePython.Checking

open Std
open TypePython.Lib
open TypePython.Syntax
open TypePython.Binding

/-! ## Classes at run time -/

section

variable (nodes : List ModuleNode)

/-- A top-level class of a module that derives from a class. -/
structure Descendant (sealedNode : ModuleNode) (sealedDecl : Declaration) (decl : Declaration) :
    Prop where
  declared : decl ∈ sealedNode.declarations
  isClass : decl.kind = .classDecl
  topLevel : decl.owner = none
  derives : Relation.TransGen (DirectBase nodes) (sealedNode, decl) (sealedNode, sealedDecl)

variable (node : ModuleNode)

/-- Objects with their classes and attributes, seen from a module. The attributes that every
object of a class has are `always`; `matchArgs` is the `__match_args__` of the class a pattern
names. What the other patterns match is left open. -/
structure Runtime (Obj : Type) where
  classOf : Obj → ClassRef
  isInstance : Obj → String → Prop
  isInstance_iff : ∀ obj text cls, resolveDirectBase nodes node text = some cls →
    (isInstance obj text ↔ IsSubclass nodes (classOf obj) cls)
  getattr : Obj → String → Option Obj
  always : ClassRef → List String
  getattr_always : ∀ obj name, name ∈ always (classOf obj) → (getattr obj name).isSome = true
  matchArgs : String → List String
  matchesOther : Pattern → Obj → Prop

variable {nodes node} {Obj : Type} (rt : Runtime nodes node Obj)

mutual

/-- A pattern matches an object. -/
def Matches : Pattern → Obj → Prop
  | .capture _, _ => True
  | .asPattern pattern _, obj => Matches pattern obj
  | .or patterns, obj => SomeMatches patterns obj
  | .classPattern cls patterns keywords, obj =>
    rt.isInstance obj cls ∧ PositionalMatch patterns (rt.matchArgs cls) obj
      ∧ KeywordsMatch keywords obj
  | .value text, obj => rt.matchesOther (.value text) obj
  | .singleton text, obj => rt.matchesOther (.singleton text) obj
  | .sequence patterns, obj => rt.matchesOther (.sequence patterns) obj
  | .mapping patterns rest, obj => rt.matchesOther (.mapping patterns rest) obj
  | .star name, obj => rt.matchesOther (.star name) obj

def SomeMatches : List Pattern → Obj → Prop
  | [], _ => False
  | pattern :: rest, obj => Matches pattern obj ∨ SomeMatches rest obj

/-- Positional sub-patterns match the attributes that `__match_args__` names. -/
def PositionalMatch : List Pattern → List String → Obj → Prop
  | [], _, _ => True
  | _ :: _, [], _ => False
  | pattern :: rest, name :: names, obj =>
    (∃ value, rt.getattr obj name = some value ∧ Matches pattern value)
      ∧ PositionalMatch rest names obj

def KeywordsMatch : List (String × Pattern) → Obj → Prop
  | [], _ => True
  | (name, pattern) :: rest, obj =>
    (∃ value, rt.getattr obj name = some value ∧ Matches pattern value) ∧ KeywordsMatch rest obj

end

/-! ## Patterns that take everything -/

mutual

/-- The pattern takes every value: a capture, or an alternative that is one. -/
def takesEverything : Pattern → Bool
  | .capture _ => true
  | .asPattern pattern _ => takesEverything pattern
  | .or patterns => someTakesEverything patterns
  | _ => false

def someTakesEverything : List Pattern → Bool
  | [] => false
  | pattern :: rest => takesEverything pattern || someTakesEverything rest

end

mutual

theorem matches_of_takesEverything : ∀ pattern : Pattern, takesEverything pattern = true →
    ∀ obj, Matches rt pattern obj
  | .capture _, _, _ => trivial
  | .asPattern pattern _, h, obj => matches_of_takesEverything pattern h obj
  | .or patterns, h, obj => someMatches_of_takesEverything patterns h obj

theorem someMatches_of_takesEverything : ∀ patterns : List Pattern,
    someTakesEverything patterns = true → ∀ obj, SomeMatches rt patterns obj
  | pattern :: rest, h, obj => by
    rw [someTakesEverything, Bool.or_eq_true] at h
    rcases h with h | h
    · exact .inl (matches_of_takesEverything pattern h obj)
    · exact .inr (someMatches_of_takesEverything rest h obj)

end

mutual

/-- The alternatives of a pattern. -/
def alternatives : Pattern → List Pattern
  | .or patterns => alternativesOfAll patterns
  | pattern => [pattern]

def alternativesOfAll : List Pattern → List Pattern
  | [] => []
  | pattern :: rest => alternatives pattern ++ alternativesOfAll rest

end

mutual

theorem matches_of_alternative {alternative : Pattern} {obj : Obj}
    (hmatches : Matches rt alternative obj) : ∀ pattern : Pattern,
    alternative ∈ alternatives pattern → Matches rt pattern obj
  | .or patterns, h => someMatches_of_alternative hmatches patterns h
  | .value _, h | .singleton _, h | .sequence _, h | .mapping _ _, h | .classPattern _ _ _, h
  | .star _, h | .capture _, h | .asPattern _ _, h => by
    rw [alternatives, List.mem_singleton] at h
    · rwa [h] at hmatches
    · intro patterns hor
      cases hor

theorem someMatches_of_alternative {alternative : Pattern} {obj : Obj}
    (hmatches : Matches rt alternative obj) : ∀ patterns : List Pattern,
    alternative ∈ alternativesOfAll patterns → SomeMatches rt patterns obj
  | pattern :: rest, h => by
    rw [alternativesOfAll, List.mem_append] at h
    rcases h with h | h
    · exact .inl (matches_of_alternative hmatches pattern h)
    · exact .inr (someMatches_of_alternative hmatches rest h)

end

/-! ## What is recorded -/

section Recorded

variable {isWildcard : Pattern → Bool}

theorem isWildcard_of_recorded {pattern : Pattern} (hleaf : ∀ patterns, pattern ≠ .or patterns)
    (h : MatchPatternSite.wildcard ∈ extractMatchPatterns isWildcard pattern) :
    isWildcard pattern = true := by
  cases pattern with
  | or patterns => exact absurd rfl (hleaf patterns)
  | _ =>
    rw [extractMatchPatterns] at h
    split at h
    · assumption
    · simp at h

mutual

/-- A wildcard is recorded only for patterns that match everything. -/
theorem matches_of_wildcard
    (hwildcard : ∀ pattern, isWildcard pattern = true → ∀ obj, Matches rt pattern obj) (obj : Obj) :
    ∀ pattern : Pattern, MatchPatternSite.wildcard ∈ extractMatchPatterns isWildcard pattern →
      Matches rt pattern obj
  | .or patterns, h => by
    rw [extractMatchPatterns] at h
    split at h
    · rename_i htest
      exact hwildcard _ htest obj
    · exact someMatches_of_wildcard hwildcard obj patterns h
  | .value _, h | .singleton _, h | .sequence _, h | .mapping _ _, h | .classPattern _ _ _, h
  | .star _, h | .capture _, h | .asPattern _ _, h =>
    hwildcard _ (isWildcard_of_recorded (by intro patterns hor; cases hor) h) obj

theorem someMatches_of_wildcard
    (hwildcard : ∀ pattern, isWildcard pattern = true → ∀ obj, Matches rt pattern obj) (obj : Obj) :
    ∀ patterns : List Pattern,
      MatchPatternSite.wildcard ∈ extractAllMatchPatterns isWildcard patterns →
        SomeMatches rt patterns obj
  | pattern :: rest, h => by
    rw [extractAllMatchPatterns, List.mem_append] at h
    rcases h with h | h
    · exact .inl (matches_of_wildcard hwildcard obj pattern h)
    · exact .inr (someMatches_of_wildcard hwildcard obj rest h)

end

mutual

/-- A class is recorded for a class pattern among the alternatives. -/
theorem classPattern_of_recorded {text : String} : ∀ pattern : Pattern,
    MatchPatternSite.classPattern text ∈ extractMatchPatterns isWildcard pattern →
      ∃ patterns keywords, Pattern.classPattern text patterns keywords ∈ alternatives pattern
  | .or patterns, h => by
    rw [extractMatchPatterns] at h
    split at h
    · simp at h
    · exact classPatterns_of_recorded patterns h
  | .classPattern cls patterns keywords, h => by
    rw [extractMatchPatterns] at h
    split at h
    · simp at h
    · rw [List.mem_singleton] at h
      cases h
      exact ⟨patterns, keywords, List.mem_singleton_self _⟩
  | .value _, h | .singleton _, h | .sequence _, h | .mapping _ _, h | .star _, h | .capture _, h
  | .asPattern _ _, h => by
    rw [extractMatchPatterns] at h
    split at h <;> simp at h

theorem classPatterns_of_recorded {text : String} : ∀ patterns : List Pattern,
    MatchPatternSite.classPattern text ∈ extractAllMatchPatterns isWildcard patterns →
      ∃ inner keywords, Pattern.classPattern text inner keywords ∈ alternativesOfAll patterns
  | pattern :: rest, h => by
    rw [extractAllMatchPatterns, List.mem_append] at h
    rw [alternativesOfAll]
    rcases h with h | h
    · rcases classPattern_of_recorded pattern h with ⟨inner, keywords, hmem⟩
      exact ⟨inner, keywords, List.mem_append_left _ hmem⟩
    · rcases classPatterns_of_recorded rest h with ⟨inner, keywords, hmem⟩
      exact ⟨inner, keywords, List.mem_append_right _ hmem⟩

end

end Recorded

/-! ## Class patterns without conditions -/

/-- The object is an instance of the class a pattern names. -/
def NamesClassOf (nodes : List ModuleNode) (node : ModuleNode) (cls : ClassRef) (text : String) :
    Prop :=
  ∃ named, resolveDirectBase nodes node text = some named ∧ IsSubclass nodes cls named

/-- The sub-patterns of a class pattern take everything, and the attributes they look at are
there in every object of the class. -/
structure Unconditional (cls : ClassRef) (text : String) (patterns : List Pattern)
    (keywords : List (String × Pattern)) : Prop where
  enough : patterns.length ≤ (rt.matchArgs text).length
  positional : ∀ pattern ∈ patterns, takesEverything pattern = true
  attributes : ∀ name ∈ (rt.matchArgs text).take patterns.length, name ∈ rt.always cls
  keywords : ∀ keyword ∈ keywords, keyword.1 ∈ rt.always cls ∧ takesEverything keyword.2 = true

/-- An alternative that takes every object of a class. -/
def TakesClassObjects (cls : ClassRef) (alternative : Pattern) : Prop :=
  takesEverything alternative = true
    ∨ ∃ text patterns keywords, alternative = .classPattern text patterns keywords
      ∧ NamesClassOf nodes node cls text ∧ Unconditional rt cls text patterns keywords

/-- An attribute that is always there has a value, and a sub-pattern that takes everything
matches it. -/
theorem attribute_matches {obj : Obj} {name : String} {pattern : Pattern}
    (hname : name ∈ rt.always (rt.classOf obj)) (hpattern : takesEverything pattern = true) :
    ∃ value, rt.getattr obj name = some value ∧ Matches rt pattern value := by
  rcases Option.isSome_iff_exists.1 (rt.getattr_always obj name hname) with ⟨value, hvalue⟩
  exact ⟨value, hvalue, matches_of_takesEverything rt pattern hpattern value⟩

theorem positionalMatch_of_takesEverything {obj : Obj} : ∀ (patterns : List Pattern)
    (names : List String), patterns.length ≤ names.length →
      (∀ pattern ∈ patterns, takesEverything pattern = true) →
        (∀ name ∈ names.take patterns.length, name ∈ rt.always (rt.classOf obj)) →
          PositionalMatch rt patterns names obj
  | [], _, _, _, _ => trivial
  | _ :: _, [], hlength, _, _ => absurd hlength (Nat.not_succ_le_zero _)
  | pattern :: rest, name :: names, hlength, hpatterns, hnames => by
    rw [List.length_cons, List.take_succ_cons] at hnames
    constructor
    · exact attribute_matches rt (hnames name List.mem_cons_self)
        (hpatterns pattern List.mem_cons_self)
    · exact positionalMatch_of_takesEverything rest names (Nat.le_of_succ_le_succ hlength)
        (fun pattern hmem => hpatterns pattern (List.mem_cons_of_mem _ hmem))
        (fun name hmem => hnames name (List.mem_cons_of_mem _ hmem))

theorem keywordsMatch_of_takesEverything {obj : Obj} : ∀ keywords : List (String × Pattern),
    (∀ keyword ∈ keywords,
      keyword.1 ∈ rt.always (rt.classOf obj) ∧ takesEverything keyword.2 = true) →
        KeywordsMatch rt keywords obj
  | [], _ => trivial
  | (name, pattern) :: rest, h => by
    rw [List.forall_mem_cons] at h
    exact ⟨attribute_matches rt h.1.1 h.1.2, keywordsMatch_of_takesEverything rest h.2⟩

theorem matches_of_takesClassObjects {obj : Obj} {alternative : Pattern}
    (h : TakesClassObjects rt (rt.classOf obj) alternative) : Matches rt alternative obj := by
  rcases h with h | ⟨text, patterns, keywords, rfl, ⟨named, hnamed, hsubclass⟩, hplain⟩
  · exact matches_of_takesEverything rt alternative h obj
  · refine ⟨(rt.isInstance_iff obj text named hnamed).2 hsubclass, ?_, ?_⟩
    · exact positionalMatch_of_takesEverything rt patterns _ hplain.enough hplain.positional
        hplain.attributes
    · exact keywordsMatch_of_takesEverything rt keywords hplain.keywords

/-! ## Sound matches -/

/-- A module of a graph, and a subject in it whose class is sealed. Modules have keys of their
own, and the top-level classes of a module have names of their own, which are identifiers. -/
structure SealedSubject (nodes : List ModuleNode) (node : ModuleNode) (subjectType : SemanticType)
    (sealedNode : ModuleNode) (sealedDecl : Declaration) : Prop where
  in_graph : node ∈ nodes
  keys : ∀ first ∈ nodes, ∀ second ∈ nodes, first.moduleKey = second.moduleKey → first = second
  subject : resolveDirectBase nodes node (classHead (renderSemanticType subjectType))
    = some (sealedNode, sealedDecl)
  isSealed : sealedDecl.classKind = some .sealedClass
  distinct : ∀ first ∈ sealedNode.declarations, ∀ second ∈ sealedNode.declarations,
    first.kind = .classDecl → first.owner = none → second.kind = .classDecl →
      second.owner = none → first.name = second.name → first = second
  identifiers : ∀ decl ∈ sealedNode.declarations, '[' ∉ decl.name.toList

/-- No diagnostic, or a case without a guard for every object of a subclass. -/
def SealedMatchSound (isWildcard : Pattern → Bool) (subjectType : SemanticType)
    (sealedNode : ModuleNode) (sealedDecl : Declaration) (cases : List MatchCase) : Prop :=
  sealedMatchExhaustivenessDiagnostic nodes node (some subjectType)
      (cases.map (extractMatchCase isWildcard)) = none →
    ∀ decl, Descendant nodes sealedNode sealedDecl decl →
      ∃ case ∈ cases, case.hasGuard = false
        ∧ ∀ obj, rt.classOf obj = (sealedNode, decl) → Matches rt case.pattern obj

/-- The subject and the bases are written as plain class names, and a class that is named by a
class pattern with conditions is also taken without conditions. -/
structure PlainMatch (subjectType : SemanticType) (sealedNode : ModuleNode)
    (sealedDecl : Declaration) (cases : List MatchCase) : Prop where
  subject : classHead (renderSemanticType subjectType) = renderSemanticType subjectType
  bases : ∀ decl, Descendant nodes sealedNode sealedDecl decl →
    Relation.TransGen (StackSearch.Edge (directSubclasses sealedNode)) sealedDecl.name decl.name
  patterns : ∀ decl, Descendant nodes sealedNode sealedDecl decl →
    ∀ case ∈ cases, case.hasGuard = false → ∀ text patterns keywords,
      .classPattern text patterns keywords ∈ alternatives case.pattern →
        NamesClassOf nodes node (sealedNode, decl) text →
          ∃ other ∈ cases, other.hasGuard = false ∧ ∃ alternative ∈ alternatives other.pattern,
            TakesClassObjects rt (sealedNode, decl) alternative

/-! ## What the check finds -/

theorem Descendant.topLevelClass {sealedNode : ModuleNode} {sealedDecl decl : Declaration}
    (h : Descendant nodes sealedNode sealedDecl decl) : TopLevelClass sealedNode decl :=
  ⟨h.declared, h.isClass, h.topLevel⟩

theorem mem_directSubclasses {owner : ModuleNode} {base name : String} :
    name ∈ directSubclasses owner base
      ↔ ∃ decl, TopLevelClass owner decl ∧ base ∈ decl.renderedClassBases ∧ decl.name = name := by
  unfold directSubclasses
  rw [List.mem_map]
  refine exists_congr fun decl => ?_
  simp only [List.mem_filter, Bool.and_eq_true, decide_eq_true_eq, Option.isNone_iff_eq_none,
    Declaration.hasClassBase]
  constructor
  · rintro ⟨⟨hmem, ⟨hkind, howner⟩, hbase⟩, hname⟩
    exact ⟨⟨hmem, hkind, howner⟩, hbase, hname⟩
  · rintro ⟨⟨hmem, hkind, howner⟩, hbase, hname⟩
    exact ⟨⟨hmem, ⟨hkind, howner⟩, hbase⟩, hname⟩

/-- The collected descendants of a class are those that the texts of the bases lead to. -/
theorem mem_collectSealedDescendants {owner : ModuleNode} {root name : String} :
    name ∈ collectSealedDescendants owner root
      ↔ Relation.TransGen (StackSearch.Edge (directSubclasses owner)) root name := by
  have hsmall : ((owner.declarations.map Declaration.name).toFinset).card + 2
      ≤ owner.declarations.length + 2 := by
    have hcard := List.toFinset_card_le (owner.declarations.map Declaration.name)
    rw [List.length_map] at hcard
    omega
  have hnames : ∀ base, ∀ subclass ∈ directSubclasses owner base,
      subclass ∈ (owner.declarations.map Declaration.name).toFinset := by
    intro base subclass hsubclass
    rcases mem_directSubclasses.1 hsubclass with ⟨decl, hdecl, -, rfl⟩
    rw [List.mem_toFinset]
    exact List.mem_map_of_mem hdecl.declared
  rcases StackSearch.run_spec (directSubclasses owner) root _ hnames _ hsmall
    with ⟨found, hrun, hfound⟩
  unfold collectSealedDescendants
  rw [hrun]
  exact hfound name

/-! ## From texts to classes -/

section Names

variable {owner : ModuleNode}
  (hdistinct : ∀ first second, TopLevelClass owner first → TopLevelClass owner second →
    first.name = second.name → first = second)
  (hidentifiers : ∀ decl ∈ owner.declarations, '[' ∉ decl.name.toList)

omit hdistinct in
theorem classHead_name {decl : Declaration} (hidentifier : '[' ∉ decl.name.toList) :
    classHead decl.name = decl.name := by
  have hall : decl.name.toList.takeWhile (· ≠ '[') = decl.name.toList := by
    rw [List.takeWhile_eq_self_iff]
    intro char hchar
    rw [decide_eq_true_eq]
    rintro rfl
    exact hidentifier hchar
  rw [classHead, hall, String.ofList_toList]

include hdistinct in
/-- In its own module the name of a class means the class. -/
theorem resolveDirectBase_name {decl : Declaration} (hdecl : TopLevelClass owner decl) :
    resolveDirectBase nodes owner decl.name = some (owner, decl) := by
  unfold resolveDirectBase
  cases hnamed : topLevelNamed .classDecl owner decl.name with
  | some other =>
    rcases topLevelNamed_spec hnamed with ⟨hmem, hname, howner, hkind⟩
    rw [hdistinct other decl ⟨hmem, hkind, howner⟩ hdecl hname]
  | none =>
    have hnone := List.find?_eq_none.1 hnamed decl hdecl.declared
    simp [hdecl.isClass, hdecl.topLevel] at hnone

include hdistinct hidentifiers in
/-- A class that the texts of the bases lead to derives from the class they start from. -/
theorem derives_of_edges {base : Declaration} (hbase : TopLevelClass owner base) {name : String}
    (h : Relation.TransGen (StackSearch.Edge (directSubclasses owner)) base.name name) :
    ∃ decl, TopLevelClass owner decl ∧ decl.name = name
      ∧ Relation.TransGen (DirectBase nodes) (owner, decl) (owner, base) := by
  -- a subclass by text has the class itself among its bases
  have hdirect : ∀ {cls : Declaration} {subclass : String}, TopLevelClass owner cls →
      StackSearch.Edge (directSubclasses owner) cls.name subclass →
        ∃ decl, TopLevelClass owner decl ∧ decl.name = subclass
          ∧ DirectBase nodes (owner, decl) (owner, cls) := by
    intro cls subclass hcls hedge
    rcases mem_directSubclasses.1 hedge with ⟨decl, hdecl, htext, hname⟩
    refine ⟨decl, hdecl, hname, cls.name, htext, ?_⟩
    rw [classHead_name (hidentifiers cls hcls.declared)]
    exact resolveDirectBase_name hdistinct hcls
  induction h with
  | single hedge =>
    rcases hdirect hbase hedge with ⟨decl, hdecl, hname, hderives⟩
    exact ⟨decl, hdecl, hname, .single hderives⟩
  | tail _ hedge ih =>
    rcases ih with ⟨middle, hmiddle, rfl, hderives⟩
    rcases hdirect hmiddle hedge with ⟨decl, hdecl, hname, hfirst⟩
    exact ⟨decl, hdecl, hname, .head hfirst hderives⟩

end Names

/-! ## Soundness -/

section Sound

variable {subjectType : SemanticType} {sealedNode : ModuleNode} {sealedDecl : Declaration}
  (hsubject : SealedSubject nodes node subjectType sealedNode sealedDecl)

include hsubject

theorem SealedSubject.resolved_spec : sealedNode ∈ nodes ∧ TopLevelClass sealedNode sealedDecl := by
  have hspec := resolveDirectBase_spec hsubject.subject
  refine ⟨?_, hspec.2⟩
  rcases List.mem_cons.1 hspec.1 with heq | hmem
  · rw [show sealedNode = node from heq]
    exact hsubject.in_graph
  · exact hmem

theorem SealedSubject.distinct_classes {first second : Declaration}
    (hfirst : TopLevelClass sealedNode first) (hsecond : TopLevelClass sealedNode second)
    (hname : first.name = second.name) : first = second :=
  hsubject.distinct first hfirst.declared second hsecond.declared hfirst.isClass hfirst.topLevel
    hsecond.isClass hsecond.topLevel hname

/-- A subclass that a pattern covers is an instance of the class the pattern names. -/
theorem namesClassOf_of_covered {pattern : MatchPatternSite} {decl : Declaration}
    (hdecl : Descendant nodes sealedNode sealedDecl decl)
    (hcovered : decl.name ∈ coveredBy nodes node sealedNode sealedDecl
      (collectSealedDescendants sealedNode sealedDecl.name) pattern) :
    ∃ text, pattern = .classPattern text
      ∧ NamesClassOf nodes node (sealedNode, decl) text := by
  have hdistinct : ∀ first second, TopLevelClass sealedNode first →
      TopLevelClass sealedNode second → first.name = second.name → first = second :=
    fun first second => hsubject.distinct_classes
  unfold coveredBy at hcovered
  split at hcovered
  · simp at hcovered
  · rename_i caseNode caseDecl hcase
    rcases Option.bind_eq_some_iff.1 hcase with ⟨text, htext, hresolved⟩
    have hpattern : pattern = .classPattern text := by
      cases pattern <;> cases htext
      rfl
    refine ⟨text, hpattern, (caseNode, caseDecl), hresolved, ?_⟩
    have hspec := resolveDirectBase_spec hresolved
    split at hcovered
    · rename_i hkey
      -- modules are known by their keys
      have hcaseNode : caseNode ∈ nodes := by
        rcases List.mem_cons.1 hspec.1 with heq | hmem
        · rw [show caseNode = node from heq]
          exact hsubject.in_graph
        · exact hmem
      obtain rfl := hsubject.keys caseNode hcaseNode sealedNode hsubject.resolved_spec.1 hkey
      split at hcovered
      · -- the sealed class itself
        rename_i hname
        rw [hdistinct caseDecl sealedDecl hspec.2 hsubject.resolved_spec.2 hname]
        exact hdecl.derives.to_reflTransGen
      · split at hcovered
        · rw [List.mem_cons, ExtTreeSet.mem_toList, mem_collectSealedDescendants] at hcovered
          rcases hcovered with hname | hedges
          · rw [hdistinct decl caseDecl hdecl.topLevelClass hspec.2 hname]
            exact .refl
          · have hderived : ∃ found, TopLevelClass caseNode found ∧ found.name = decl.name
                ∧ Relation.TransGen (DirectBase nodes) (caseNode, found) (caseNode, caseDecl) :=
              derives_of_edges hdistinct hsubject.identifiers hspec.2 hedges
            rcases hderived with ⟨found, hfound, hname, hderives⟩
            rw [hdistinct decl found hdecl.topLevelClass hfound hname.symm]
            exact hderives.to_reflTransGen
        · simp at hcovered
    · simp at hcovered

variable {isWildcard : Pattern → Bool} {cases : List MatchCase}

/-- Without a diagnostic and without a wildcard, an unguarded class pattern names a class of
each collected subclass. -/
theorem named_of_no_diagnostic
    (hplain : classHead (renderSemanticType subjectType) = renderSemanticType subjectType)
    (hwildcard : hasWildcardCase (cases.map (extractMatchCase isWildcard)) = false)
    (hnone : sealedMatchExhaustivenessDiagnostic nodes node (some subjectType)
      (cases.map (extractMatchCase isWildcard)) = none)
    {decl : Declaration} (hdecl : Descendant nodes sealedNode sealedDecl decl)
    (hedges : Relation.TransGen (StackSearch.Edge (directSubclasses sealedNode)) sealedDecl.name
      decl.name) :
    ∃ case ∈ cases, case.hasGuard = false ∧ ∃ text patterns keywords,
      .classPattern text patterns keywords ∈ alternatives case.pattern
        ∧ NamesClassOf nodes node (sealedNode, decl) text := by
  have hroot : resolveSealedRoot nodes node (renderSemanticType subjectType)
      = some (sealedNode, sealedDecl) := by
    have hresolved := hsubject.subject
    rw [hplain] at hresolved
    exact resolveSealedRoot_of_sealed hresolved hsubject.isSealed
  have hclosure := mem_collectSealedDescendants.2 hedges
  have hnonempty : collectSealedDescendants sealedNode sealedDecl.name ≠ ∅ := by
    intro hempty
    rw [hempty] at hclosure
    simp at hclosure
  have hmissing : missingSubclasses nodes node sealedNode sealedDecl
      (cases.map (extractMatchCase isWildcard)) = [] := by
    by_contra hsome
    simp [sealedMatchExhaustivenessDiagnostic, hwildcard, hroot, hnonempty, hsome] at hnone
  -- the subclass is not missing, so a pattern covers it
  have hcovered := List.filter_eq_nil_iff.1 hmissing decl.name (ExtTreeSet.mem_toList.2 hclosure)
  simp only [Bool.not_eq_true', Bool.not_eq_false, List.contains_eq_mem, decide_eq_true_eq,
    List.mem_flatMap, List.mem_filter, List.mem_map] at hcovered
  rcases hcovered with ⟨_, ⟨⟨case, hcase, rfl⟩, hguard⟩, pattern, hpattern, hname⟩
  rcases namesClassOf_of_covered hsubject hdecl hname with ⟨text, rfl, hnames⟩
  rcases classPattern_of_recorded case.pattern hpattern with ⟨patterns, keywords, halternative⟩
  exact ⟨case, hcase, by simpa [extractMatchCase] using hguard, text, patterns, keywords,
    halternative, hnames⟩

end Sound

end

/-! ## Expressions with a number -/

section Expressions

/-- A sealed class `Expr`. -/
def exprDecl : Declaration :=
  { name := "Expr", kind := .classDecl, metadata := .classDecl [], classKind := some .sealedClass }

/-- A class with the given base. -/
def subclassDecl (name : String) (base : TypeExpr) : Declaration :=
  { name, kind := .classDecl, metadata := .classDecl [⟨base⟩], classKind := some .classDecl,
    bases := [base.render] }

/-- `Expr` and the class `Num` of an expression that is a number. -/
def exprModule : ModuleNode where
  moduleKey := "app"
  declarations := [exprDecl, subclassDecl "Num" (.name "Expr")]

inductive ExprObject where
  | num (value : Nat)
  | int (value : Nat)

def ExprObject.classOf : ExprObject → ClassRef
  | .num _ => (exprModule, subclassDecl "Num" (.name "Expr"))
  | .int _ => ({ moduleKey := "builtins", declarations := [] }, { name := "int", kind := .classDecl })

/-- A `Num` has a `value`; a value pattern is written `0` here. -/
def exprRuntime : Runtime [exprModule] exprModule ExprObject where
  classOf := ExprObject.classOf
  isInstance obj text :=
    ∃ cls, resolveDirectBase [exprModule] exprModule text = some cls
      ∧ IsSubclass [exprModule] obj.classOf cls
  isInstance_iff := by
    intro obj text cls hcls
    rw [hcls]
    simp
  getattr
    | .num value, name => if name = "value" then some (.int value) else none
    | .int _, _ => none
  always cls := if cls.2.name = "Num" then ["value"] else []
  getattr_always := by
    rintro (value | value) name hname
    · have hvalue : name = "value" := by simpa [ExprObject.classOf, subclassDecl] using hname
      simp [hvalue]
    · simp [ExprObject.classOf] at hname
  matchArgs _ := ["value"]
  matchesOther
    | .value _, .int value => value = 0
    | _, _ => False

/-- The test of the parser: a capture, possibly under `as`. -/
def isCapture : Pattern → Bool
  | .capture _ => true
  | .asPattern pattern _ => isCapture pattern
  | _ => false

theorem matches_of_isCapture {nodes : List ModuleNode} {node : ModuleNode} {Obj : Type}
    (rt : Runtime nodes node Obj) : ∀ pattern, isCapture pattern = true →
      ∀ obj, Matches rt pattern obj
  | .capture _, _, _ => trivial
  | .asPattern pattern _, h, obj => matches_of_isCapture rt pattern h obj

/-- The only class of the module that derives from `Expr` is `Num`. -/
theorem expr_descendant {decl : Declaration} (h : Descendant [exprModule] exprModule exprDecl decl) :
    decl = subclassDecl "Num" (.name "Expr") := by
  rcases List.mem_cons.1 h.declared with rfl | hrest
  · -- `Expr` itself has no base
    rcases Relation.TransGen.head'_iff.1 h.derives with ⟨_, ⟨text, htext, -⟩, -⟩
    cases htext
  · exact List.mem_singleton.1 hrest

theorem num_directBase :
    DirectBase [exprModule] (exprModule, subclassDecl "Num" (.name "Expr")) (exprModule, exprDecl) := by
  refine ⟨"Expr", by decide, ?_⟩
  rfl

theorem num_descendant :
    Descendant [exprModule] exprModule exprDecl (subclassDecl "Num" (.name "Expr")) where
  declared := by simp [exprModule]
  isClass := rfl
  topLevel := rfl
  derives := .single num_directBase

theorem expr_subject : SealedSubject [exprModule] exprModule (.name "Expr") exprModule exprDecl where
  in_graph := List.mem_singleton_self _
  keys := by
    intro first hfirst second hsecond _
    rw [List.mem_singleton.1 hfirst, List.mem_singleton.1 hsecond]
  subject := rfl
  isSealed := rfl
  distinct := by
    intro first hfirst second hsecond _ _ _ _ hname
    simp only [exprModule, List.mem_cons, List.not_mem_nil, or_false] at hfirst hsecond
    rcases hfirst with rfl | rfl <;> rcases hsecond with rfl | rfl <;>
      simp [exprDecl, subclassDecl] at hname ⊢
  identifiers := by
    intro decl hdecl
    simp only [exprModule, List.mem_cons, List.not_mem_nil, or_false] at hdecl
    rcases hdecl with rfl | rfl <;> decide

end Expressions

/-! ## Generic results -/

section Results

end Results

end TypePython.Checking
