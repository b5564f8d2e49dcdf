import Std.Data.ExtTreeMap
import Std.Data.ExtTreeSet
import TypePython.Lib.Text
import TypePython.Lib.Words

/-!
# Public surfaces and their differences

What a release exports, symbol by symbol, how two releases differ, and which version the
differences call for. A changed callable is judged by where its signatures mention `Any`.
-/

namespace TypePython.ApiDiff

open Std
open TypePython.Lib
open TypePython.Lib.Text

/-! ## Symbols -/

structure CallableDynamicPositions where
  parameters : Bool
  returns : Bool
deriving DecidableEq, Repr

structure PublicSymbol where
  kind : String
  signature : String
  dynamicPositions : Option CallableDynamicPositions := none
deriving DecidableEq, Repr

/-- The symbols of a module. -/
abbrev ModuleSurface := ExtTreeMap String PublicSymbol

abbrev Surface := ExtTreeMap String ModuleSurface

def Surface.symbol (surface : Surface) (moduleName symbol : String) : Option PublicSymbol :=
  (surface[moduleName]?.getD ∅)[symbol]?

/-! ## Where a signature mentions `Any` -/

/-- What stands before and behind the first occurrence of a text. -/
def splitAt (needle : Chars) : Chars → Option (Chars × Chars)
  | [] => (stripPrefix needle []).map fun after => ([], after)
  | c :: rest =>
    match stripPrefix needle (c :: rest) with
    | some after => some ([], after)
    | none => (splitAt needle rest).map fun (before, after) => (c :: before, after)

/-- The text to the parenthesis that closes the one before it, and what is behind. Parentheses in
string literals do not count. -/
def matchingParenthesis : Nat → Option Char → Bool → Chars → Option (Chars × Chars)
  | _, _, _, [] => none
  | depth, some activeQuote, escaped, c :: rest =>
    let quote := if !escaped && c = activeQuote then none else some activeQuote
    (matchingParenthesis depth quote (!escaped && c = '\x5c') rest).map
      fun (inside, after) => (c :: inside, after)
  | depth, none, _, c :: rest =>
    if c = '\x27' || c = '\x22' then
      (matchingParenthesis depth (some c) false rest).map
        fun (inside, after) => (c :: inside, after)
    else if c = '(' then
      (matchingParenthesis (depth + 1) none false rest).map
        fun (inside, after) => (c :: inside, after)
    else if c = ')' then
      if depth = 1 then some ([], rest)
      else
        (matchingParenthesis (depth - 1) none false rest).map
          fun (inside, after) => (c :: inside, after)
    else
      (matchingParenthesis depth none false rest).map fun (inside, after) => (c :: inside, after)

/-- A line of a signature: nothing to say about it, or the positions of its header. -/
inductive SignatureLine where
  | other
  | header (positions : CallableDynamicPositions)

/-- `none` for a header that is not read. -/
def signatureLine (mentionsDynamic : Chars → Bool) (line : Chars) : Option SignatureLine :=
  match splitAt "def ".toList line with
  | none => some .other
  | some (_, fromName) => do
    let (_, fromOpen) ← splitOnce '(' fromName
    let (parameters, behind) ← matchingParenthesis 1 none false fromOpen
    let (header, _) ← rsplitOnce ':' behind
    return .header {
      parameters := mentionsDynamic parameters
      returns := (splitAt "->".toList header).any fun (_, returns) => mentionsDynamic returns }

def SignatureLine.positions : SignatureLine → Option CallableDynamicPositions
  | .other => none
  | .header positions => some positions

/-- The lines of a text, each without its line end. -/
def lines (text : Chars) : List Chars :=
  let parts := (text.splitOn '\n').map fun line => (stripSuffix ['\r'] line).getD line
  if parts.getLast? = some [] then parts.dropLast else parts

def callableDynamicPositionsBy (signature : Chars) (mentionsDynamic : Chars → Bool) :
    Option CallableDynamicPositions := do
  let found ← (lines signature).mapM (signatureLine mentionsDynamic)
  match found.filterMap SignatureLine.positions with
  | [] => none
  | positions => some {
      parameters := positions.any CallableDynamicPositions.parameters
      returns := positions.any CallableDynamicPositions.returns }

def signatureMentionsDynamicType (signature : Chars) : Bool :=
  (words (fun c => c.isAlphanum || c = '_') signature).any fun token => token = "Any".toList

def callableDynamicPositions (signature : String) : Option CallableDynamicPositions :=
  callableDynamicPositionsBy signature.toList signatureMentionsDynamicType

/-- The positions recorded with a symbol, else those of its text. -/
def PublicSymbol.positions (symbol : PublicSymbol) : Option CallableDynamicPositions :=
  symbol.dynamicPositions.or (callableDynamicPositions symbol.signature)

/-! ## Changes -/

inductive ChangeClassification where
  | sourceCompatible
  | likelyTypeCompatible
  | likelyTypeBreaking
  | runtimeBreakingSignal
  | unknownRisk
deriving DecidableEq, Repr

structure ApiSurfaceChange where
  moduleName : String
  symbol : String
  kind : String
  oldSignature : Option String
  newSignature : Option String
  classification : ChangeClassification
deriving DecidableEq, Repr

def callableKinds : List String :=
  ["function", "method", "static method", "class method", "property"]

def likelyBreaking (old new : CallableDynamicPositions) : Bool :=
  (old.parameters && !new.parameters) || (!old.returns && new.returns)

def likelyCompatible (old new : CallableDynamicPositions) : Bool :=
  (!old.parameters && new.parameters) || (old.returns && !new.returns)

/-- The classification of a callable by where its texts mention `Any`. -/
def classifyMove (old new : CallableDynamicPositions) : ChangeClassification :=
  match likelyBreaking old new, likelyCompatible old new with
  | true, false => .likelyTypeBreaking
  | false, true => .likelyTypeCompatible
  | _, _ => .unknownRisk

def classifyChangedSymbol (oldSymbol newSymbol : PublicSymbol) : ChangeClassification :=
  if oldSymbol.kind ≠ newSymbol.kind then .unknownRisk
  else if oldSymbol.kind = "metadata" then .runtimeBreakingSignal
  else if oldSymbol.kind ∈ callableKinds then
    match oldSymbol.positions, newSymbol.positions with
    | some old, some new => classifyMove old new
    | _, _ => .unknownRisk
  else .unknownRisk

/-- A symbol of one of two surfaces, with what it is in each. -/
structure SymbolPair where
  moduleName : String
  symbol : String
  old : Option PublicSymbol
  new : Option PublicSymbol

namespace SymbolPair

variable (pair : SymbolPair)

def added : Option ApiSurfaceChange :=
  match pair.old, pair.new with
  | none, some newSymbol => some {
      moduleName := pair.moduleName, symbol := pair.symbol, kind := newSymbol.kind
      oldSignature := none, newSignature := some newSymbol.signature
      classification := .sourceCompatible }
  | _, _ => none

def removed : Option ApiSurfaceChange :=
  match pair.old, pair.new with
  | some oldSymbol, none => some {
      moduleName := pair.moduleName, symbol := pair.symbol, kind := oldSymbol.kind
      oldSignature := some oldSymbol.signature, newSignature := none
      classification :=
        if oldSymbol.kind = "metadata" then .runtimeBreakingSignal else .likelyTypeBreaking }
  | _, _ => none

def changed : Option ApiSurfaceChange :=
  match pair.old, pair.new with
  | some oldSymbol, some newSymbol =>
    if oldSymbol = newSymbol then none
    else some {
      moduleName := pair.moduleName, symbol := pair.symbol, kind := newSymbol.kind
      oldSignature := some oldSymbol.signature, newSignature := some newSymbol.signature
      classification := classifyChangedSymbol oldSymbol newSymbol }
  | _, _ => none

end SymbolPair

/-! ## The difference of two surfaces -/

/-- The keys of two maps, in order. -/
def unionKeys {β : Type} (old new : ExtTreeMap String β) : List String :=
  (ExtTreeSet.ofList (old.keys ++ new.keys)).toList

/-- The symbols of both surfaces, module by module. -/
def symbolPairs (old new : Surface) : List SymbolPair :=
  (unionKeys old new).flatMap fun moduleName =>
    let oldSymbols := old[moduleName]?.getD ∅
    let newSymbols := new[moduleName]?.getD ∅
    (unionKeys oldSymbols newSymbols).map fun symbol =>
      { moduleName, symbol, old := oldSymbols[symbol]?, new := newSymbols[symbol]? }

inductive SemverRecommendation where
  | major
  | minor
  | patch
deriving DecidableEq, Repr

def semverRecommendation (removed changed added : List ApiSurfaceChange) : SemverRecommendation :=
  if removed ≠ [] || changed.any fun change => change.classification ≠ .likelyTypeCompatible then
    .major
  else if changed ≠ [] || added ≠ [] then .minor
  else .patch

structure ApiSurfaceDiffReport where
  added : List ApiSurfaceChange
  removed : List ApiSurfaceChange
  changed : List ApiSurfaceChange
  semverRecommendation : SemverRecommendation

def diffApiSurfaces (old new : Surface) : ApiSurfaceDiffReport :=
  let pairs := symbolPairs old new
  let added := pairs.filterMap SymbolPair.added
  let removed := pairs.filterMap SymbolPair.removed
  let changed := pairs.filterMap SymbolPair.changed
  { added, removed, changed
    semverRecommendation := semverRecommendation removed changed added }

example : callableDynamicPositions "def f(x: int, y: Any = (1)) -> list[int]: ..."
    = some { parameters := true, returns := false } := by decide +kernel

end TypePython.ApiDiff
