import TypePython.Lsp.Positions
import TypePython.Lsp.Server

/-!
# Content changes

A client edits its text as a sequence of UTF-16 code units (`editAll`), the server edits its copy
as a sequence of bytes (`applyContentChanges`). The two stay the same text as long as the texts
have no carriage return of their own and are short enough for the counters, and the client gives
no length of a range that it leaves out (`contentChanges_follow`).
-/

namespace TypePython.Lsp

open TypePython.Lib.Text

structure LspContentChangeEvent where
  range : Option LspRange
  rangeLength : Option Nat
  text : Chars
deriving DecidableEq, Repr

inductive ChangeError where
  | rangeLengthWithoutRange
  | position (error : PositionConversionError) (position : LspPosition)
  | startAfterEnd
deriving DecidableEq, Repr

namespace ChangeError

def kind (_ : ChangeError) : LspErrorKind := .contentModified

def message (uri : String) : ChangeError → String
  | rangeLengthWithoutRange =>
    s!"TPY6002: didChange for \x60{uri}\x60 provided \x60rangeLength\x60 without \x60range\x60"
  | position .lineOutOfBounds ⟨line, _⟩ =>
    s!"TPY6002: didChange for \x60{uri}\x60 references line {line} beyond the current document"
  | position .characterOutOfBounds ⟨line, character⟩ =>
    s!"TPY6002: didChange for \x60{uri}\x60 references character {character} beyond line {line}"
  | position .splitsCodePoint ⟨line, character⟩ =>
    s!"TPY6002: didChange for \x60{uri}\x60 splits a UTF-16 code point at line {line}, "
      ++ s!"character {character}"
  | startAfterEnd =>
    s!"TPY6002: didChange for \x60{uri}\x60 uses an invalid range with start after end"

end ChangeError

def lspPositionToByteOffset (text : Chars) (position : LspPosition) : Except ChangeError Nat :=
  (byteOffsetAtPosition text position).mapError fun error => .position error position

/-- `String::replace_range`, at two places where characters begin. -/
def replaceRange (text : Chars) (start stop : Nat) (replacement : Chars) : Chars :=
  match splitAtByte text start, splitAtByte text stop with
  | some (before, _), some (_, after) => before ++ replacement ++ after
  | _, _ => text

def applyRangedChange (text : Chars) (range : LspRange) (replacement : Chars) :
    Except ChangeError Chars :=
  (lspPositionToByteOffset text range.start).bind fun start =>
    (lspPositionToByteOffset text range.stop).bind fun stop =>
      if stop < start then .error .startAfterEnd
      else .ok (replaceRange text start stop replacement)

def applyContentChange (text : Chars) (change : LspContentChangeEvent) :
    Except ChangeError Chars :=
  match change.range with
  | some range => applyRangedChange text range change.text
  | none =>
    if change.rangeLength.isSome then .error .rangeLengthWithoutRange else .ok change.text

def applyContentChanges : Chars → List LspContentChangeEvent → Except ChangeError Chars
  | text, [] => .ok text
  | text, change :: rest =>
    (applyContentChange text change).bind fun text => applyContentChanges text rest

/-! ## The client's edits -/

def editUnits (units : List Nat) (change : LspContentChangeEvent) : Option (List Nat) :=
  match change.range with
  | some range =>
    (offsetOf units range.start).bind fun start =>
      (offsetOf units range.stop).bind fun stop =>
        if start ≤ stop then
          some (units.take start ++ codeUnits change.text ++ units.drop stop)
        else none
  | none => some (codeUnits change.text)

def editAll : List Nat → List LspContentChangeEvent → Option (List Nat)
  | units, [] => some units
  | units, change :: rest => (editUnits units change).bind fun units => editAll units rest

/-- Every text that is edited has fewer code units than the counters can count. -/
def StaysShort : List Nat → List LspContentChangeEvent → Prop
  | _, [] => True
  | units, change :: rest =>
    units.length < 2 ^ 32 ∧ ∀ units', editUnits units change = some units' →
      StaysShort units' rest

/-- A length that is given without its range. -/
def lengthWithoutRange (change : LspContentChangeEvent) : Bool :=
  change.range.isNone && change.rangeLength.isSome

/-! ## One change -/

theorem lspPositionToByteOffset_cases {text : Chars} (hfed : LineFed text)
    (h : utf16Len text < 2 ^ 32) (position : LspPosition) :
    (∃ before after, PlaceIn text before after
        ∧ lspPositionToByteOffset text position = .ok (byteLen before)
        ∧ offsetOf (codeUnits text) position = some (utf16Len before))
      ∨ (∃ error, lspPositionToByteOffset text position = .error error)
        ∧ offsetOf (codeUnits text) position = none := by
  have hbytes := byteOffsetAtPosition_toOption h position
  have hunits := @unitOffset_codeUnits position.line position.character _ hfed
  unfold lspPositionToByteOffset offsetOf
  cases hfront : prefixAt position.line position.character text with
  | some before =>
    obtain ⟨after, hplace, -, -⟩ := prefixAt_eq_some hfed hfront
    rw [hfront] at hbytes hunits
    refine .inl ⟨before, after, hplace, ?_, hunits⟩
    cases hresult : byteOffsetAtPosition text position with
    | error error =>
      rw [hresult] at hbytes
      cases hbytes
    | ok offset =>
      rw [hresult] at hbytes
      rw [Option.some.inj hbytes]
      rfl
  | none =>
    rw [hfront] at hbytes hunits
    refine .inr ⟨?_, hunits⟩
    cases hresult : byteOffsetAtPosition text position with
    | error error => exact ⟨_, rfl⟩
    | ok offset =>
      rw [hresult] at hbytes
      cases hbytes

/-- Two places of one text are in the same order by bytes and by code units. -/
theorem byteLen_lt_iff {text before after before' after' : Chars} (h : text = before ++ after)
    (h' : text = before' ++ after') : byteLen before' < byteLen before ↔ utf16Len before' < utf16Len before := by
  have hgrow : ∀ {first rest : Chars}, rest ≠ [] →
      byteLen first < byteLen (first ++ rest) ∧ utf16Len first < utf16Len (first ++ rest) := by
    intro first rest hne
    have hbytes := byteLen_lt_of_ne_nil hne
    have hlength := length_le_utf16Len rest
    have hpos := List.length_pos_of_ne_nil hne
    rw [byteLen_append, utf16Len_append]
    omega
  rw [h] at h'
  rcases List.append_eq_append_iff.1 h' with ⟨middle, hmiddle, -⟩ | ⟨middle, hmiddle, -⟩
  · rw [hmiddle, byteLen_append, utf16Len_append]
    omega
  · by_cases hne : middle = []
    · rw [hmiddle, hne, List.append_nil]
      simp
    · rw [hmiddle]
      exact iff_of_true (hgrow hne).1 (hgrow hne).2

theorem replaceRange_append {text before after before' after' : Chars} (h : text = before ++ after)
    (h' : text = before' ++ after') (replacement : Chars) :
    replaceRange text (byteLen before) (byteLen before') replacement
      = before ++ replacement ++ after' := by
  unfold replaceRange
  have hstart : splitAtByte text (byteLen before) = some (before, after) := by
    rw [h, splitAtByte_append]
  have hstop : splitAtByte text (byteLen before') = some (before', after') := by
    rw [h', splitAtByte_append]
  rw [hstart, hstop]

/-- What a change leaves on both sides. -/
structure ChangeFollowed (text : Chars) (change : LspContentChangeEvent) : Prop where
  units : (applyContentChange text change).toOption.map codeUnits
    = if lengthWithoutRange change then none else editUnits (codeUnits text) change
  fed : ∀ text', applyContentChange text change = .ok text' → LineFed text'

theorem change_followed {text : Chars} {change : LspContentChangeEvent} (hfed : LineFed text)
    (hchange : LineFed change.text) (h : utf16Len text < 2 ^ 32) : ChangeFollowed text change := by
  obtain ⟨range, rangeLength, replacement⟩ := change
  cases range with
  | none =>
    cases rangeLength with
    | none =>
      refine ⟨rfl, ?_⟩
      intro text' hok
      cases hok
      exact hchange
    | some length =>
      refine ⟨rfl, ?_⟩
      intro text' hok
      cases hok
  | some range =>
    have hranged : applyContentChange text ⟨some range, rangeLength, replacement⟩
        = applyRangedChange text range replacement := rfl
    have hlength : lengthWithoutRange ⟨some range, rangeLength, replacement⟩ = false := rfl
    have hfail : ∀ {error}, applyRangedChange text range replacement = .error error →
        editUnits (codeUnits text) ⟨some range, rangeLength, replacement⟩ = none →
        ChangeFollowed text ⟨some range, rangeLength, replacement⟩ := by
      intro error herror hunits
      constructor
      · rw [hranged, herror, hlength, hunits]
        rfl
      · intro text' hok
        rw [hranged, herror] at hok
        cases hok
    rcases lspPositionToByteOffset_cases hfed h range.start with
      ⟨before, after, hplace, hstart, hstart'⟩ | ⟨⟨error, hstart⟩, hstart'⟩
    · rcases lspPositionToByteOffset_cases hfed h range.stop with
        ⟨before', after', hplace', hstop, hstop'⟩ | ⟨⟨error, hstop⟩, hstop'⟩
      · have horder := byteLen_lt_iff hplace.split hplace'.split
        by_cases hlt : byteLen before' < byteLen before
        · apply hfail
          · unfold applyRangedChange
            rw [hstart, hstop]
            exact if_pos hlt
          · unfold editUnits
            simp only
            rw [hstart', hstop', Option.bind_some, Option.bind_some,
              if_neg (Nat.not_le.2 (horder.1 hlt))]
        · have hle : utf16Len before ≤ utf16Len before' := Nat.not_lt.1 (mt horder.2 hlt)
          have hok : applyRangedChange text range replacement
              = .ok (before ++ replacement ++ after') := by
            unfold applyRangedChange
            rw [hstart, hstop, ← replaceRange_append hplace.split hplace'.split]
            exact if_neg hlt
          constructor
          · have htake : (codeUnits text).take (utf16Len before) = codeUnits before := by
              rw [hplace.split, codeUnits_append, ← length_codeUnits, List.take_left]
            have hdrop : (codeUnits text).drop (utf16Len before') = codeUnits after' := by
              rw [hplace'.split, codeUnits_append, ← length_codeUnits, List.drop_left]
            rw [hranged, hok, hlength, editUnits]
            simp only
            rw [hstart', hstop', Option.bind_some, Option.bind_some, if_pos hle, htake, hdrop,
              if_neg Bool.false_ne_true, ← codeUnits_append, ← codeUnits_append]
            rfl
          · intro text' hok'
            rw [hranged, hok, Except.ok.injEq] at hok'
            rw [← hok']
            have hbefore := LineFed.initial (hplace.split ▸ hfed) hplace.whole
            exact (hbefore.append hchange).append (LineFed.suffix (hplace'.split ▸ hfed))
      · apply hfail
        · unfold applyRangedChange
          rw [hstart, hstop]
          rfl
        · unfold editUnits
          simp only
          rw [hstart', hstop']
          rfl
    · apply hfail
      · unfold applyRangedChange
        rw [hstart]
        rfl
      · unfold editUnits
        simp only
        rw [hstart']
        rfl

/-! ## All changes -/

theorem map_toOption_bind {text : Except ChangeError Chars} (f : Chars → Except ChangeError Chars) :
    (text.bind f).toOption.map codeUnits
      = text.toOption.bind fun text => (f text).toOption.map codeUnits := by
  cases text with
  | error error => rfl
  | ok text => rfl

theorem changes_units {text : Chars} {changes : List LspContentChangeEvent} (hfed : LineFed text)
    (hchanges : ∀ change ∈ changes, LineFed change.text)
    (hshort : StaysShort (codeUnits text) changes) :
    (applyContentChanges text changes).toOption.map codeUnits
      = if changes.any lengthWithoutRange then none else editAll (codeUnits text) changes := by
  induction changes generalizing text with
  | nil => rfl
  | cons change rest ih =>
    rw [List.forall_mem_cons] at hchanges
    obtain ⟨hlength, hrest⟩ := hshort
    rw [length_codeUnits] at hlength
    have hfollowed := change_followed hfed hchanges.1 hlength
    rw [applyContentChanges, map_toOption_bind, List.any_cons, editAll]
    have hunits := hfollowed.units
    cases hresult : applyContentChange text change with
    | error error =>
      rw [hresult] at hunits
      cases hwithout : lengthWithoutRange change with
      | true => rfl
      | false =>
        rw [hwithout, if_neg Bool.false_ne_true] at hunits
        rw [← hunits, Bool.false_or]
        split <;> rfl
    | ok text' =>
      rw [hresult] at hunits
      cases hwithout : lengthWithoutRange change with
      | true =>
        rw [hwithout, if_pos rfl] at hunits
        cases hunits
      | false =>
        rw [hwithout, if_neg Bool.false_ne_true] at hunits
        rw [← hunits, Bool.false_or]
        exact ih (hfollowed.fed text' hresult) hchanges.2 (hrest _ hunits.symm)

/-! ## The overlay -/

section Host

variable {Files Caches Diag : Type} (ops : WorkspaceOps Files Caches Diag LspContentChangeEvent)

/-- The operations of a workspace, with the edits of this module. -/
def withContentChanges : WorkspaceOps Files Caches Diag LspContentChangeEvent :=
  { ops with
    applyContentChanges := fun text changes =>
      ((applyContentChanges text.toList changes).map String.ofList).mapError ChangeError.kind }

/-- Whether updating the workspace works out or not, the overlays stay. -/
theorem updateWorkspace_overlays
    (update : IncrementalWorkspace Caches Diag → WorkspaceUpdate Caches Diag)
    (host : AnalysisHost Caches Diag) : (updateWorkspace update host).1.overlays = host.overlays := by
  unfold updateWorkspace
  cases host.cachedWorkspace with
  | none => rfl
  | some workspace =>
    simp only
    cases (update workspace).result with
    | error error => rfl
    | ok diagnostics => rfl

/-- A request that reaches the edits. -/
structure Editing (uri : String) (version : Int) (changes : List LspContentChangeEvent)
    (host : AnalysisHost Caches Diag) (path : String) (current : OverlayDocument) : Prop where
  located : ops.uriToPath uri = some path
  opened : host.overlays[path]? = some current
  newer : current.version < version
  nonempty : changes ≠ []

theorem changeDocument_eq {files : Files} {uri : String} {version : Int}
    {changes : List LspContentChangeEvent} {host : AnalysisHost Caches Diag} {path : String}
    {current : OverlayDocument} (h : Editing ops uri version changes host path current) :
    (∀ error, applyContentChanges current.text.toList changes = .error error →
        changeDocument (withContentChanges ops) files uri version changes host
          = (host, .error .contentModified))
      ∧ ∀ text, applyContentChanges current.text.toList changes = .ok text →
        (changeDocument (withContentChanges ops) files uri version changes host).1.overlays
          = host.overlays.insert path { uri, text := String.ofList text, version } := by
  have hempty : changes.isEmpty = false := List.isEmpty_eq_false_iff.2 h.nonempty
  have hpath : (withContentChanges ops).uriToPath uri = some path := h.located
  unfold changeDocument
  rw [hpath]
  simp only [h.opened]
  rw [if_neg (Int.not_le.2 h.newer), hempty, if_neg Bool.false_ne_true]
  constructor
  · intro error herror
    have happly : (withContentChanges ops).applyContentChanges current.text changes
        = .error .contentModified := by
      simp only [withContentChanges, herror]
      rfl
    rw [happly]
  · intro text hok
    have happly : (withContentChanges ops).applyContentChanges current.text changes
        = .ok (String.ofList text) := by
      simp only [withContentChanges, hok]
      rfl
    rw [happly]
    exact updateWorkspace_overlays _ _

/-! ## Following the client -/

/-- The client's text after the changes, if they are to be accepted. -/
def clientText (text : Chars) (changes : List LspContentChangeEvent) : Option (List Nat) :=
  if changes.any lengthWithoutRange then none else editAll (codeUnits text) changes

/-- The overlay is the client's text, or nothing changes. -/
structure OverlayFollows (files : Files) (uri : String) (version : Int)
    (changes : List LspContentChangeEvent) (host : AnalysisHost Caches Diag) (path : String)
    (current : OverlayDocument) : Prop where
  refused : clientText current.text.toList changes = none →
    changeDocument (withContentChanges ops) files uri version changes host
      = (host, .error .contentModified)
  edited : ∀ units, clientText current.text.toList changes = some units →
    ∃ text, codeUnits text = units
      ∧ (changeDocument (withContentChanges ops) files uri version changes host).1.overlays
        = host.overlays.insert path { uri, text := String.ofList text, version }

structure FollowsClient (text : Chars) (changes : List LspContentChangeEvent) : Prop where
  offsets : ∀ position offset, byteOffsetAtPosition text position = .ok offset
    ↔ (∃ before after, PlaceIn text before after ∧ byteLen before = offset)
      ∧ positionAtByteOffset text offset = some position
  positions : ∀ before after, PlaceIn text before after →
    ∃ position, positionAtByteOffset text (byteLen before) = some position
  texts : (applyContentChanges text changes).toOption.map codeUnits = clientText text changes
  overlays : ∀ files uri version host path current, current.text.toList = text →
    Editing ops uri version changes host path current →
      OverlayFollows ops files uri version changes host path current

theorem contentChanges_follow {text : Chars} {changes : List LspContentChangeEvent}
    (hfed : LineFed text) (hchanges : ∀ change ∈ changes, LineFed change.text)
    (hlength : utf16Len text < 2 ^ 32) (hshort : StaysShort (codeUnits text) changes) :
    FollowsClient ops text changes := by
  have htexts := changes_units hfed hchanges hshort
  refine ⟨byteOffsetAtPosition_iff hfed hlength, ?_, htexts, ?_⟩
  · intro before after hplace
    rw [hplace.split, positionAtByteOffset_append (hplace.split ▸ hlength)]
    exact ⟨_, rfl⟩
  · rintro files uri version host path current rfl hediting
    obtain ⟨herror, hok⟩ := @changeDocument_eq _ _ _ ops files _ _ _ _ _ _ hediting
    change _ = clientText current.text.toList changes at htexts
    constructor
    · intro hnone
      rw [hnone] at htexts
      cases hresult : applyContentChanges current.text.toList changes with
      | error error => exact herror error hresult
      | ok text =>
        rw [hresult] at htexts
        cases htexts
    · intro units hsome
      rw [hsome] at htexts
      cases hresult : applyContentChanges current.text.toList changes with
      | error error =>
        rw [hresult] at htexts
        cases htexts
      | ok text =>
        rw [hresult] at htexts
        exact ⟨text, Option.some.inj htexts, hok text hresult⟩

end Host

/-- A workspace without files. -/
def emptyOps : WorkspaceOps Unit Unit Unit LspContentChangeEvent where
  uriToPath := some
  applyContentChanges := fun text _ => .ok text
  new := fun _ _ => .error .internal
  applyProjectPathUpdate := fun _ _ _ _ => { caches := (), result := .ok ∅ }
  applyFileSystemPathUpdate := fun _ _ _ _ => { caches := (), result := .ok ∅ }

/-- A letter behind a character of two code units is replaced. -/
def replaceBehindPair : LspContentChangeEvent where
  range := some ⟨⟨0, 2⟩, ⟨0, 3⟩⟩
  rangeLength := some 1
  text := "y".toList

theorem replaceBehindPair_follows :
    FollowsClient emptyOps [Char.ofNat 0x1F600, 'x'] [replaceBehindPair] := by
  have hfed : ∀ {text : Chars}, '\r' ∉ text → LineFed text := by
    intro text hnone before after htext
    rw [htext] at hnone
    exact absurd (List.mem_append_right _ List.mem_cons_self) hnone
  apply contentChanges_follow
  · exact hfed (by decide)
  · intro change hchange
    rw [List.mem_singleton.1 hchange]
    exact hfed (by decide)
  · decide
  · exact ⟨by decide, fun _ _ => trivial⟩

theorem positionAtByteOffset_replicate (lines : Nat) :
    positionAtByteOffset (List.replicate lines '\n') lines = some ⟨lines % 2 ^ 32, 0⟩ := by
  have hbytes : byteLen (List.replicate lines '\n') = lines := by
    induction lines with
    | zero => rfl
    | succ lines ih =>
      have hsize : ('\n' : Char).utf8Size = 1 := rfl
      rw [List.replicate_succ, byteLen, ih, hsize, Nat.add_comm]
  have hlast : lastLine (List.replicate lines '\n') = [] := by
    unfold lastLine
    rw [List.reverse_replicate]
    cases lines with
    | zero => rfl
    | succ lines => rfl
  have hsplit := splitAtByte_append (List.replicate lines '\n') []
  rw [hbytes, List.append_nil] at hsplit
  rw [positionAtByteOffset, hsplit, Option.map_some]
  simp only
  rw [hlast, List.count_replicate_self]
  rfl

theorem byteOffsetAtPosition_start (text : Chars) :
    byteOffsetAtPosition text ⟨0, 0⟩ = .ok 0 := by
  have hcolumn : ∀ line, byteOffsetAtUtf16Column 0 0 0 line = .ok 0 := by
    intro line
    cases line with
    | nil => rfl
    | cons c rest => rfl
  unfold byteOffsetAtPosition
  rcases line_cases text with hnone | ⟨raw, rest, hraw, rfl⟩
  · rw [rawLines_of_notMem hnone, byteOffsetFrom, if_pos rfl, hcolumn]
    rfl
  · rw [rawLines_append hraw, byteOffsetFrom, if_pos rfl, hcolumn]
    rfl

/-- A length without its range is refused, a carriage return alone is no line break, and behind
so many lines the position is that of the start. -/
theorem contentChanges_not_followed :
    (applyContentChanges [] [⟨none, some 0, ['a']⟩] = .error .rangeLengthWithoutRange
        ∧ editAll (codeUnits []) [⟨none, some 0, ['a']⟩] = some (codeUnits ['a']))
      ∧ (applyContentChanges [] [⟨none, none, ['\r']⟩, ⟨some ⟨⟨1, 0⟩, ⟨1, 0⟩⟩, none, ['a']⟩]
          = .error (.position .lineOutOfBounds ⟨1, 0⟩)
        ∧ editAll (codeUnits []) [⟨none, none, ['\r']⟩, ⟨some ⟨⟨1, 0⟩, ⟨1, 0⟩⟩, none, ['a']⟩]
          = some (codeUnits ['\r', 'a']))
      ∧ positionAtByteOffset (List.replicate (2 ^ 32) '\n') (2 ^ 32) = some ⟨0, 0⟩
        ∧ byteOffsetAtPosition (List.replicate (2 ^ 32) '\n') ⟨0, 0⟩ = .ok 0 := by
  refine ⟨⟨rfl, rfl⟩, ⟨rfl, rfl⟩, ?_, ?_⟩
  · rw [positionAtByteOffset_replicate, Nat.mod_self]
  · exact byteOffsetAtPosition_start _

end TypePython.Lsp
