import TypePython.Lib.CodeUnits
import TypePython.Lib.Replacement

/-!
# Lines of a dual function

A line of an asynchronous function is rewritten for the synchronous one as text: the first
`await ` is taken out, and `AsyncClient` becomes `Client` wherever it stands. On the tokens of the
line this is what it should be exactly if the text shows where they are (`syncDualLine_iff`).
-/

namespace TypePython.Emit

open TypePython.Lib.Text

def awaitText : Chars := "await ".toList

def asyncClientText : Chars := "AsyncClient".toList

def syncDualLine (line : Chars) : Chars :=
  replaceAll asyncClientText "Client".toList (replaceFirst awaitText [] line)

/-! ## Lines as tokens -/

/-- What a line consists of. An operator takes the blank behind it with it; everything that is no
operator and no `AsyncClient` stands for itself, be it a literal, a comment or another name. -/
inductive DualToken where
  | awaitOperator (spaced : Bool)
  | asyncClient
  | verbatim (text : Chars)
deriving DecidableEq

namespace DualToken

def text : DualToken → Chars
  | awaitOperator spaced => "await".toList ++ if spaced then [' '] else []
  | asyncClient => asyncClientText
  | verbatim text => text

/-- What the token is in the synchronous function. -/
def sync : DualToken → Chars
  | awaitOperator _ => []
  | asyncClient => "Client".toList
  | verbatim text => text

def isAwaitOperator : DualToken → Bool
  | awaitOperator _ => true
  | _ => false

end DualToken

abbrev DualLine := List DualToken

namespace DualLine

def text (line : DualLine) : Chars := line.flatMap DualToken.text

def sync (line : DualLine) : Chars := line.flatMap DualToken.sync

/-- The line without its operators. -/
def withoutOperators (line : DualLine) : DualLine := line.filter fun token => !token.isAwaitOperator

def operators (line : DualLine) : Nat := line.countP DualToken.isAwaitOperator

def clients (line : DualLine) : Nat := line.count .asyncClient

end DualLine

theorem headed_asyncClient : Headed asyncClientText 'A' "syncClient".toList where
  eq := rfl
  once := by decide

namespace DualLine

variable {line : DualLine}

@[simp] theorem text_append (line rest : DualLine) :
    DualLine.text (line ++ rest) = line.text ++ DualLine.text rest := List.flatMap_append

@[simp] theorem sync_append (line rest : DualLine) :
    DualLine.sync (line ++ rest) = line.sync ++ DualLine.sync rest := List.flatMap_append

@[simp] theorem text_cons (token : DualToken) (rest : DualLine) :
    DualLine.text (token :: rest) = token.text ++ DualLine.text rest := List.flatMap_cons

@[simp] theorem sync_cons (token : DualToken) (rest : DualLine) :
    DualLine.sync (token :: rest) = token.sync ++ DualLine.sync rest := List.flatMap_cons

@[simp] theorem operators_append (line rest : DualLine) :
    DualLine.operators (line ++ rest) = line.operators + DualLine.operators rest :=
  List.countP_append

@[simp] theorem clients_append (line rest : DualLine) :
    DualLine.clients (line ++ rest) = line.clients + DualLine.clients rest := List.count_append

theorem text_verbatim (text : Chars) : (DualToken.verbatim text).text = text := by
  unfold DualToken.text
  rfl

theorem sync_verbatim (text : Chars) : (DualToken.verbatim text).sync = text := by
  unfold DualToken.sync
  rfl

theorem text_asyncClient : DualToken.asyncClient.text = asyncClientText := by
  unfold DualToken.text
  rfl

theorem sync_awaitOperator (spaced : Bool) : (DualToken.awaitOperator spaced).sync = [] := by
  unfold DualToken.sync
  rfl

theorem operators_awaitOperator (spaced : Bool) (rest : DualLine) :
    DualLine.operators (.awaitOperator spaced :: rest) = rest.operators + 1 :=
  List.countP_cons_of_pos rfl

theorem operators_asyncClient (rest : DualLine) :
    DualLine.operators (.asyncClient :: rest) = rest.operators :=
  List.countP_cons_of_neg Bool.false_ne_true

theorem operators_verbatim (text : Chars) (rest : DualLine) :
    DualLine.operators (.verbatim text :: rest) = rest.operators :=
  List.countP_cons_of_neg Bool.false_ne_true

theorem clients_awaitOperator (spaced : Bool) (rest : DualLine) :
    DualLine.clients (.awaitOperator spaced :: rest) = rest.clients :=
  List.count_cons_of_ne (by simp)

theorem clients_asyncClient (rest : DualLine) :
    DualLine.clients (.asyncClient :: rest) = rest.clients + 1 := List.count_cons_self

theorem clients_verbatim (text : Chars) (rest : DualLine) :
    DualLine.clients (.verbatim text :: rest) = rest.clients := List.count_cons_of_ne (by simp)

/-- Each operator has one `w`, which is lost with it. -/
theorem count_w (line : DualLine) :
    line.text.count 'w' = line.sync.count 'w' + line.operators := by
  induction line with
  | nil => rfl
  | cons token rest ih =>
    rw [text_cons, sync_cons, List.count_append, List.count_append, ih]
    cases token with
    | awaitOperator spaced =>
      have hword : (DualToken.awaitOperator spaced).text.count 'w' = 1 := by
        cases spaced <;> decide
      rw [operators_awaitOperator, hword, sync_awaitOperator, List.count_nil]
      omega
    | asyncClient =>
      have hword : DualToken.asyncClient.text.count 'w' = 0 := by decide
      have hsync : DualToken.asyncClient.sync.count 'w' = 0 := by decide
      rw [operators_asyncClient, hword, hsync]
      omega
    | verbatim text =>
      rw [operators_verbatim, text_verbatim, sync_verbatim]
      omega

/-- Each `AsyncClient` has one `A`, which is lost with it. -/
theorem count_A (line : DualLine) :
    line.text.count 'A' = line.sync.count 'A' + line.clients := by
  induction line with
  | nil => rfl
  | cons token rest ih =>
    rw [text_cons, sync_cons, List.count_append, List.count_append, ih]
    cases token with
    | awaitOperator spaced =>
      have hword : (DualToken.awaitOperator spaced).text.count 'A' = 0 := by
        cases spaced <;> decide
      rw [clients_awaitOperator, hword, sync_awaitOperator, List.count_nil]
      omega
    | asyncClient =>
      have hword : DualToken.asyncClient.text.count 'A' = 1 := by decide
      have hsync : DualToken.asyncClient.sync.count 'A' = 0 := by decide
      rw [clients_asyncClient, hword, hsync]
      omega
    | verbatim text =>
      rw [clients_verbatim, text_verbatim, sync_verbatim]
      omega

/-- Without operators only the names change, by five characters each. -/
theorem length_of_operators (h : line.operators = 0) :
    line.text.length = line.sync.length + line.clients * 5 := by
  induction line with
  | nil => rfl
  | cons token rest ih =>
    rw [text_cons, sync_cons, List.length_append, List.length_append]
    cases token with
    | awaitOperator spaced =>
      rw [operators_awaitOperator] at h
      omega
    | asyncClient =>
      have hword : DualToken.asyncClient.text.length = 11 := by decide
      have hsync : DualToken.asyncClient.sync.length = 6 := by decide
      rw [operators_asyncClient] at h
      rw [clients_asyncClient, hword, hsync, ih h]
      omega
    | verbatim text =>
      rw [operators_verbatim] at h
      rw [clients_verbatim, ih h, text_verbatim, sync_verbatim]
      omega

theorem withoutOperators_eq (h : line.operators = 0) : line.withoutOperators = line := by
  unfold DualLine.withoutOperators
  rw [List.filter_eq_self]
  intro token htoken
  rw [DualLine.operators, List.countP_eq_zero] at h
  simpa using h token htoken

theorem withoutOperators_append (line rest : DualLine) :
    DualLine.withoutOperators (line ++ rest) = line.withoutOperators ++ DualLine.withoutOperators rest :=
  List.filter_append _ _

/-- The line with one operator. -/
theorem withoutOperators_single {before after : DualLine} {spaced : Bool}
    (hbefore : before.operators = 0) (hafter : after.operators = 0) :
    DualLine.withoutOperators (before ++ .awaitOperator spaced :: after) = before ++ after := by
  rw [withoutOperators_append, withoutOperators_eq hbefore, DualLine.withoutOperators,
    List.filter_cons_of_neg (by simp [DualToken.isAwaitOperator])]
  exact congrArg (before ++ ·) (withoutOperators_eq hafter)

theorem exists_operator (h : line.operators = 1) :
    ∃ before spaced after, line = before ++ .awaitOperator spaced :: after
      ∧ DualLine.operators before = 0 ∧ DualLine.operators after = 0 := by
  induction line with
  | nil => cases h
  | cons token rest ih =>
    cases token with
    | awaitOperator spaced =>
      rw [operators_awaitOperator] at h
      exact ⟨[], spaced, rest, rfl, rfl, by omega⟩
    | asyncClient =>
      rw [operators_asyncClient] at h
      obtain ⟨before, spaced, after, rfl, hbefore, hafter⟩ := ih h
      exact ⟨.asyncClient :: before, spaced, after, rfl,
        by rw [operators_asyncClient, hbefore], hafter⟩
    | verbatim text =>
      rw [operators_verbatim] at h
      obtain ⟨before, spaced, after, rfl, hbefore, hafter⟩ := ih h
      exact ⟨.verbatim text :: before, spaced, after, rfl,
        by rw [operators_verbatim, hbefore], hafter⟩

end DualLine

/-! ## Names -/

theorem occurrences_le_append {pattern : Chars} (text rest : Chars) :
    occurrences pattern rest ≤ occurrences pattern (text ++ rest) := by
  induction text with
  | nil => exact Nat.le_refl _
  | cons c text ih =>
    rw [List.cons_append, occurrences]
    omega

/-- Where no occurrence begins in a text, it is kept. -/
theorem replaceAll_append {pattern replacement text rest : Chars}
    (h : occurrences pattern (text ++ rest) = occurrences pattern rest) :
    replaceAll pattern replacement (text ++ rest) = text ++ replaceAll pattern replacement rest := by
  induction text with
  | nil => rfl
  | cons c text ih =>
    have hle := @occurrences_le_append pattern text rest
    rw [List.cons_append, occurrences] at h
    by_cases hfront : pattern.isPrefixOf (c :: (text ++ rest)) = true
    · rw [if_pos hfront] at h
      omega
    · rw [if_neg hfront, Nat.zero_add] at h
      rw [List.cons_append, replaceAll_cons (Bool.eq_false_iff.2 hfront), ih h]
      rfl

namespace DualLine

variable {line : DualLine}

theorem clients_le_occurrences (h : line.operators = 0) :
    line.clients ≤ occurrences asyncClientText line.text := by
  induction line with
  | nil => exact Nat.le_refl 0
  | cons token rest ih =>
    rw [text_cons]
    cases token with
    | awaitOperator spaced =>
      rw [operators_awaitOperator] at h
      omega
    | asyncClient =>
      rw [operators_asyncClient] at h
      have hrest := ih h
      rw [clients_asyncClient, text_asyncClient, headed_asyncClient.occurrences_pattern]
      omega
    | verbatim text =>
      rw [operators_verbatim] at h
      have hrest := ih h
      have hle := @occurrences_le_append asyncClientText text (DualLine.text rest)
      rw [clients_verbatim, text_verbatim]
      omega

/-- Replacing the text replaces the names, where the text has no other occurrence of theirs. -/
theorem replaceAll_text (h : line.operators = 0)
    (hclients : occurrences asyncClientText line.text = line.clients) :
    replaceAll asyncClientText "Client".toList line.text = line.sync := by
  induction line with
  | nil => rfl
  | cons token rest ih =>
    rw [text_cons] at hclients
    rw [text_cons, sync_cons]
    cases token with
    | awaitOperator spaced =>
      rw [operators_awaitOperator] at h
      omega
    | asyncClient =>
      rw [operators_asyncClient] at h
      rw [clients_asyncClient, text_asyncClient, headed_asyncClient.occurrences_pattern]
        at hclients
      rw [← ih h (by omega)]
      exact replaceAll_pattern (DualLine.text rest)
    | verbatim text =>
      rw [operators_verbatim] at h
      rw [clients_verbatim, text_verbatim] at hclients
      have hle := clients_le_occurrences h
      have hmore := @occurrences_le_append asyncClientText text (DualLine.text rest)
      rw [text_verbatim, replaceAll_append (by omega), ih h (by omega)]
      rfl

/-! ## Cutting a line -/

/-- A line without operators, cut before a character that no name has. -/
theorem exists_cut (h : line.operators = 0) {before rest : Chars} {c : Char}
    (hc : c ∉ asyncClientText) (htext : line.text = before ++ c :: rest) :
    ∃ first last : DualLine, first.operators = 0 ∧ last.operators = 0 ∧ first.text = before
      ∧ last.text = c :: rest ∧ line.sync = first.sync ++ last.sync
      ∧ line.clients = first.clients + last.clients := by
  induction line generalizing before with
  | nil =>
    have hlength := congrArg List.length htext
    rw [List.length_append, List.length_cons] at hlength
    change 0 = _ at hlength
    omega
  | cons token tokens ih =>
    rw [text_cons] at htext
    cases token with
    | awaitOperator spaced =>
      rw [operators_awaitOperator] at h
      omega
    | asyncClient =>
      rw [operators_asyncClient] at h
      rcases List.append_eq_append_iff.1 htext with ⟨gap, rfl, hrest⟩ | ⟨gap, hname, hrest⟩
      · obtain ⟨first, last, hfirst, hlast, rfl, hlast', hsync, hclients⟩ := ih h hrest
        refine ⟨.asyncClient :: first, last, ?_, hlast, ?_, hlast', ?_, ?_⟩
        · rw [operators_asyncClient, hfirst]
        · rw [text_cons]
        · rw [sync_cons, sync_cons, hsync, List.append_assoc]
        · rw [clients_asyncClient, clients_asyncClient, hclients]
          omega
      · cases gap with
        | nil =>
          rw [List.append_nil] at hname
          refine ⟨[.asyncClient], tokens, rfl, h, ?_, hrest.symm, ?_, ?_⟩
          · rw [← hname]
            rfl
          · rw [sync_cons]
            rfl
          · rw [clients_asyncClient, Nat.add_comm]
            rfl
        | cons d gap =>
          rw [List.cons_append, List.cons.injEq] at hrest
          refine absurd ?_ hc
          have hmem : d ∈ DualToken.asyncClient.text := by rw [hname]; simp
          rw [hrest.1]
          exact hmem
    | verbatim text =>
      rw [operators_verbatim] at h
      rcases List.append_eq_append_iff.1 htext with ⟨gap, rfl, hrest⟩ | ⟨gap, hverbatim, hrest⟩
      · obtain ⟨first, last, hfirst, hlast, rfl, hlast', hsync, hclients⟩ := ih h hrest
        refine ⟨.verbatim text :: first, last, ?_, hlast, ?_, hlast', ?_, ?_⟩
        · rw [operators_verbatim, hfirst]
        · rw [text_cons]
        · rw [sync_cons, sync_cons, hsync, List.append_assoc]
        · rw [clients_verbatim, clients_verbatim, hclients]
      · refine ⟨[.verbatim before], .verbatim gap :: tokens, rfl, ?_, ?_, ?_, ?_, ?_⟩
        · rw [operators_verbatim, h]
        · simp [DualLine.text, text_verbatim]
        · rw [text_cons, hrest]
          rfl
        · have hsync : (DualToken.verbatim text).sync = before ++ gap := hverbatim
          rw [sync_cons, sync_cons, hsync]
          simp [DualLine.sync, sync_verbatim]
        · rw [clients_verbatim, clients_verbatim]
          exact (Nat.zero_add _).symm

/-- A line without operators, without its first character. -/
theorem exists_tail (h : line.operators = 0) {rest : Chars} {c : Char} (hc : c ≠ 'A')
    (htext : line.text = c :: rest) :
    ∃ tail : DualLine, tail.operators = 0 ∧ tail.text = rest ∧ line.sync = c :: tail.sync
      ∧ line.clients = tail.clients := by
  induction line with
  | nil => cases htext
  | cons token tokens ih =>
    rw [text_cons] at htext
    cases token with
    | awaitOperator spaced =>
      rw [operators_awaitOperator] at h
      omega
    | asyncClient =>
      have hhead : 'A' = c := (List.cons.inj htext).1
      exact absurd hhead.symm hc
    | verbatim text =>
      rw [operators_verbatim] at h
      cases text with
      | nil =>
        obtain ⟨tail, htail, hrest, hsync, hclients⟩ := ih h htext
        refine ⟨tail, htail, hrest, ?_, ?_⟩
        · rw [sync_cons, hsync]
          rfl
        · rw [clients_verbatim, hclients]
      | cons d text =>
        obtain ⟨rfl, hrest⟩ := List.cons.inj htext
        refine ⟨.verbatim text :: tokens, ?_, ?_, ?_, ?_⟩
        · rw [operators_verbatim, h]
        · rw [text_cons, ← hrest]
          rfl
        · rw [sync_cons, sync_cons]
          rfl
        · rw [clients_verbatim, clients_verbatim]

theorem exists_drop {skipped : Chars} (hskipped : 'A' ∉ skipped) {rest : Chars}
    (h : line.operators = 0) (htext : line.text = skipped ++ rest) :
    ∃ tail : DualLine, tail.operators = 0 ∧ tail.text = rest ∧ line.sync = skipped ++ tail.sync
      ∧ line.clients = tail.clients := by
  induction skipped generalizing line with
  | nil => exact ⟨line, h, htext, rfl, rfl⟩
  | cons c skipped ih =>
    rw [List.mem_cons, not_or] at hskipped
    obtain ⟨tail, htail, hrest, hsync, hclients⟩ := exists_tail h (Ne.symm hskipped.1) htext
    obtain ⟨tail', htail', hrest', hsync', hclients'⟩ := ih hskipped.2 htail hrest
    refine ⟨tail', htail', hrest', ?_, by rw [hclients, hclients']⟩
    rw [hsync, hsync']
    rfl

/-- Around the text of an operator that is none. -/
theorem exists_around (h : line.operators = 0) {before rest : Chars}
    (htext : line.text = before ++ awaitText ++ rest) :
    ∃ first last : DualLine, first.operators = 0 ∧ last.operators = 0 ∧ first.text = before
      ∧ last.text = rest ∧ line.sync = first.sync ++ awaitText ++ last.sync
      ∧ line.clients = first.clients + last.clients := by
  have hcut : line.text = before ++ 'a' :: ("wait ".toList ++ rest) := by
    rw [htext, List.append_assoc]
    rfl
  obtain ⟨first, others, hfirst, hothers, hbefore, hothers', hsync, hclients⟩ :=
    exists_cut h (by decide) hcut
  obtain ⟨last, hlast, hrest, hsync', hclients'⟩ :=
    @exists_drop others awaitText (by decide) rest hothers hothers'
  refine ⟨first, last, hfirst, hlast, hbefore, hrest, ?_, by rw [hclients, hclients']⟩
  rw [hsync, hsync', List.append_assoc]

theorem sync_eq_text (h : line.operators = 0) (hclients : line.clients = 0) :
    line.sync = line.text := by
  induction line with
  | nil => rfl
  | cons token tokens ih =>
    cases token with
    | awaitOperator spaced =>
      rw [operators_awaitOperator] at h
      omega
    | asyncClient =>
      rw [clients_asyncClient] at hclients
      omega
    | verbatim text =>
      rw [operators_verbatim] at h
      rw [clients_verbatim] at hclients
      rw [sync_cons, text_cons, ih h hclients]
      rfl

theorem clients_eq_zero (h : 'C' ∉ line.sync) : line.clients = 0 := by
  unfold DualLine.clients
  rw [List.count_eq_zero]
  intro hmem
  refine h (List.mem_flatMap.2 ⟨.asyncClient, hmem, ?_⟩)
  decide

end DualLine

/-! ## One line -/

/-- The first operator does not follow a name that ends like one. -/
def NoNameBefore (line : DualLine) : Prop :=
  line.operators = 0
    ∨ ¬ awaitText <:+ DualLine.text (line.takeWhile fun token => !token.isAwaitOperator)

instance (line : DualLine) : Decidable (NoNameBefore line) :=
  inferInstanceAs (Decidable (_ ∨ _))

theorem NoNameBefore.not_suffix {before after : DualLine} {spaced : Bool}
    (h : NoNameBefore (before ++ .awaitOperator spaced :: after)) (hbefore : before.operators = 0) :
    ¬ awaitText <:+ before.text := by
  have htake : (before ++ .awaitOperator spaced :: after).takeWhile
      (fun token => !token.isAwaitOperator) = before := by
    rw [List.takeWhile_append_of_pos, List.takeWhile_cons_of_neg, List.append_nil]
    · simp [DualToken.isAwaitOperator]
    · intro token htoken
      rw [DualLine.operators, List.countP_eq_zero] at hbefore
      simpa using hbefore token htoken
  rcases h with hnone | hsuffix
  · rw [DualLine.operators_append, DualLine.operators_awaitOperator] at hnone
    omega
  · rwa [htake] at hsuffix

/-- The line has no operator, and no text like one; or it has one, with a blank behind it and no
text like it before it. -/
def SingleOperator (line : DualLine) : Prop :=
  (line.operators = 0 ∧ splitAtFirst awaitText line.text = none)
    ∨ ∃ before after, line = before ++ .awaitOperator true :: after
      ∧ DualLine.operators before = 0 ∧ DualLine.operators after = 0
      ∧ splitAtFirst awaitText (DualLine.text before) = none

/-- The line can be rewritten as text. -/
structure RewritableAsText (line : DualLine) : Prop where
  single : SingleOperator line
  clients : occurrences asyncClientText line.withoutOperators.text = line.clients

theorem unbordered_await : Unbordered awaitText := by decide

theorem mem_of_comm {pattern text : Chars} (hne : pattern ≠ [])
    (h : text ++ pattern = pattern ++ text) : ∀ c ∈ text, c ∈ pattern := by
  induction hlength : text.length using Nat.strongRecOn generalizing text with
  | ind length ih =>
    rcases List.append_eq_append_iff.1 h with ⟨gap, hpattern, -⟩ | ⟨gap, htext, hgap⟩
    · intro c hc
      rw [hpattern]
      exact List.mem_append_left _ hc
    · have hpos := List.length_pos_of_ne_nil hne
      have hcomm : gap ++ pattern = pattern ++ gap := by rw [← hgap, htext]
      intro c hc
      rw [htext, List.mem_append] at hc
      rcases hc with hc | hc
      · exact hc
      · exact ih gap.length (by rw [← hlength, htext, List.length_append]; omega) hcomm rfl c hc

theorem countP_syncDualLine (p : Char → Bool) (line : Chars) :
    (syncDualLine line).countP p
        + occurrences asyncClientText (replaceFirst awaitText [] line) * asyncClientText.countP p
      = (replaceFirst awaitText [] line).countP p
        + occurrences asyncClientText (replaceFirst awaitText [] line) * "Client".toList.countP p :=
  headed_asyncClient.countP_replaceAll p _

theorem count_syncDualLine_w (line : Chars) :
    (syncDualLine line).count 'w' = (replaceFirst awaitText [] line).count 'w' := by
  have h := countP_syncDualLine (· == 'w') line
  have hpattern : asyncClientText.countP (· == 'w') = 0 := by decide
  have hreplacement : "Client".toList.countP (· == 'w') = 0 := by decide
  rw [hpattern, hreplacement] at h
  exact h

theorem count_syncDualLine_A (line : Chars) :
    (syncDualLine line).count 'A'
        + occurrences asyncClientText (replaceFirst awaitText [] line)
      = (replaceFirst awaitText [] line).count 'A' := by
  have h := countP_syncDualLine (· == 'A') line
  have hpattern : asyncClientText.countP (· == 'A') = 1 := by decide
  have hreplacement : "Client".toList.countP (· == 'A') = 0 := by decide
  rw [hpattern, hreplacement, Nat.mul_one, Nat.mul_zero, Nat.add_zero] at h
  exact h

theorem length_syncDualLine (line : Chars) :
    (syncDualLine line).length
        + occurrences asyncClientText (replaceFirst awaitText [] line) * 5
      = (replaceFirst awaitText [] line).length := by
  have h := countP_syncDualLine (fun _ => true) line
  have hpattern : asyncClientText.countP (fun _ => true) = 11 := by decide
  have hreplacement : "Client".toList.countP (fun _ => true) = 6 := by decide
  rw [hpattern, hreplacement, List.countP_true] at h
  omega

/-- A line whose operator is found is rewritten around it. -/
theorem syncDualLine_single {before after : DualLine} (hbefore : before.operators = 0)
    (hafter : after.operators = 0) (hfirst : splitAtFirst awaitText before.text = none)
    (hclients : occurrences asyncClientText (DualLine.text (before ++ after))
      = DualLine.clients (before ++ after)) :
    syncDualLine (DualLine.text (before ++ .awaitOperator true :: after))
      = DualLine.sync (before ++ .awaitOperator true :: after) := by
  have htext : DualLine.text (before ++ .awaitOperator true :: after)
      = before.text ++ awaitText ++ after.text := by
    rw [DualLine.text_append, DualLine.text_cons, List.append_assoc]
    rfl
  have hreplace : replaceFirst awaitText [] (before.text ++ awaitText ++ after.text)
      = DualLine.text (before ++ after) := by
    unfold replaceFirst
    rw [splitAtFirst_append unbordered_await (by decide) hfirst, DualLine.text_append]
    simp
  have hnone : DualLine.operators (before ++ after) = 0 := by
    rw [DualLine.operators_append, hbefore, hafter]
  rw [htext, syncDualLine, hreplace, DualLine.replaceAll_text hnone hclients, DualLine.sync_append,
    DualLine.sync_append, DualLine.sync_cons]
  rfl

/-- An earlier text like an operator is taken out in its place, which shows. -/
theorem not_syncDualLine_earlier {before after : DualLine} (hbefore : before.operators = 0)
    (hafter : after.operators = 0) (hname : ¬ awaitText <:+ before.text) {first middle : Chars}
    (htext : before.text = first ++ awaitText ++ middle)
    (hclients : occurrences asyncClientText (first ++ (middle ++ awaitText ++ after.text))
      = DualLine.clients (before ++ after)) :
    replaceAll asyncClientText "Client".toList (first ++ (middle ++ awaitText ++ after.text))
      ≠ DualLine.sync (before ++ after) := by
  obtain ⟨start, inner, hstart, hinner, hfirst, hmiddle, hsync, hcount⟩ :=
    DualLine.exists_around hbefore htext
  intro hsame
  -- the same characters, with the operator's in place of the others
  have hline : DualLine.text (start ++ (inner ++ .verbatim awaitText :: after))
      = first ++ (middle ++ awaitText ++ after.text) := by
    simp only [DualLine.text_append, DualLine.text_cons, DualLine.text_verbatim, hfirst, hmiddle,
      List.append_assoc]
  have hnone : DualLine.operators (start ++ (inner ++ .verbatim awaitText :: after)) = 0 := by
    rw [DualLine.operators_append, DualLine.operators_append, DualLine.operators_verbatim, hstart,
      hinner, hafter]
  have hnames : DualLine.clients (start ++ (inner ++ .verbatim awaitText :: after))
      = DualLine.clients (before ++ after) := by
    rw [DualLine.clients_append, DualLine.clients_append, DualLine.clients_verbatim,
      DualLine.clients_append, hcount]
    omega
  rw [← hline, DualLine.replaceAll_text hnone (by rw [hline, hnames, hclients])] at hsame
  simp only [DualLine.sync_append, DualLine.sync_cons, DualLine.sync_verbatim, hsync,
    List.append_assoc] at hsame
  have hcancel := List.append_cancel_left hsame
  rw [← List.append_assoc, ← List.append_assoc awaitText] at hcancel
  have hcomm : inner.sync ++ awaitText = awaitText ++ inner.sync := List.append_cancel_right hcancel
  have hplain : inner.sync = middle := by
    rw [DualLine.sync_eq_text hinner, hmiddle]
    apply DualLine.clients_eq_zero
    intro hmem
    have hletter := mem_of_comm (by decide) hcomm 'C' hmem
    revert hletter
    decide
  rw [hplain] at hcomm
  apply hname
  rw [htext]
  rcases unbordered_await.suffix_of_comm hcomm with hnil | hsuffix
  · rw [hnil, List.append_nil]
    exact List.suffix_append _ _
  · exact hsuffix.trans (List.suffix_append _ _)

/-- Rewriting a line as text takes out its operators and replaces its names exactly if it can be
told by the text where they are. -/
theorem syncDualLine_iff {line : DualLine} (hname : NoNameBefore line) :
    syncDualLine line.text = line.sync ↔ RewritableAsText line := by
  constructor
  · intro h
    have hw := count_syncDualLine_w line.text
    have hA := count_syncDualLine_A line.text
    have hlength := length_syncDualLine line.text
    rw [h] at hw hA hlength
    have hline_w := line.count_w
    have hline_A := line.count_A
    cases hsplit : splitAtFirst awaitText line.text with
    | none =>
      have hsame : replaceFirst awaitText [] line.text = line.text := by
        unfold replaceFirst
        rw [hsplit]
      rw [hsame] at hw hA
      have hnone : line.operators = 0 := by omega
      refine ⟨.inl ⟨hnone, hsplit⟩, ?_⟩
      rw [DualLine.withoutOperators_eq hnone]
      omega
    | some parts =>
      obtain ⟨first, rest⟩ := parts
      have htext := splitAtFirst_eq_some hsplit
      have hcut : replaceFirst awaitText [] line.text = first ++ rest := by
        unfold replaceFirst
        rw [hsplit]
        simp
      have hreplaced : replaceAll asyncClientText "Client".toList (first ++ rest) = line.sync := by
        rw [← h, syncDualLine, hcut]
      rw [hcut] at hw hA hlength
      have hcount : ∀ c, line.text.count c
          = (first ++ rest).count c + awaitText.count c := by
        intro c
        rw [htext, List.count_append, List.count_append, List.count_append]
        omega
      have hcount_w := hcount 'w'
      have hcount_A := hcount 'A'
      have hlength' := congrArg List.length htext
      rw [show awaitText.count 'w' = 1 by decide] at hcount_w
      rw [show awaitText.count 'A' = 0 by decide] at hcount_A
      rw [List.length_append, List.length_append, show awaitText.length = 6 by decide] at hlength'
      obtain ⟨before, spaced, after, rfl, hbefore, hafter⟩ :=
        @DualLine.exists_operator line (by omega)
      have hsync : DualLine.sync (before ++ .awaitOperator spaced :: after)
          = DualLine.sync (before ++ after) := by
        rw [DualLine.sync_append, DualLine.sync_append, DualLine.sync_cons]
        rfl
      have hclients : DualLine.clients (before ++ .awaitOperator spaced :: after)
          = DualLine.clients (before ++ after) := by
        rw [DualLine.clients_append, DualLine.clients_append, DualLine.clients_awaitOperator]
      have hboth : DualLine.operators (before ++ after) = 0 := by
        rw [DualLine.operators_append, hbefore, hafter]
      have hlost := DualLine.length_of_operators hboth
      have hspaced : spaced = true := by
        cases spaced with
        | true => rfl
        | false =>
          have hword : (DualToken.awaitOperator false).text.length = 5 := by decide
          rw [DualLine.text_append, DualLine.text_cons, List.length_append, List.length_append,
            hword] at hlength'
          rw [DualLine.text_append, List.length_append] at hlost
          rw [hsync, List.length_append] at hlength
          omega
      rw [hspaced] at htext hsplit hsync hclients hreplaced hA hline_A hcount_A ⊢
      have htext' : DualLine.text (before ++ .awaitOperator true :: after)
          = before.text ++ awaitText ++ DualLine.text after := by
        rw [DualLine.text_append, DualLine.text_cons, List.append_assoc]
        rfl
      have hoccurrences : occurrences asyncClientText (first ++ rest)
          = DualLine.clients (before ++ after) := by omega
      cases hearlier : splitAtFirst awaitText before.text with
      | none =>
        refine ⟨.inr ⟨before, after, rfl, hbefore, hafter, hearlier⟩, ?_⟩
        rw [htext', splitAtFirst_append unbordered_await (by decide) hearlier,
          Option.some.injEq, Prod.mk.injEq] at hsplit
        rw [DualLine.withoutOperators_single hbefore hafter, DualLine.text_append, hsplit.1,
          hsplit.2, hoccurrences, hclients]
      | some parts =>
        obtain ⟨first', middle'⟩ := parts
        have hinside := splitAtFirst_eq_some hearlier
        obtain ⟨first'', rest'', hsome, hle⟩ := @splitAtFirst_le awaitText
          (before.text ++ awaitText ++ DualLine.text after) first'
          (middle' ++ awaitText ++ DualLine.text after) (by decide)
          (by rw [hinside]; simp only [List.append_assoc])
        rw [htext'] at hsplit htext
        rw [hsplit, Option.some.injEq, Prod.mk.injEq] at hsome
        have hshort := congrArg List.length hinside
        rw [List.length_append, List.length_append,
          show awaitText.length = 6 by decide] at hshort
        obtain ⟨middle, hmiddle, hrest⟩ := unbordered_await.apart htext
          (by rw [hsome.1]; omega)
        rw [hrest] at hreplaced hoccurrences
        rw [hsync] at hreplaced
        exact absurd hreplaced (not_syncDualLine_earlier hbefore hafter
          (hname.not_suffix hbefore) hmiddle hoccurrences)
  · rintro ⟨hsingle, hclients⟩
    rcases hsingle with ⟨hnone, hsplit⟩ | ⟨before, after, rfl, hbefore, hafter, hearlier⟩
    · rw [DualLine.withoutOperators_eq hnone] at hclients
      have hsame : replaceFirst awaitText [] line.text = line.text := by
        unfold replaceFirst
        rw [hsplit]
      rw [syncDualLine, hsame]
      exact DualLine.replaceAll_text hnone hclients
    · rw [DualLine.withoutOperators_single hbefore hafter, DualLine.clients_append,
        DualLine.clients_awaitOperator, ← DualLine.clients_append] at hclients
      exact syncDualLine_single hbefore hafter hearlier hclients

end TypePython.Emit
