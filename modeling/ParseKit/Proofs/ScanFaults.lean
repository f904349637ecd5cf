import Mathlib
import ParseKit.Proofs.LineRoundTrip

/-! Where a line does not scan. What was read in front of the fault is read in the same way when the
line ends there, although a quote further on could have made a string of it. Main statement:
`scanLine_errors_exact`. -/

namespace ParseKit

namespace LineGrammar

def Begins (c : Char) : Prop :=
  ∃ rest lexeme after, Spells (c :: rest) lexeme after

theorem isVisible_iff {c : Char} : Scan.isVisible c = true ∧ c ≠ '\x60' ↔
    c.isDigit = true ∨ Scan.isNameStart c = true ∨ Scan.isPunctuation c = true := by
  have hgrave : c.toNat = 0x60 ↔ c = '\x60' := Char.toNat_inj (d := '\x60')
  have hunderscore : c.toNat = 0x5F ↔ c = '_' := Char.toNat_inj (d := '_')
  have hzero : '0'.toNat = 0x30 := rfl
  have hnine : '9'.toNat = 0x39 := rfl
  simp only [Scan.isVisible, Scan.isNameStart, Scan.isPunctuation, Text.inRanges, Scan.isAlpha_iff,
    Char.isDigit_iff_toNat, Bool.or_eq_true, Bool.and_eq_true, decide_eq_true_eq, beq_iff_eq, List.any_cons,
    List.any_nil, Bool.false_eq_true, or_false, ne_eq, ← hgrave, ← hunderscore]
  omega

/-- Lexemes begin with each character that shows, except the grave accent. -/
theorem begins_iff {c : Char} : Begins c ↔ Scan.isVisible c = true ∧ c ≠ '\x60' := by
  constructor
  · rintro ⟨rest, lexeme, after, h⟩
    obtain ⟨d, others, heq, hvisible, hfront⟩ := h.front_eq
    obtain ⟨rfl, rfl⟩ := List.cons.inj heq
    refine ⟨hvisible, ?_⟩
    rintro rfl
    rw [Scan.front_nothing (by decide) (by decide) (by decide)] at hfront
    cases hfront
  · intro h
    rcases isVisible_iff.1 h with hdigit | hname | hpunctuation
    · have hvalue : Text.natOfDigits [c] ≤ Scan.maxNumber := by
        have hnine : c.toNat ≤ '9'.toNat := (Char.isDigit_iff_toNat.1 hdigit).2
        have hle : Text.natOfDigits [c] ≤ c.toNat := by simp [Text.natOfDigits]
        exact hle.trans (hnine.trans (by decide))
      exact ⟨[], _, [], .number ⟨by simpa using hdigit, by simp⟩ (List.cons_ne_nil c []) hvalue⟩
    · exact ⟨[] ++ [], _, [], .identifier hname ⟨by simp, by simp⟩⟩
    · by_cases hname : Scan.isNameStart c = true
      · exact ⟨[] ++ [], _, [], .identifier hname ⟨by simp, by simp⟩⟩
      · exact ⟨[], _, [], .operator hpunctuation hname (by simp) (by simp) (by simp)⟩

end LineGrammar

/-- What a fault tells of the place between two texts: nothing begins there, or the digits there, with
none before and none after them, write a number that is too large. -/
def ScanFault.StopsAt (before text : List Char) : ScanFault → Prop
  | badToken column near => column = Scan.byteLength before + 1 ∧ near = String.ofList (text.take 10) ∧
      ∃ c rest, text = c :: rest ∧ Text.isBlank c = false ∧ ¬ LineGrammar.Begins c
  | numberOutOfRange digits => ∃ run after, text = run ++ after ∧ digits = String.ofList run ∧
      Scan.Run Char.isDigit run after ∧ (∀ c ∈ before.getLast?, c.isDigit = false) ∧
      Scan.maxNumber < Text.natOfDigits run

section Prefixes

variable {mid after : List Char}

theorem mem_head?_of_isPrefix (h : mid <+: after) {c : Char} (hc : c ∈ mid.head?) : c ∈ after.head? := by
  obtain ⟨rest, rfl⟩ := h
  rw [List.head?_append, hc]
  rfl

theorem Scan.Run.of_isPrefix {accepts : Char → Bool} {run : List Char} (h : Run accepts run after)
    (hmid : mid <+: after) : Run accepts run mid where
  accepted := h.accepted
  maximal c hc := h.maximal c (mem_head?_of_isPrefix hmid hc)

namespace Literal

theorem pieces_cut {text : List Char} {before after : List Piece} {piece : Piece}
    (h : pieces text = before ++ piece :: after) : text = written (before ++ [piece]) ++ written after ∧
      ∀ mid, mid <+: written after →
        pieces (written (before ++ [piece]) ++ mid) = before ++ piece :: pieces mid := by
  have hread : pieces text = (before ++ [piece]) ++ after := by simp [h]
  refine ⟨by rw [← written_append, ← hread, written_pieces], fun mid hmid => ?_⟩
  rw [pieces_append hread mid fun d hd => mem_head?_of_isPrefix hmid hd, List.append_assoc, List.singleton_append]

/-- A string is closed by the same quote when the line ends somewhere behind it. -/
theorem Closes.cut {text content : List Char} (h : Closes text content after) :
    ∃ used, text = used ++ after ∧ used.getLast? = some '"' ∧
      ∀ mid, mid <+: after → Closes (used ++ mid) content mid := by
  cases h with
  | @plain before after hcut hfirst =>
    obtain ⟨htext, hpieces⟩ := pieces_cut hcut
    refine ⟨_, htext, by simp, fun mid hmid => ?_⟩
    simpa using Closes.plain (hpieces mid hmid) hfirst
  | @pair before after hcut hplain hlast =>
    obtain ⟨htext, hpieces⟩ := pieces_cut hcut
    refine ⟨_, htext, by simp, fun mid hmid => ?_⟩
    have hnone : .plain '"' ∉ before ++ .pair '"' :: after := hcut ▸ hplain
    simp only [List.mem_append, List.mem_cons, not_or] at hnone
    -- A later quote would be one of those behind the closing one.
    have hquote : '"' ∉ mid := fun hmem =>
      (quote_mem_written_iff.1 (hmid.mem hmem)).elim hnone.2.2 hlast
    rw [quote_mem_iff, not_or] at hquote
    have hplain' : .plain '"' ∉ pieces (written (before ++ [.pair '"']) ++ mid) := by
      rw [hpieces mid hmid]
      simp [hnone.1, hquote.1]
    simpa using Closes.pair (hpieces mid hmid) hplain' hquote.2

end Literal

namespace LineGrammar

def DigitsApart (first second : List Char) : Prop :=
  ∀ c ∈ first.getLast?, c.isDigit = true → ∀ d ∈ second.head?, d.isDigit = false

theorem DigitsApart.append_left {used : List Char} (h : DigitsApart used after) (hne : used ≠ [])
    (front : List Char) : DigitsApart (front ++ used) after := by
  rwa [DigitsApart, List.getLast?_append_of_ne_nil front hne]

theorem Spells.cut {text : List Char} {lexeme : Lexeme} (h : Spells text lexeme after) :
    ∃ used, text = used ++ after ∧ used ≠ [] ∧ DigitsApart used after ∧
      ∀ mid, mid <+: after → Spells (used ++ mid) lexeme mid := by
  cases h with
  | @number digits _ hrun hne hvalue =>
    refine ⟨digits, rfl, hne, fun _ _ _ => hrun.maximal, fun mid hmid => ?_⟩
    exact .number (hrun.of_isPrefix hmid) hne hvalue
  | @string rest content _ hcloses =>
    obtain ⟨used, rfl, hlast, hcut⟩ := hcloses.cut
    refine ⟨'"' :: used, rfl, List.cons_ne_nil _ _, fun c hc hdigit => ?_,
      fun mid hmid => .string (hcut mid hmid)⟩
    obtain rfl : '"' = c := by simpa [List.getLast?_cons, hlast] using hc
    exact absurd hdigit (by decide)
  | @identifier c name _ hc hrun =>
    refine ⟨c :: name, rfl, List.cons_ne_nil _ _, fun _ _ _ d hd => ?_,
      fun mid hmid => .identifier hc (hrun.of_isPrefix hmid)⟩
    have hname : ¬ Scan.isNamePart d = true := Bool.not_eq_true _ ▸ hrun.maximal d hd
    exact Bool.eq_false_iff.2 fun hdigit => hname (Scan.isNamePart_of_isDigit hdigit)
  | @pair c d _ hpair =>
    refine ⟨[c, d], rfl, List.cons_ne_nil _ _, fun e he hdigit => ?_, fun mid _ => .pair hpair⟩
    obtain rfl : d = e := by simpa using he
    unfold Scan.isPair at hpair
    split at hpair <;> first | exact absurd hdigit (by decide) | cases hpair
  | @operator c _ hc hname hcomment hstring hpair =>
    refine ⟨[c], rfl, List.cons_ne_nil _ _, fun d hd hdigit => ?_, fun mid hmid => ?_⟩
    · obtain rfl : c = d := by simpa using hd
      exact absurd hdigit (by simp [Scan.isDigit_eq_false_of_isPunctuation hc])
    · exact .operator hc hname (fun hslash hhead => hcomment hslash (mem_head?_of_isPrefix hmid hhead))
        (fun hquote hmem => hstring hquote (hmid.mem hmem)) fun d hd => hpair d (mem_head?_of_isPrefix hmid hd)

/-- The text scans to lexemes, whatever the line is that it ends. -/
def Reads (text : List Char) : Prop :=
  ∃ lexemes, ∀ line, Scans line text (.ok lexemes)

theorem Reads.nil : Reads [] :=
  ⟨[], fun _ => .finished⟩

theorem Reads.blank {c : Char} {rest : List Char} (hc : Text.isBlank c = true) (h : Reads rest) :
    Reads (c :: rest) := by
  obtain ⟨lexemes, hrest⟩ := h
  exact ⟨lexemes, fun line => .blank hc (hrest line)⟩

theorem Reads.comment {body : List Char} (hrun : Scan.Run (· != '\n') body after) (h : Reads after) :
    Reads ('/' :: '/' :: (body ++ after)) := by
  obtain ⟨lexemes, hafter⟩ := h
  exact ⟨lexemes, fun line => .comment hrun (hafter line)⟩

theorem Reads.lexeme {text : List Char} {lexeme : Lexeme} (hspells : Spells text lexeme after)
    (h : Reads after) : Reads text := by
  obtain ⟨lexemes, hafter⟩ := h
  exact ⟨lexeme :: lexemes, fun line => .lexeme hspells (hafter line)⟩

/-- The fault lies in the text, and what stands before it there scans. -/
def Stops (front text : List Char) (fault : ScanFault) : Prop :=
  ∃ before rest, text = before ++ rest ∧ Reads before ∧ fault.StopsAt (front ++ before) rest

/-- A fault behind something that is read in the same way when the line ends earlier. -/
theorem Stops.behind {front used : List Char} {fault : ScanFault} (h : Stops (front ++ used) after fault)
    (hreads : ∀ mid, mid <+: after → Reads mid → Reads (used ++ mid)) :
    Stops front (used ++ after) fault := by
  obtain ⟨before, rest, rfl, hbefore, hstops⟩ := h
  refine ⟨used ++ before, rest, (List.append_assoc ..).symm, ?_, ?_⟩
  · exact hreads before (List.prefix_append ..) hbefore
  · rwa [List.append_assoc] at hstops

theorem Scans.stops {line text : List Char} {result : Except ScanFault (List Lexeme)}
    (h : Scans line text result) : ∀ {front fault}, line = front ++ text → DigitsApart front text →
      result = .error fault → Stops front text fault := by
  induction h with
  | finished =>
    intro _ _ _ _ heq
    cases heq
  | @blank c rest result hc _ ih =>
    intro front fault hline _ heq
    have hdigit : DigitsApart [c] rest := by
      intro d hd hdigit
      obtain rfl : c = d := by simpa using hd
      have hvisible := Scan.isVisible_of_isNamePart (Scan.isNamePart_of_isDigit hdigit)
      rw [Scan.isBlank_eq_false hvisible] at hc
      cases hc
    have hrest := ih (by simpa using hline) (hdigit.append_left (List.cons_ne_nil _ _) front) heq
    exact Stops.behind hrest fun mid _ hmid => .blank hc hmid
  | @comment body after result hrun _ ih =>
    intro front fault hline _ heq
    have hapart : DigitsApart ('/' :: '/' :: body) after := by
      intro _ _ _ d hd
      obtain rfl : d = '\n' := by simpa using hrun.maximal d hd
      rfl
    have hafter := ih (by simpa using hline) (hapart.append_left (List.cons_ne_nil _ _) front) heq
    exact Stops.behind hafter fun mid hmid hreads => .comment (hrun.of_isPrefix hmid) hreads
  | @lexeme text after lexeme result hspells _ ih =>
    intro front fault hline _ heq
    obtain ⟨used, rfl, hne, hapart, hcut⟩ := hspells.cut
    cases result with
    | ok lexemes => cases heq
    | error other =>
      cases heq
      have hafter := ih (by simpa using hline) (hapart.append_left hne front) rfl
      exact Stops.behind hafter fun mid hmid hreads => .lexeme (hcut mid hmid) hreads
  | @numberOutOfRange digits after hrun hvalue =>
    intro front fault hline hapart heq
    cases heq
    have hlast : ∀ c ∈ front.getLast?, c.isDigit = false := by
      intro c hc
      cases digits with
      | nil => exact absurd hvalue (by decide)
      | cons d digits =>
        have hfirst : d.isDigit = true := hrun.accepted d List.mem_cons_self
        refine Bool.eq_false_iff.2 fun hdigit => ?_
        rw [hapart c hc hdigit d rfl] at hfirst
        cases hfirst
    refine ⟨[], digits ++ after, rfl, .nil, ?_⟩
    rw [List.append_nil]
    exact ⟨digits, after, rfl, rfl, hrun, hlast, hvalue⟩
  | @badToken before rest c hline hblank hdigit hname hpunctuation =>
    intro front fault hfront _ heq
    cases heq
    obtain rfl : before = front := List.append_cancel_right (hline.symm.trans hfront)
    have hbegins : ¬ Begins c := by
      rw [begins_iff, isVisible_iff]
      simp [hdigit, hname, hpunctuation]
    refine ⟨[], c :: rest, rfl, .nil, ?_⟩
    rw [List.append_nil]
    exact ⟨rfl, rfl, c, rest, rfl, Bool.eq_false_iff.2 hblank, hbegins⟩

end LineGrammar

end Prefixes

/-- The scanner stops where the fault says, and the text in front of it scans. -/
theorem scanLine_stops {number : Nat} {line : List Char} {error : LexError}
    (h : scanLine number line = .error error) : ∃ before text fault, line = before ++ text ∧
      error = ⟨number, .scan fault⟩ ∧ (∃ tokens, scanLine number before = .ok tokens) ∧
      fault.StopsAt before text := by
  rw [scanLine] at h
  cases hlexemes : Scan.lexemes line with
  | ok lexemes =>
    rw [hlexemes] at h
    cases h
  | error fault =>
    rw [hlexemes] at h
    cases h
    have hapart : LineGrammar.DigitsApart [] line := by
      rintro c ⟨⟩
    obtain ⟨before, text, hline, ⟨lexemes, hbefore⟩, hstops⟩ :=
      (LineGrammar.scans_iff.2 hlexemes).stops (List.nil_append line).symm hapart rfl
    have hscan : Scan.lexemes before = .ok lexemes := LineGrammar.scans_iff.1 (hbefore before)
    exact ⟨before, text, fault, hline, rfl, ⟨_, scanLine_eq_ok_iff.2 ⟨lexemes, hscan, rfl⟩⟩, hstops⟩

/-- Where a line does not scan, the text in front of the fault scans on its own, and the fault tells
exactly what stands behind it. A line of printable ASCII and white space without a grave accent has no
other fault than a number that is too large. -/
theorem scanLine_errors_exact (number : Nat) (line : List Char) :
    (∀ error, scanLine number line = .error error → ∃ before text fault, line = before ++ text ∧
      error = ⟨number, .scan fault⟩ ∧ (∃ tokens, scanLine number before = .ok tokens) ∧
      fault.StopsAt before text) ∧
    ((∀ c ∈ line, c ≠ '\x60' ∧ (Text.isBlank c = true ∨ 0x20 ≤ c.toNat ∧ c.toNat ≤ 0x7E)) →
      ∀ errorLine column near, scanLine number line ≠ .error ⟨errorLine, .scan (.badToken column near)⟩) := by
  refine ⟨fun error h => scanLine_stops h, fun hprintable errorLine column near h => ?_⟩
  obtain ⟨before, text, fault, hline, herror, -, hfault⟩ := scanLine_stops h
  obtain ⟨rfl, ⟨⟩⟩ := LexError.mk.inj herror
  obtain ⟨-, -, c, rest, rfl, hblank, hbegins⟩ := hfault
  obtain ⟨hgrave, hc⟩ := hprintable c (by simp [hline])
  -- A space is blank, and all other printable characters begin something.
  refine hbegins (LineGrammar.begins_iff.2 ⟨?_, hgrave⟩)
  rcases hc with hc | ⟨hlow, hhigh⟩
  · rw [hblank] at hc
    cases hc
  · have hspace : c.toNat ≠ 0x20 := by
      rw [show 0x20 = ' '.toNat from rfl, ne_eq, Char.toNat_inj]
      rintro rfl
      cases hblank
    simp only [Scan.isVisible, Bool.and_eq_true, decide_eq_true_eq]
    omega

/-- A quote that no other one follows, and behind it a character that begins nothing; digits that
write 2 ^ 63 behind a string; and a quote in front of a name. -/
theorem scanLine_errors_exact_samples :
    (∃ before text fault, "\u3000a \"b é".toList = before ++ text ∧
      (⟨4, .scan (.badToken 9 "é")⟩ : LexError) = ⟨4, .scan fault⟩ ∧
      (∃ tokens, scanLine 4 before = .ok tokens) ∧ fault.StopsAt before text) ∧
    (∃ before text fault, "\"\\\"9223372036854775808".toList = before ++ text ∧
      (⟨4, .scan (.numberOutOfRange "9223372036854775808")⟩ : LexError) = ⟨4, .scan fault⟩ ∧
      (∃ tokens, scanLine 4 before = .ok tokens) ∧ fault.StopsAt before text) ∧
    ∀ errorLine column near, scanLine 4 "\"a".toList ≠ .error ⟨errorLine, .scan (.badToken column near)⟩ := by
  have hunknown : scanLine 4 "\u3000a \"b é".toList = .error ⟨4, .scan (.badToken 9 "é")⟩ := by cbv
  have htooLarge : scanLine 4 "\"\\\"9223372036854775808".toList =
      .error ⟨4, .scan (.numberOutOfRange "9223372036854775808")⟩ := by cbv
  exact ⟨(scanLine_errors_exact 4 _).1 _ hunknown, (scanLine_errors_exact 4 _).1 _ htooLarge,
    (scanLine_errors_exact 4 _).2 (by simp)⟩

end ParseKit
