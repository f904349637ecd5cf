import Mathlib
import ParseKit.Lexer
import ParseKit.Proofs.LineGrammar

/-! Which tokens a line can give. Nothing that is written with a quote comes after a quote that stands
alone, since that quote would have begun a string, and an underscore is always a name. Main statement:
`scanLine_undoes_printLine`, these are exactly the tokens that a line can give, and scanning gives them
back when they are printed. -/

namespace ParseKit

def Lexeme.isQuoted : Lexeme → Bool
  | string _ => true
  | operator symbol => symbol == "\""
  | _ => false

namespace Scan

/-- Numbers that fit, names that are names, known operators and any strings, with nothing that is
quoted after a quote that stands alone. -/
structure WellSpelled (lexemes : List Lexeme) : Prop where
  scannable : ∀ lexeme ∈ lexemes, lexeme.Scannable
  lone : lexemes.Pairwise fun lexeme later => lexeme = .operator "\"" → later.isQuoted = false

section Written

/-- The characters of names, numbers and operators that are no quotes. -/
theorem quote_notMem_written {lexeme : Lexeme} (h : lexeme.Scannable) (hquoted : lexeme.isQuoted = false) :
    '"' ∉ lexeme.written := by
  have hpart : ∀ c, isNamePart c = true → '"' ≠ c := by
    rintro _ hc rfl
    exact absurd hc (by decide)
  cases lexeme with
  | number value =>
    obtain ⟨n, rfl⟩ := Int.eq_ofNat_of_zero_le h.1
    rw [Lexeme.written_number]
    exact fun hmem => hpart _ (isNamePart_of_isDigit (Nat.isDigit_of_mem_toDigits (by decide) (by decide) hmem)) rfl
  | string text => cases hquoted
  | identifier name =>
    obtain ⟨c, rest, rfl, hc, hrest⟩ := h
    have htext : (Lexeme.identifier (String.ofList (c :: rest))).written = c :: rest := String.toList_ofList
    rw [htext, List.mem_cons, not_or]
    exact ⟨hpart c (isNamePart_of_isNameStart hc),
      fun hmem => hpart _ (List.all_eq_true.1 hrest _ hmem) rfl⟩
  | operator symbol =>
    rcases h with hpair | ⟨c, rfl, -⟩
    · simp only [pairs, List.mem_cons, List.not_mem_nil, or_false] at hpair
      rcases hpair with rfl | rfl | rfl | rfl | rfl <;> decide
    · have hne : c ≠ '"' := by
        rintro rfl
        cases hquoted
      simpa [Lexeme.written, Lexeme.text] using Ne.symm hne
  | endOfLine => exact h.elim

/-- What is well spelled can be written, unless it has an underscore for an operator. -/
theorem WellSpelled.writable {lexemes : List Lexeme} (h : WellSpelled lexemes)
    (hname : .operator "_" ∉ lexemes) : Writable lexemes := by
  obtain ⟨hscannable, hlone⟩ := h
  induction lexemes with
  | nil => trivial
  | cons first rest ih =>
    obtain ⟨hfirst, hrest⟩ := List.forall_mem_cons.1 hscannable
    obtain ⟨hquote, hlone⟩ := List.pairwise_cons.1 hlone
    obtain ⟨hne, hname⟩ := not_or.1 (mt List.mem_cons.2 hname)
    refine ⟨hfirst, Ne.symm hne, fun heq other hother => ?_, ih hname hrest hlone⟩
    exact quote_notMem_written (hrest other hother) (hquote other hother heq)

end Written

end Scan

namespace LineGrammar

section Spells

variable {text after : List Char} {lexeme : Lexeme}

theorem Spells.suffix (h : Spells text lexeme after) : after <:+ text := by
  obtain ⟨c, rest, rfl, -, hfront⟩ := h.front_eq
  have hsuffix := front_suffix c rest
  rwa [hfront] at hsuffix

/-- An operator of one character stands for itself. No name begins with it, and no quote comes after
a quote. -/
theorem Spells.of_operator {c : Char} (h : Spells text (.operator c.toString) after) :
    text = c :: after ∧ ¬ Scan.isNameStart c = true ∧ (c = '"' → '"' ∉ after) := by
  generalize hlexeme : Lexeme.operator c.toString = lexeme at h
  cases h with
  | number | identifier | string => cases hlexeme
  | pair =>
    have htext := congrArg String.toList (Lexeme.operator.inj hlexeme)
    simp at htext
  | operator _ hname _ hstring _ =>
    have htext := congrArg String.toList (Lexeme.operator.inj hlexeme)
    obtain rfl : c = _ := by simpa using htext
    exact ⟨rfl, hname, hstring⟩

theorem Spells.quote_mem (h : Spells text lexeme after) (hquoted : lexeme.isQuoted = true) : '"' ∈ text := by
  cases lexeme with
  | number | identifier | endOfLine => cases hquoted
  | string content =>
    generalize hlexeme : Lexeme.string content = lexeme at h
    cases h with
    | string => exact List.mem_cons_self
    | number | identifier | pair | operator => cases hlexeme
  | operator symbol =>
    obtain rfl : symbol = "\"" := beq_iff_eq.1 hquoted
    rw [(Spells.of_operator (c := '"') h).1]
    exact List.mem_cons_self

end Spells

/-- Nothing in the lexemes is quoted unless the text has a quote, nothing quoted comes after a quote
that stands alone, and no underscore is an operator. -/
structure Quotes (text : List Char) (lexemes : List Lexeme) : Prop where
  quoted : '"' ∉ text → ∀ lexeme ∈ lexemes, lexeme.isQuoted = false
  lone : lexemes.Pairwise fun lexeme later => lexeme = .operator "\"" → later.isQuoted = false
  named : .operator "_" ∉ lexemes

theorem Quotes.of_suffix {text after : List Char} {lexemes : List Lexeme} (h : Quotes after lexemes)
    (hsuffix : after <:+ text) : Quotes text lexemes :=
  ⟨fun hnone => h.quoted fun hmem => hnone (hsuffix.mem hmem), h.lone, h.named⟩

theorem Quotes.cons {text after : List Char} {lexeme : Lexeme} {lexemes : List Lexeme}
    (h : Quotes after lexemes) (hspells : Spells text lexeme after) : Quotes text (lexeme :: lexemes) where
  quoted hnone := by
    refine List.forall_mem_cons.2 ⟨?_, (h.of_suffix hspells.suffix).quoted hnone⟩
    exact Bool.eq_false_iff.2 fun hquoted => hnone (hspells.quote_mem hquoted)
  lone := by
    refine List.pairwise_cons.2 ⟨fun later hlater hlone => ?_, h.lone⟩
    exact h.quoted ((Spells.of_operator (c := '"') (hlone ▸ hspells)).2.2 rfl) later hlater
  named hmem := by
    rcases List.mem_cons.1 hmem with heq | hmem
    · exact (Spells.of_operator (c := '_') (heq ▸ hspells)).2.1 rfl
    · exact h.named hmem

theorem Scans.quotes {line text : List Char} {result : Except ScanFault (List Lexeme)}
    (h : Scans line text result) : ∀ lexemes, result = .ok lexemes → Quotes text lexemes := by
  induction h with
  | finished =>
    rintro _ ⟨⟩
    exact ⟨by simp, .nil, by simp⟩
  | blank _ _ ih =>
    exact fun lexemes heq => (ih lexemes heq).of_suffix (List.suffix_cons ..)
  | @comment body after _ _ _ ih =>
    exact fun lexemes heq => (ih lexemes heq).of_suffix ⟨'/' :: '/' :: body, rfl⟩
  | @lexeme text after lexeme result hspells _ ih =>
    intro lexemes heq
    cases result with
    | error fault => cases heq
    | ok others =>
      cases heq
      exact (ih others rfl).cons hspells
  | numberOutOfRange => rintro _ ⟨⟩
  | badToken => rintro _ ⟨⟩

end LineGrammar

theorem Scan.wellSpelled_of_lexemes {line : List Char} {lexemes : List Lexeme}
    (h : Scan.lexemes line = .ok lexemes) : WellSpelled lexemes ∧ .operator "_" ∉ lexemes := by
  have hquotes := (LineGrammar.scans_iff.2 h).quotes lexemes rfl
  exact ⟨⟨(scannable_of_lexemes h).1, hquotes.lone⟩, hquotes.named⟩

def scanLine (number : Nat) (line : List Char) : Except LexError (List Token) :=
  match Scan.lexemes line with
  | .ok lexemes => .ok (lexemes.map (.scanned number))
  | .error fault => .error ⟨number, .scan fault⟩

def printLine (tokens : List Token) : List Char :=
  Scan.writeLine (tokens.filterMap Token.lexeme?)

theorem scanLine_eq_ok_iff {number : Nat} {line : List Char} {tokens : List Token} :
    scanLine number line = .ok tokens ↔
      ∃ lexemes, Scan.lexemes line = .ok lexemes ∧ tokens = lexemes.map (.scanned number) := by
  unfold scanLine
  cases Scan.lexemes line <;> simp [eq_comm]

@[simp] theorem printLine_map_scanned (number : Nat) (lexemes : List Lexeme) :
    printLine (lexemes.map (.scanned number)) = Scan.writeLine lexemes := by
  have hlexemes : (lexemes.map (Token.scanned number)).filterMap Token.lexeme? = lexemes := by
    rw [List.filterMap_map]
    exact List.filterMap_some
  rw [printLine, hlexemes]

/-- A lexer buffers what its next line scans to, or tells why the line does not scan. -/
theorem Lexer.readLine_text (chars : List Char) (lexer : Lexer) :
    match scanLine (lexer.lineNumber + 1) chars with
    | .ok tokens => (readLine (.text chars) lexer).1 = .ok () ∧
      (readLine (.text chars) lexer).2.buffer.toList = lexer.buffer.toList ++ tokens ++
        if lexer.options.emitEol then [.scanned (lexer.lineNumber + 1) .endOfLine] else []
    | .error fault => (readLine (.text chars) lexer).1 = .error fault := by
  cases hlexemes : Scan.lexemes chars with
  | error fault => simp [scanLine, readLine, hlexemes]
  | ok lexemes =>
    simp only [scanLine, readLine, hlexemes, trace, report, lineTokens, Array.toList_appendList,
      List.map_append, List.append_assoc, true_and]
    by_cases heol : lexer.options.emitEol = true <;> simp [heol]

/-- The tokens stand on the given line, which can hold them. -/
def IsLine (number : Nat) (tokens : List Token) : Prop :=
  ∃ lexemes, tokens = lexemes.map (.scanned number) ∧ Scan.WellSpelled lexemes ∧ .operator "_" ∉ lexemes

/-- A line gives tokens that are well spelled and have no underscore for an operator. Each such list
of tokens is what its printed line scans to, so that scanning, printing and scanning again changes
nothing. -/
theorem scanLine_undoes_printLine :
    (∀ number line tokens, scanLine number line = .ok tokens → IsLine number tokens) ∧
    (∀ number tokens, IsLine number tokens → scanLine number (printLine tokens) = .ok tokens) ∧
    ∀ number line tokens, scanLine number line = .ok tokens →
      scanLine number (printLine tokens) = .ok tokens := by
  have hscanned : ∀ number line tokens, scanLine number line = .ok tokens → IsLine number tokens := by
    intro number line tokens h
    obtain ⟨lexemes, hlexemes, rfl⟩ := scanLine_eq_ok_iff.1 h
    exact ⟨lexemes, rfl, Scan.wellSpelled_of_lexemes hlexemes⟩
  have hprinted : ∀ number tokens, IsLine number tokens →
      scanLine number (printLine tokens) = .ok tokens := by
    rintro number tokens ⟨lexemes, rfl, hspelled, hname⟩
    rw [printLine_map_scanned]
    exact scanLine_eq_ok_iff.2 ⟨lexemes, Scan.lexemes_writeLine (hspelled.writable hname), rfl⟩
  exact ⟨hscanned, hprinted, fun number line tokens h => hprinted number tokens (hscanned number line tokens h)⟩

/-- Slashes that would make a comment, a string that holds a quote, and a quote that stands alone. -/
theorem scanLine_undoes_printLine_quotes :
    let tokens : List Token := [.scanned 3 (.operator "/"), .scanned 3 (.operator "/"),
      .scanned 3 (.string "a\"\\\n"), .scanned 3 (.number 7), .scanned 3 (.identifier "_x"),
      .scanned 3 (.operator "\"")]
    scanLine 3 "/ /\"a\\\"\\\\\\n\" 007 _x\"".toList = .ok tokens ∧ IsLine 3 tokens ∧
      printLine tokens = "/ / \"a\\\"\\\\\\n\" 7 _x \"".toList ∧
      scanLine 3 (printLine tokens) = .ok tokens := by
  intro tokens
  have hscan : scanLine 3 "/ /\"a\\\"\\\\\\n\" 007 _x\"".toList = .ok tokens := by cbv
  have hprint : printLine tokens = "/ / \"a\\\"\\\\\\n\" 7 _x \"".toList := by cbv
  exact ⟨hscan, scanLine_undoes_printLine.1 3 _ tokens hscan, hprint,
    scanLine_undoes_printLine.2.2 3 _ tokens hscan⟩

/-- An underscore is punctuation, and is read as a name. -/
theorem scanLine_underscore : Scan.WellSpelled [.operator "_"] ∧
    scanLine 1 (printLine [.scanned 1 (.operator "_")]) = .ok [.scanned 1 (.identifier "_")] := by
  have hscannable : (Lexeme.operator "_").Scannable := .inr ⟨'_', rfl, rfl⟩
  refine ⟨⟨by simpa using hscannable, List.pairwise_singleton ..⟩, ?_⟩
  cbv

end ParseKit
