import Mathlib
import ParseKit.Proofs.TokenPattern

/-! The lexical grammar of a line, as a relation between its text and what it scans to. Runs are as
long as they can be, the first quote that is in no escape pair closes a string, and an operator is
whatever begins nothing else. Main statement: `Scan.lexemes_follow_grammar`, matching the token
pattern with backtracking, the scanner and the grammar say the same of every line. -/

namespace ParseKit

namespace LineGrammar

/-- A lexeme in front of a text, and what comes after it. -/
inductive Spells : List Char → Lexeme → List Char → Prop
  /-- Leading zeros are allowed. -/
  | number {digits after : List Char} (hrun : Scan.Run Char.isDigit digits after) (hne : digits ≠ [])
      (hvalue : Text.natOfDigits digits ≤ Scan.maxNumber) :
      Spells (digits ++ after) (.number (Text.natOfDigits digits)) after
  | string {rest content after : List Char} (hcloses : Literal.Closes rest content after) :
      Spells ('"' :: rest) (.string (String.ofList content)) after
  | identifier {c : Char} {name after : List Char} (hc : Scan.isNameStart c = true)
      (hrun : Scan.Run Scan.isNamePart name after) :
      Spells (c :: (name ++ after)) (.identifier (String.ofList (c :: name))) after
  | pair {c d : Char} {after : List Char} (hpair : Scan.isPair c d = true) :
      Spells (c :: d :: after) (.operator (String.ofList [c, d])) after
  /-- One punctuation character that begins nothing else. -/
  | operator {c : Char} {after : List Char} (hc : Scan.isPunctuation c = true)
      (hname : ¬ Scan.isNameStart c = true) (hcomment : c = '/' → after.head? ≠ some '/')
      (hstring : c = '"' → '"' ∉ after) (hpair : ∀ d ∈ after.head?, ¬ Scan.isPair c d = true) :
      Spells (c :: after) (.operator c.toString) after

inductive Scans (line : List Char) : List Char → Except ScanFault (List Lexeme) → Prop
  | finished : Scans line [] (.ok [])
  | blank {c : Char} {rest : List Char} {result : Except ScanFault (List Lexeme)}
      (hc : Text.isBlank c = true) (hrest : Scans line rest result) : Scans line (c :: rest) result
  /-- A comment ends before the next line feed. -/
  | comment {body after : List Char} {result : Except ScanFault (List Lexeme)}
      (hrun : Scan.Run (· != '\n') body after) (hafter : Scans line after result) :
      Scans line ('/' :: '/' :: (body ++ after)) result
  | lexeme {text after : List Char} {lexeme : Lexeme} {result : Except ScanFault (List Lexeme)}
      (hspells : Spells text lexeme after) (hafter : Scans line after result) :
      Scans line text ((lexeme :: ·) <$> result)
  | numberOutOfRange {digits after : List Char} (hrun : Scan.Run Char.isDigit digits after)
      (hvalue : Scan.maxNumber < Text.natOfDigits digits) :
      Scans line (digits ++ after) (.error (.numberOutOfRange (String.ofList digits)))
  /-- The column is that of the character that begins nothing, in bytes from one. -/
  | badToken {before rest : List Char} {c : Char} (hline : line = before ++ c :: rest)
      (hblank : ¬ Text.isBlank c = true) (hdigit : ¬ c.isDigit = true)
      (hname : ¬ Scan.isNameStart c = true) (hpunctuation : ¬ Scan.isPunctuation c = true) :
      Scans line (c :: rest)
        (.error (.badToken (Scan.byteLength before + 1) (Scan.excerpt (c :: rest))))

section Front

variable {c : Char} {rest after : List Char}

theorem front_string {content : List Char} (h : Literal.Closes rest content after) :
    Scan.front '"' rest = (.lexeme (.string (String.ofList content)), after) := by
  obtain ⟨body, hbody, rfl⟩ := h.close?_eq
  simp [Scan.front, hbody]

/-- What a text spells is not blank, and the scanner sees it. -/
theorem Spells.front_eq {text : List Char} {lexeme : Lexeme} (h : Spells text lexeme after) :
    ∃ c rest, text = c :: rest ∧ Scan.isVisible c = true ∧ Scan.front c rest = (.lexeme lexeme, after) := by
  cases h with
  | @number digits _ hrun hne hvalue =>
    obtain ⟨c, others, rfl⟩ := List.exists_cons_of_ne_nil hne
    have hvisible := Scan.isVisible_of_isNamePart (Scan.isNamePart_of_isDigit hrun.of_cons.1)
    refine ⟨c, others ++ after, rfl, hvisible, ?_⟩
    rw [Scan.front_number hrun, Scan.numberFront, if_pos hvalue]
  | string hcloses => exact ⟨_, _, rfl, by decide, front_string hcloses⟩
  | identifier hc hrun =>
    have hvisible := Scan.isVisible_of_isNamePart (Scan.isNamePart_of_isNameStart hc)
    exact ⟨_, _, rfl, hvisible, Scan.front_identifier hc hrun⟩
  | pair hpair =>
    have hvisible := Scan.isVisible_of_isPunctuation (Scan.isPunctuation_of_isPair hpair)
    exact ⟨_, _, rfl, hvisible, Scan.front_pair hpair⟩
  | operator hc hname hcomment hstring hpair =>
    have hvisible := Scan.isVisible_of_isPunctuation hc
    have hnone := fun hquote => Literal.close?_eq_none (hstring hquote)
    exact ⟨_, _, rfl, hvisible, Scan.front_operator hc hname hcomment hnone hpair⟩

end Front

section Scanner

variable {line text : List Char} {result : Except ScanFault (List Lexeme)}

theorem Scans.lexemesFrom_eq (h : Scans line text result) :
    Scan.lexemesFrom (Scan.byteLength line) text = result := by
  induction h with
  | finished => exact Scan.lexemesFrom_blank rfl
  | blank hc _ ih => exact (Scan.lexemesFrom_congr (List.dropWhile_cons_of_pos hc)).trans ih
  | @comment body after result hrun _ ih =>
    have hfront : Scan.front '/' ('/' :: (body ++ after)) = (.comment, after) := by
      simp [Scan.front, hrun.dropWhile_eq]
    rw [Scan.lexemesFrom_front (Scan.dropWhile_visible (by decide) _) hfront, Scan.proceed, ih]
  | lexeme hspells _ ih =>
    obtain ⟨c, rest, rfl, hvisible, hfront⟩ := hspells.front_eq
    rw [Scan.lexemesFrom_front (Scan.dropWhile_visible hvisible _) hfront, Scan.proceed, ih]
  | @numberOutOfRange digits after hrun hvalue =>
    cases digits with
    | nil => exact absurd hvalue (by decide)
    | cons c digits =>
      have hvisible := Scan.isVisible_of_isNamePart (Scan.isNamePart_of_isDigit hrun.of_cons.1)
      have hfront := Scan.front_number hrun
      rw [Scan.numberFront, if_neg (Nat.not_le_of_lt hvalue)] at hfront
      exact Scan.lexemesFrom_front (Scan.dropWhile_visible hvisible _) hfront
  | @badToken before rest c hline hblank hdigit hname hpunctuation =>
    have hdrop : (c :: rest).dropWhile Text.isBlank = c :: rest := List.dropWhile_cons_of_neg hblank
    have hfront : Scan.front c rest = (.nothing, rest) := Scan.front_nothing hdigit hname hpunctuation
    rw [Scan.lexemesFrom_front hdrop hfront, Scan.proceed, hline,
      Scan.byteLength_append, Nat.add_sub_cancel]

/-- What the scanner sees in front of a text is what the grammar has there. -/
theorem scans_front {before rest : List Char} {c : Char} (hline : line = before ++ c :: rest)
    (hblank : ¬ Text.isBlank c = true) (hafter : Scans line (Scan.front c rest).2 result) :
    Scans line (c :: rest) (Scan.proceed (Scan.byteLength before + 1) (c :: rest) result
      (Scan.front c rest).1) := by
  -- The cases are split in the order in which the scanner looks.
  by_cases hcomment : c = '/' ∧ rest.head? = some '/'
  · obtain ⟨rfl, hhead⟩ := hcomment
    obtain ⟨others, rfl⟩ := List.head?_eq_some_iff.1 hhead
    have hrun := Scan.Run.of_text (· != '\n') others
    have hfront : Scan.front '/' ('/' :: others) = (.comment, others.dropWhile (· != '\n')) := rfl
    rw [hfront] at hafter ⊢
    have hscans := Scans.comment hrun hafter
    rwa [List.takeWhile_append_dropWhile] at hscans
  by_cases hdigit : c.isDigit = true
  · have hrun := (Scan.Run.of_text Char.isDigit rest).cons hdigit
    have hfront := Scan.front_number hrun
    rw [List.takeWhile_append_dropWhile] at hfront
    rw [hfront] at hafter ⊢
    by_cases hvalue : Text.natOfDigits (c :: rest.takeWhile Char.isDigit) ≤ Scan.maxNumber
    · have hspells := Spells.number hrun (List.cons_ne_nil _ _) hvalue
      rw [List.cons_append, List.takeWhile_append_dropWhile] at hspells
      rw [Scan.numberFront, if_pos hvalue]
      exact .lexeme hspells hafter
    · have hscans : Scans line _ _ := .numberOutOfRange hrun (Nat.lt_of_not_le hvalue)
      rw [List.cons_append, List.takeWhile_append_dropWhile] at hscans
      rw [Scan.numberFront, if_neg hvalue]
      exact hscans
  by_cases hclosed : c = '"' ∧ '"' ∈ rest
  · obtain ⟨rfl, hquote⟩ := hclosed
    obtain ⟨content, after, hcloses⟩ := Literal.exists_closes hquote
    rw [front_string hcloses] at hafter ⊢
    exact .lexeme (.string hcloses) hafter
  by_cases hname : Scan.isNameStart c = true
  · have hrun := Scan.Run.of_text Scan.isNamePart rest
    have hfront := Scan.front_identifier hname hrun
    rw [List.takeWhile_append_dropWhile] at hfront
    rw [hfront] at hafter ⊢
    have hspells := Spells.identifier hname hrun
    rw [List.takeWhile_append_dropWhile] at hspells
    exact .lexeme hspells hafter
  by_cases hpair : ∃ d ∈ rest.head?, Scan.isPair c d = true
  · obtain ⟨d, hd, hpair⟩ := hpair
    obtain ⟨others, rfl⟩ := List.head?_eq_some_iff.1 hd
    rw [Scan.front_pair hpair] at hafter ⊢
    exact .lexeme (.pair hpair) hafter
  have hnopair : ∀ d ∈ rest.head?, ¬ Scan.isPair c d = true := fun d hd hcd => hpair ⟨d, hd, hcd⟩
  by_cases hpunctuation : Scan.isPunctuation c = true
  · have hslash : c = '/' → rest.head? ≠ some '/' := fun hc hd => hcomment ⟨hc, hd⟩
    have hstring : c = '"' → '"' ∉ rest := fun hc hmem => hclosed ⟨hc, hmem⟩
    have hnone := fun hquote => Literal.close?_eq_none (hstring hquote)
    rw [Scan.front_operator hpunctuation hname hslash hnone hnopair] at hafter ⊢
    exact .lexeme (.operator hpunctuation hname hslash hstring hnopair) hafter
  · rw [Scan.front_nothing hdigit hname hpunctuation]
    exact .badToken hline hblank hdigit hname hpunctuation

theorem front_suffix (c : Char) (rest : List Char) : (Scan.front c rest).2 <:+ c :: rest := by
  have hfront := TokenPattern.front_eq c rest
  cases hfirst : TokenPattern.token.first? (c :: rest) with
  | none =>
    rw [hfirst] at hfront
    rw [hfront]
    exact List.suffix_cons c rest
  | some way =>
    rw [hfirst] at hfront
    rw [hfront.1]
    exact ⟨way.taken, Pattern.taken_append_after_of_first? hfirst⟩

/-- The grammar says something of every end of a line, and the scanner gives it. -/
theorem scans_lexemesFrom (h : text <:+ line) :
    Scans line text (Scan.lexemesFrom (Scan.byteLength line) text) := by
  -- What the scanner leaves is shorter than what it was given, but not its tail.
  induction hlength : text.length using Nat.strongRecOn generalizing text with
  | ind n ih =>
    subst hlength
    cases text with
    | nil =>
      rw [Scan.lexemesFrom_blank rfl]
      exact .finished
    | cons c rest =>
      by_cases hblank : Text.isBlank c = true
      · have hrest := ih rest.length (Nat.lt_succ_self _) ((List.suffix_cons c rest).trans h) rfl
        rw [Scan.lexemesFrom_congr (List.dropWhile_cons_of_pos hblank)]
        exact .blank hblank hrest
      · obtain ⟨before, hline⟩ := h
        have hshort := Nat.lt_succ_of_le (Scan.length_front_le c rest)
        have hafter := ih _ hshort ((front_suffix c rest).trans ⟨before, hline⟩) rfl
        have hcolumn : Scan.byteLength line - Scan.byteLength (c :: rest) = Scan.byteLength before := by
          rw [← hline, Scan.byteLength_append, Nat.add_sub_cancel]
        rw [Scan.lexemesFrom_front (List.dropWhile_cons_of_neg hblank) rfl, hcolumn]
        exact scans_front hline.symm hblank hafter

theorem scans_iff : Scans line line result ↔ Scan.lexemes line = result := by
  constructor
  · exact fun h => h.lexemesFrom_eq
  · rintro rfl
    exact scans_lexemesFrom (List.suffix_refl line)

end Scanner

end LineGrammar

/-- Matching the token pattern with backtracking, the scanner and the grammar of lines agree on every
line, also on where it does not scan. -/
theorem Scan.lexemes_follow_grammar (line : List Char) : TokenPattern.scan line = Scan.lexemes line ∧
    ∀ result, LineGrammar.Scans line line result ↔ TokenPattern.scan line = result := by
  rw [TokenPattern.scan_eq]
  exact ⟨rfl, fun result => LineGrammar.scans_iff⟩

/-- The only quotes are in pairs, so the last one closes the string and its backslash stays. -/
example : Scan.lexemes "\"a\\\"b\\\" c".toList = .ok [.string "a\"b\\", .identifier "c"] := by
  cbv

end ParseKit
