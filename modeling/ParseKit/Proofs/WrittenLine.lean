import ParseKit.Proofs.LineFront

/-! Lines that are written for the scanner. Lexemes are written one after the other with single
spaces between them: numbers in decimal, strings between quotes with their quotes, backslashes and
line feeds escaped, and all others as they are. Main statement: `Scan.lexemes_writeLine`, scanning
gives back what was written. -/

namespace ParseKit

namespace Literal

def escape (c : Char) : List Char :=
  if c = '"' then ['\\', '"'] else if c = '\\' then ['\\', '\\'] else if c = '\n' then ['\\', 'n'] else [c]

def escaped (text : List Char) : List Char :=
  text.flatMap escape

@[simp] theorem escaped_nil : escaped [] = [] := rfl

@[simp] theorem escaped_cons (c : Char) (text : List Char) : escaped (c :: text) = escape c ++ escaped text :=
  List.flatMap_cons ..

theorem newline_notMem_escaped (text : List Char) : '\n' ∉ escaped text := by
  have hescape : ∀ c, '\n' ∉ escape c := by
    intro c
    unfold escape
    split
    · decide
    split
    · decide
    split
    · decide
    · next h => simpa using Ne.symm h
  simp [escaped, hescape]

theorem resolve_cons_of_ne {c : Char} (h : c ≠ '\\') (rest : List Char) :
    resolve (c :: rest) = c :: resolve rest := by
  rw [resolve] <;> simp [h]

theorem resolve_escaped (text : List Char) : resolve (escaped text) = text := by
  induction text with
  | nil => rfl
  | cons c text ih =>
    rw [escaped_cons]
    by_cases hquote : c = '"'
    · subst hquote
      simp [escape, resolve, ih]
    by_cases hbackslash : c = '\\'
    · subst hbackslash
      simp [escape, resolve, ih]
    by_cases hnewline : c = '\n'
    · subst hnewline
      simp [escape, resolve, ih]
    · have hplain : escape c = [c] := by simp [escape, hquote, hbackslash, hnewline]
      rw [hplain, List.singleton_append, resolve_cons_of_ne hbackslash, ih]

theorem close?_cons_of_ne {c : Char} (hquote : c ≠ '"') (hbackslash : c ≠ '\\') (rest : List Char) :
    close? (c :: rest) = (close? rest).map fun (body, after) => (c :: body, after) := by
  rw [close?] <;> simp [hquote, hbackslash]

/-- The quote that ends the writing of a text is the one that closes it. -/
theorem close?_escaped (text after : List Char) :
    close? (escaped text ++ '"' :: after) = some (escaped text, after) := by
  induction text with
  | nil => rfl
  | cons c text ih =>
    rw [escaped_cons]
    by_cases hquote : c = '"'
    · subst hquote
      simp [escape, close?, ih]
    by_cases hbackslash : c = '\\'
    · subst hbackslash
      simp [escape, close?, ih]
    by_cases hnewline : c = '\n'
    · subst hnewline
      simp [escape, close?, ih]
    · have hplain : escape c = [c] := by simp [escape, hquote, hbackslash, hnewline]
      rw [hplain, List.singleton_append, List.cons_append, close?_cons_of_ne hquote hbackslash, ih]
      rfl

theorem close?_eq_none {text : List Char} (h : '"' ∉ text) : close? text = none := by
  fun_induction close? text with
  | case1 => rfl
  | case2 | case3 | case4 => simp at h
  | case5 rest ih => simp [ih (by simpa using h)]
  | case6 c rest _ _ _ ih => simp [ih (fun hmem => h (List.mem_cons_of_mem c hmem))]

end Literal

namespace Lexeme

def written : Lexeme → List Char
  | string text => '"' :: Literal.escaped text.toList ++ ['"']
  | lexeme => lexeme.text.toList

theorem written_number (value : Nat) : (number value).written = Nat.toDigits 10 value := by
  show (toString (value : Int)).toList = Nat.toDigits 10 value
  rw [Int.toString_eq_repr]
  exact Nat.toList_repr

end Lexeme

namespace Scan

section Front

variable {c : Char} {rest after : List Char}

def Apart (after : List Char) : Prop :=
  ∀ d ∈ after.head?, d = ' '

theorem Apart.run {accepts : Char → Bool} (h : Apart after) (hrest : ∀ d ∈ rest, accepts d = true)
    (hspace : accepts ' ' = false) : Run accepts rest after where
  accepted := hrest
  maximal d hd := by rwa [h d hd]

theorem front_string (text : List Char) :
    front '"' (Literal.escaped text ++ '"' :: after) = (.lexeme (.string (String.ofList text)), after) := by
  simp [front, Literal.close?_escaped, Literal.resolve_escaped]

theorem exists_isPair {symbol : String} (h : symbol ∈ pairs) : ∃ c d, symbol = String.ofList [c, d] ∧
    isPair c d = true ∧ isVisible c = true ∧ isVisible d = true := by
  simp only [pairs, List.mem_cons, List.not_mem_nil, or_false] at h
  rcases h with rfl | rfl | rfl | rfl | rfl <;> exact ⟨_, _, rfl, rfl, rfl, rfl⟩

theorem isPair_space (c : Char) : isPair c ' ' = false := by
  unfold isPair
  split <;> first | rfl | (next h => cases h)

/-- An operator of one character stands for itself before a space. A lone quote does so where no
other quote follows. -/
theorem front_punctuation (hc : isPunctuation c = true) (hname : c ≠ '_') (hquote : c = '"' → '"' ∉ after)
    (h : Apart after) : front c after = (.lexeme (.operator c.toString), after) := by
  have hstart : ¬ isNameStart c = true := by simp [isNameStart_eq_false_of_isPunctuation hc hname]
  refine front_operator hc hstart (fun _ hhead => ?_) (fun hlone => Literal.close?_eq_none (hquote hlone)) ?_
  · exact absurd (h '/' hhead) (by decide)
  · intro d hd
    rw [h d hd, isPair_space]
    decide

theorem numberFront_toDigits {value : Nat} (h : value ≤ maxNumber) :
    numberFront (Nat.toDigits 10 value) = .lexeme (.number value) := by
  have hvalue : Text.natOfDigits (Nat.toDigits 10 value) = value := Nat.ofDigitChars_ten_toDigits
  simp [numberFront, hvalue, h]

/-- What is written for a lexeme is read as this lexeme before a space. -/
theorem front_written {lexeme : Lexeme} (hscannable : lexeme.Scannable) (hname : lexeme ≠ .operator "_")
    (hquote : lexeme = .operator "\"" → '"' ∉ after) (h : Apart after) : ∃ c rest,
      lexeme.written = c :: rest ∧ isVisible c = true ∧ front c (rest ++ after) = (.lexeme lexeme, after) := by
  cases lexeme with
  | number value =>
    obtain ⟨n, rfl⟩ := Int.eq_ofNat_of_zero_le hscannable.1
    obtain ⟨c, rest, hdigits⟩ := List.exists_cons_of_ne_nil (@Nat.toDigits_ne_nil n 10)
    have hall : ∀ d ∈ c :: rest, d.isDigit = true := by
      rw [← hdigits]
      exact fun d hmem => Nat.isDigit_of_mem_toDigits (by decide) (by decide) hmem
    refine ⟨c, rest, by rw [Lexeme.written_number, hdigits], ?_, ?_⟩
    · exact isVisible_of_isNamePart (isNamePart_of_isDigit (hall c List.mem_cons_self))
    · rw [front_number (h.run hall (by decide)), ← hdigits, numberFront_toDigits (Int.ofNat_le.1 hscannable.2)]
  | string text =>
    refine ⟨'"', Literal.escaped text.toList ++ ['"'], rfl, by decide, ?_⟩
    rw [List.append_assoc, List.singleton_append, front_string, String.ofList_toList]
  | identifier name =>
    obtain ⟨c, rest, rfl, hc, hrest⟩ := hscannable
    refine ⟨c, rest, String.toList_ofList, isVisible_of_isNamePart (isNamePart_of_isNameStart hc), ?_⟩
    exact front_identifier hc (h.run (List.all_eq_true.1 hrest) (by decide))
  | operator symbol =>
    rcases hscannable with hpair | ⟨c, rfl, hc⟩
    · obtain ⟨c, d, rfl, hpair, hc, _⟩ := exists_isPair hpair
      exact ⟨c, [d], String.toList_ofList, hc, front_pair hpair⟩
    · have hne : c ≠ '_' := by
        rintro rfl
        exact hname rfl
      refine ⟨c, [], by simp [Lexeme.written, Lexeme.text], isVisible_of_isPunctuation hc, ?_⟩
      exact front_punctuation hc hne (fun hlone => hquote (by rw [hlone]; rfl)) h
  | endOfLine => exact hscannable.elim

end Front

def spaced (lexemes : List Lexeme) : List Char :=
  lexemes.flatMap fun lexeme => ' ' :: lexeme.written

def writeLine : List Lexeme → List Char
  | [] => []
  | first :: rest => first.written ++ spaced rest

/-- The lexemes can be told apart when they are written on one line. An underscore would be a name,
and a lone quote would begin a string if another quote came after it. -/
def Writable : List Lexeme → Prop
  | [] => True
  | first :: rest => first.Scannable ∧ first ≠ .operator "_" ∧
    (first = .operator "\"" → ∀ other ∈ rest, '"' ∉ other.written) ∧ Writable rest

theorem apart_spaced (lexemes : List Lexeme) : Apart (spaced lexemes) := by
  cases lexemes <;> simp [Apart, spaced]

structure IsPlain (lexeme : Lexeme) : Prop where
  scannable : lexeme.Scannable
  notUnderscore : lexeme ≠ .operator "_"
  notQuote : lexeme ≠ .operator "\""

theorem writable_of_isPlain {lexemes : List Lexeme} (h : ∀ lexeme ∈ lexemes, IsPlain lexeme) :
    Writable lexemes := by
  induction lexemes with
  | nil => trivial
  | cons first rest ih =>
    obtain ⟨hfirst, hrest⟩ := List.forall_mem_cons.1 h
    exact ⟨hfirst.scannable, hfirst.notUnderscore, fun hlone => absurd hlone hfirst.notQuote, ih hrest⟩

/-- The first of several lexemes is read, and the others are left. -/
theorem lexemesFrom_written {first : Lexeme} {rest : List Lexeme} (h : Writable (first :: rest))
    (size : Nat) {text : List Char}
    (htext : text.dropWhile Text.isBlank = (first.written ++ spaced rest).dropWhile Text.isBlank) :
    lexemesFrom size text = (first :: ·) <$> lexemesFrom size (spaced rest) := by
  obtain ⟨hscannable, hname, hquote, -⟩ := h
  have hnone : first = .operator "\"" → '"' ∉ spaced rest := by
    intro hlone
    simpa [spaced] using hquote hlone
  obtain ⟨c, others, hwritten, hvisible, hfront⟩ :=
    front_written hscannable hname hnone (apart_spaced rest)
  refine lexemesFrom_front ?_ hfront
  rw [htext, hwritten, List.cons_append, List.dropWhile_cons_of_neg (by simp [isBlank_eq_false hvisible])]

theorem lexemesFrom_spaced {lexemes : List Lexeme} (h : Writable lexemes) (size : Nat) :
    lexemesFrom size (spaced lexemes) = .ok lexemes := by
  induction lexemes with
  | nil => exact lexemesFrom_blank rfl
  | cons first rest ih =>
    have hspace : (spaced (first :: rest)).dropWhile Text.isBlank =
        (first.written ++ spaced rest).dropWhile Text.isBlank :=
      List.dropWhile_cons_of_pos (by decide)
    rw [lexemesFrom_written h size hspace, ih h.2.2.2]
    rfl

theorem lexemes_writeLine {lexemes : List Lexeme} (h : Writable lexemes) :
    Scan.lexemes (writeLine lexemes) = .ok lexemes := by
  cases lexemes with
  | nil => exact lexemesFrom_blank rfl
  | cons first rest =>
    rw [Scan.lexemes, writeLine, lexemesFrom_written h _ rfl, lexemesFrom_spaced h.2.2.2]
    rfl

/-- A text that can stand on a line: it has no line feed, and no carriage return at its end, which
would be taken for a part of the terminator. -/
structure FitsLine (text : List Char) : Prop where
  newline : '\n' ∉ text
  last : text.getLast? ≠ some '\r'

namespace FitsLine

theorem of_isVisible {text : List Char} (h : ∀ c ∈ text, isVisible c = true) : FitsLine text where
  newline hmem := absurd (h _ hmem) (by decide)
  last hlast := absurd (h _ (List.mem_of_getLast? hlast)) (by decide)

theorem append {text rest : List Char} (h : FitsLine text) (h' : FitsLine rest) : FitsLine (text ++ rest) where
  newline := by simp [h.newline, h'.newline]
  last := by
    rw [List.getLast?_append]
    cases hlast : rest.getLast? with
    | none => exact h.last
    | some c => exact fun heq => h'.last (hlast.trans heq)

theorem written {lexeme : Lexeme} (h : lexeme.Scannable) : FitsLine lexeme.written := by
  cases lexeme with
  | number value =>
    obtain ⟨n, rfl⟩ := Int.eq_ofNat_of_zero_le h.1
    rw [Lexeme.written_number]
    refine of_isVisible fun c hmem => isVisible_of_isNamePart (isNamePart_of_isDigit ?_)
    exact Nat.isDigit_of_mem_toDigits (by decide) (by decide) hmem
  | string text =>
    refine ⟨?_, ?_⟩
    · simpa [Lexeme.written] using Literal.newline_notMem_escaped text.toList
    · rw [Lexeme.written, List.getLast?_concat]
      decide
  | identifier name =>
    obtain ⟨c, rest, rfl, hc, hrest⟩ := h
    refine of_isVisible fun d hmem => isVisible_of_isNamePart ?_
    have htext : (Lexeme.identifier (String.ofList (c :: rest))).written = c :: rest :=
      String.toList_ofList
    rw [htext] at hmem
    rcases List.mem_cons.1 hmem with rfl | hmem
    · exact isNamePart_of_isNameStart hc
    · exact List.all_eq_true.1 hrest d hmem
  | operator symbol =>
    rcases h with hpair | ⟨c, rfl, hc⟩
    · obtain ⟨c, d, rfl, _, hc, hd⟩ := exists_isPair hpair
      have htext : (Lexeme.operator (String.ofList [c, d])).written = [c, d] := String.toList_ofList
      rw [htext]
      exact of_isVisible (List.forall_mem_cons.2 ⟨hc, List.forall_mem_singleton.2 hd⟩)
    · refine of_isVisible fun d hmem => ?_
      obtain rfl : d = c := by simpa [Lexeme.written, Lexeme.text] using hmem
      exact isVisible_of_isPunctuation hc
  | endOfLine => exact h.elim

theorem spaced {lexemes : List Lexeme} (h : ∀ lexeme ∈ lexemes, lexeme.Scannable) :
    FitsLine (spaced lexemes) := by
  induction lexemes with
  | nil => exact of_isVisible (by simp [Scan.spaced])
  | cons first rest ih =>
    obtain ⟨hfirst, hrest⟩ := List.forall_mem_cons.1 h
    have hspace : FitsLine [' '] := ⟨by decide, by decide⟩
    exact (hspace.append (written hfirst)).append (ih hrest)

theorem writeLine {lexemes : List Lexeme} (h : ∀ lexeme ∈ lexemes, lexeme.Scannable) :
    FitsLine (writeLine lexemes) := by
  cases lexemes with
  | nil => exact of_isVisible (by simp [Scan.writeLine])
  | cons first rest =>
    obtain ⟨hfirst, hrest⟩ := List.forall_mem_cons.1 h
    exact (written hfirst).append (spaced hrest)

end FitsLine

theorem Writable.scannable {lexemes : List Lexeme} (h : Writable lexemes) :
    ∀ lexeme ∈ lexemes, lexeme.Scannable := by
  induction lexemes with
  | nil => simp
  | cons first rest ih => exact List.forall_mem_cons.2 ⟨h.1, ih h.2.2.2⟩

end Scan

end ParseKit
