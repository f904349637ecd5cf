import Mathlib
import ParseKit.Proofs.EscapePairs
import ParseKit.Proofs.Pattern

/-! The line scanner as one pattern. The pattern skips blanks and then tries a comment, a number, a
string, an identifier and an operator, in this order; a line is scanned by matching it again and
again. A string leaves a choice, since a backslash is also an ordinary character. Main statement:
`TokenPattern.scan_eq`, matching with backtracking gives what the scanner gives. -/

namespace ParseKit

namespace TokenPattern

open Pattern (Way)

inductive Part where
  | comment
  | number
  | string
  | identifier
  | operator
  deriving DecidableEq, Repr

def comment : Pattern Part :=
  .seq (.literal '/') (.seq (.literal '/') (.star (.char (· != '\n'))))

def number : Pattern Part :=
  .plus (.oneOf [('0', '9')])

/-- What a string repeats: an escape pair, or else any character but the quote. -/
def piece : Pattern Part :=
  .alt (.word ['\\', '"']) (.alt (.word ['\\', '\\']) (.alt (.word ['\\', 'n']) (.char (· != '"'))))

def closing : Pattern Part :=
  .seq (.star piece) (.literal '"')

def string : Pattern Part :=
  .seq (.literal '"') closing

def identifier : Pattern Part :=
  .seq (.oneOf [('A', 'Z'), ('a', 'z'), ('_', '_')])
    (.star (.oneOf [('A', 'Z'), ('a', 'z'), ('0', '9'), ('_', '_')]))

def operator : Pattern Part :=
  .alt (.word ['=', '=']) (.alt (.word ['<', '=']) (.alt (.word ['>', '=']) (.alt (.word ['&', '&'])
    (.alt (.word ['|', '|']) (.oneOf [('!', '/'), (':', '@'), ('[', '_'), ('{', '~')])))))

def token : Pattern Part :=
  .alt (.group .comment comment) (.alt (.group .number number) (.alt (.group .string string)
    (.alt (.group .identifier identifier) (.group .operator operator))))

def round : Pattern Part :=
  .seq (.star (.char Text.isBlank)) (.optional token)

def reading (way : Way Part) : Scan.Front :=
  if let some digits := way.group? .number then Scan.numberFront digits
  else if let some raw := way.group? .string then
    .lexeme (.string (String.ofList (Literal.decode raw)))
  else if let some name := way.group? .identifier then .lexeme (.identifier (String.ofList name))
  else if let some symbol := way.group? .operator then .lexeme (.operator (String.ofList symbol))
  else if (way.group? .comment).isSome then .comment
  else .nothing

section Readings

variable (text taken after : List Char)

@[simp] theorem reading_number :
    reading ⟨[(.number, text)], taken, after⟩ = Scan.numberFront text := rfl

@[simp] theorem reading_string : reading ⟨[(.string, text)], taken, after⟩ =
    .lexeme (.string (String.ofList (Literal.decode text))) := rfl

@[simp] theorem reading_identifier : reading ⟨[(.identifier, text)], taken, after⟩ =
    .lexeme (.identifier (String.ofList text)) := rfl

@[simp] theorem reading_operator : reading ⟨[(.operator, text)], taken, after⟩ =
    .lexeme (.operator (String.ofList text)) := rfl

@[simp] theorem reading_comment : reading ⟨[(.comment, text)], taken, after⟩ = .comment := rfl

end Readings

section Classes

theorem inside_iff {ranges : List (Char × Char)} {c : Char} : Pattern.inside ranges c = true ↔
    ∃ range ∈ ranges, range.1.toNat ≤ c.toNat ∧ c.toNat ≤ range.2.toNat := by
  simp [Pattern.inside, Char.le_def, UInt32.le_iff_toNat_le]

theorem inside_digit : Pattern.inside [('0', '9')] = Char.isDigit := by
  funext c
  rw [Bool.eq_iff_iff, inside_iff, Char.isDigit_iff_toNat]
  simp

theorem inside_nameStart : Pattern.inside [('A', 'Z'), ('a', 'z'), ('_', '_')] = Scan.isNameStart := by
  funext c
  have hunderscore : c = '_' ↔ c.toNat = 95 := Char.toNat_inj.symm
  rw [Bool.eq_iff_iff, inside_iff]
  simp [Scan.isNameStart, Scan.isAlpha_iff, hunderscore]
  omega

theorem inside_namePart :
    Pattern.inside [('A', 'Z'), ('a', 'z'), ('0', '9'), ('_', '_')] = Scan.isNamePart := by
  funext c
  have hunderscore : c = '_' ↔ c.toNat = 95 := Char.toNat_inj.symm
  rw [Bool.eq_iff_iff, inside_iff]
  simp [Scan.isNamePart, Char.isAlphanum, Char.isDigit_iff_toNat, Scan.isAlpha_iff, hunderscore]
  omega

theorem inside_punctuation :
    Pattern.inside [('!', '/'), (':', '@'), ('[', '_'), ('{', '~')] = Scan.isPunctuation := by
  funext c
  rw [Bool.eq_iff_iff, inside_iff]
  simp [Scan.isPunctuation, Text.inRanges]

end Classes

section String

theorem first?_closing_eq_none {text : List Char} (h : '"' ∉ text) : closing.first? text = none := by
  rw [closing, Pattern.first?_seq, List.findSome?_eq_none_iff]
  intro way hway
  have hafter : '"' ∉ way.after := by
    rw [← Pattern.taken_append_after hway] at h
    simp at h
    exact h.2
  cases hrest : way.after with
  | nil => rfl
  | cons c rest =>
    have hne : ¬ c = '"' := by
      rintro rfl
      simp [hrest] at hafter
    simp [Pattern.literal, hne]

theorem first?_closing_eq (text : List Char) : closing.first? text =
    ((piece.ways text).findSome? fun way =>
      if way.after.length < text.length then (closing.first? way.after).map way.prepend else none).or
        ((Pattern.literal '"').first? text) :=
  Pattern.first?_star_seq piece _ text

theorem first?_closing_quote (rest : List Char) : closing.first? ('"' :: rest) = some ⟨[], ['"'], rest⟩ := by
  rw [closing, Pattern.first?_star_seq]
  rfl

/-- A pair is taken as one, or else its characters one after the other. -/
theorem first?_closing_pair {d : Char} (h : Literal.Escapes d) (rest : List Char) :
    closing.first? ('\\' :: d :: rest) =
      ((closing.first? rest).map (Way.prepend ⟨[], ['\\', d], rest⟩)).or
        ((closing.first? (d :: rest)).map (Way.prepend ⟨[], ['\\'], d :: rest⟩)) := by
  have hways : piece.ways ('\\' :: d :: rest) = [⟨[], ['\\', d], rest⟩, ⟨[], ['\\'], d :: rest⟩] := by
    rcases h with rfl | rfl | rfl <;> rfl
  have hlast : (Pattern.literal '"' : Pattern Part).first? ('\\' :: d :: rest) = none := rfl
  have hpair : rest.length < ('\\' :: d :: rest).length := Nat.lt_succ_of_lt (Nat.lt_succ_self _)
  have hone : (d :: rest).length < ('\\' :: d :: rest).length := Nat.lt_succ_self _
  rw [first?_closing_eq, hways, hlast]
  simp only [List.findSome?_cons, hpair, hone, if_true, List.findSome?_nil]
  cases closing.first? rest <;> cases closing.first? (d :: rest) <;> rfl

theorem first?_closing_plain {c : Char} {rest : List Char} (hquote : c ≠ '"')
    (halone : Literal.Alone c rest) :
    closing.first? (c :: rest) = (closing.first? rest).map (Way.prepend ⟨[], [c], rest⟩) := by
  have hways : piece.ways (c :: rest) = [⟨[], [c], rest⟩] := by
    by_cases hbackslash : c = '\\'
    · subst hbackslash
      cases rest with
      | nil => rfl
      | cons d rest =>
        have hd := halone rfl d rfl
        simp only [Literal.Escapes, not_or] at hd
        simp [piece, Pattern.ways, Pattern.word, Pattern.literal, hd]
    · simp [piece, Pattern.ways, Pattern.word, Pattern.literal, hbackslash, hquote]
  have hlast : (Pattern.literal '"' : Pattern Part).first? (c :: rest) = none := by
    simp [Pattern.literal, hquote]
  have hone : rest.length < (c :: rest).length := Nat.lt_succ_self _
  rw [first?_closing_eq, hways, hlast]
  simp only [List.findSome?_cons, hone, if_true, List.findSome?_nil]
  cases closing.first? rest <;> rfl

theorem first?_closing (text : List Char) : closing.first? text =
    (Literal.close? text).map fun (body, after) => ⟨[], body ++ ['"'], after⟩ := by
  induction text using Literal.pieces_induction with
  | nil => rfl
  | pair d rest hd ih =>
    rw [first?_closing_pair hd, ih]
    by_cases hquote : d = '"'
    · subst hquote
      rw [first?_closing_quote, Literal.close?_pair_quote]
      cases Literal.close? rest <;> rfl
    · rw [Literal.close?_pair hd hquote]
      cases hrest : Literal.close? rest with
      | some closed => rfl
      | none =>
        -- The pair may be given up, but there is no quote to find then either.
        have hnone : '"' ∉ d :: rest := by simp [Ne.symm hquote, Literal.close?_eq_none_iff.1 hrest]
        rw [first?_closing_eq_none hnone]
        rfl
  | plain c rest halone ih =>
    by_cases hquote : c = '"'
    · subst hquote
      exact first?_closing_quote rest
    · rw [first?_closing_plain hquote halone, ih, Literal.close?_plain hquote halone]
      cases Literal.close? rest <;> rfl

end String

section Alternatives

variable (c : Char) (rest : List Char)

theorem first?_comment : comment.first? (c :: rest) = if c == '/' && rest.head? == some '/' then
    some ⟨[], c :: rest.takeWhile (· != '\n'), rest.dropWhile (· != '\n')⟩ else none := by
  cases rest with
  | nil => simp [comment, Pattern.literal, Pattern.first?_char_seq]
  | cons d rest =>
    by_cases hc : c = '/' <;> by_cases hd : d = '/' <;>
      simp [comment, Pattern.literal, Pattern.first?_char_seq, Pattern.first?_star_char, Way.prepend, hc, hd]

theorem first?_number : number.first? (c :: rest) = if c.isDigit then
    some ⟨[], c :: rest.takeWhile Char.isDigit, rest.dropWhile Char.isDigit⟩ else none := by
  simp [number, Pattern.plus, Pattern.oneOf, inside_digit, Pattern.first?_char_seq, Pattern.first?_star_char,
    Way.prepend]

theorem first?_string : string.first? (c :: rest) = if c == '"' then
    (Literal.close? rest).map fun (body, after) => ⟨[], c :: (body ++ ['"']), after⟩ else none := by
  simp [string, Pattern.literal, Pattern.first?_char_seq, first?_closing, Way.prepend, Function.comp_def]

theorem first?_identifier : identifier.first? (c :: rest) = if Scan.isNameStart c then
    some ⟨[], c :: rest.takeWhile Scan.isNamePart, rest.dropWhile Scan.isNamePart⟩ else none := by
  simp [identifier, Pattern.oneOf, inside_nameStart, inside_namePart, Pattern.first?_char_seq,
    Pattern.first?_star_char, Way.prepend]

theorem first?_word_pair (a b : Char) : (Pattern.word [a, b] : Pattern Part).first? (c :: rest) =
    if c = a ∧ rest.head? = some b then some ⟨[], [a, b], rest.tail⟩ else none := by
  cases rest with
  | nil => simp [Pattern.word, Pattern.literal, Pattern.first?_char_seq]
  | cons d rest =>
    by_cases hc : c = a <;> by_cases hd : d = b <;>
      simp [Pattern.word, Pattern.literal, Pattern.first?_char_seq, Way.prepend, hc, hd]

theorem first?_operator : operator.first? (c :: rest) =
    if rest.head?.any (Scan.isPair c) then some ⟨[], c :: rest.take 1, rest.tail⟩
    else if Scan.isPunctuation c then some ⟨[], [c], rest⟩ else none := by
  cases rest with
  | nil => simp [operator, Pattern.first?_alt, first?_word_pair, Pattern.oneOf, inside_punctuation]
  | cons d rest =>
    by_cases hpair : Scan.isPair c d = true
    · rw [List.head?_cons, Option.any_some, if_pos hpair]
      unfold Scan.isPair at hpair
      split at hpair <;> first | rfl | cases hpair
    · have hword : ∀ a b, Scan.isPair a b = true →
          (Pattern.word [a, b] : Pattern Part).first? (c :: d :: rest) = none := by
        intro a b hab
        rw [first?_word_pair, if_neg]
        rintro ⟨rfl, hd⟩
        obtain rfl : d = b := by simpa using hd
        exact hpair hab
      simp [operator, Pattern.first?_alt, hword '=' '=' rfl, hword '<' '=' rfl, hword '>' '=' rfl,
        hword '&' '&' rfl, hword '|' '|' rfl, Pattern.oneOf, inside_punctuation, hpair]

end Alternatives

theorem decode_quoted (body : List Char) :
    Literal.decode ('"' :: (body ++ ['"'])) = Literal.resolve body := by
  simp [Literal.decode, Literal.interior]

theorem numberFront_ne_nothing (digits : List Char) : Scan.numberFront digits ≠ .nothing := by
  simp only [Scan.numberFront]
  split <;> simp

/-- The alternative that is matched first is what the scanner sees at the front. -/
theorem front_eq (c : Char) (rest : List Char) : match token.first? (c :: rest) with
    | some way => Scan.front c rest = (reading way, way.after) ∧ reading way ≠ .nothing
    | none => Scan.front c rest = (.nothing, rest) := by
  simp only [token, Pattern.first?_alt, Pattern.first?_group, first?_comment, first?_number, first?_string,
    first?_identifier, first?_operator, Bool.and_eq_true, beq_iff_eq]
  by_cases hcomment : c = '/' ∧ rest.head? = some '/'
  · simp [Scan.front, hcomment]
  by_cases hdigit : c.isDigit = true
  · simp [Scan.front, hcomment, hdigit, numberFront_ne_nothing]
  by_cases hclosed : c = '"' ∧ ∃ closed, Literal.close? rest = some closed
  · obtain ⟨rfl, closed, hclosed⟩ := hclosed
    simp [Scan.front, hclosed, decode_quoted]
  by_cases hname : Scan.isNameStart c = true
  · have hquote : ¬ c = '"' := by
      rintro rfl
      exact absurd hname (by decide)
    simp [Scan.front, hcomment, hdigit, hquote, hname]
  · have hstring : c = '"' → Literal.close? rest = none := by
      intro hquote
      rw [Option.eq_none_iff_forall_not_mem]
      exact fun closed hmem => hclosed ⟨hquote, closed, hmem⟩
    have hskip : (if c = '"' then (Literal.close? rest).map fun (body, after) =>
        (⟨[], c :: (body ++ ['"']), after⟩ : Way Part) else none) = none := by
      split
      · next hquote => rw [hstring hquote]; rfl
      · rfl
    rw [Scan.front_of_operator hcomment hdigit hstring hname, hskip, Scan.operatorFront]
    by_cases hpair : rest.head?.any (Scan.isPair c) = true
    · simp [hcomment, hdigit, hname, hpair]
    · by_cases hpunctuation : Scan.isPunctuation c = true <;>
        simp [hcomment, hdigit, hname, hpair, hpunctuation]

/-- A match takes the blanks, and a token if there is one after them. -/
theorem first?_round (text : List Char) : round.first? text =
    some (Way.prepend ⟨[], text.takeWhile Text.isBlank, text.dropWhile Text.isBlank⟩
      ((token.first? (text.dropWhile Text.isBlank)).getD ⟨[], [], text.dropWhile Text.isBlank⟩)) :=
  Pattern.first?_seq_of_first? (Pattern.first?_star_char _ _) (Pattern.first?_optional _ _)

theorem round_cases {text : List Char} {way : Way Part} (h : round.first? text = some way) :
    (reading way = .nothing ∧ way.after = text.dropWhile Text.isBlank ∧
      ∀ c rest, way.after = c :: rest → Scan.front c rest = (.nothing, rest)) ∨
    reading way ≠ .nothing ∧ ∃ c rest, text.dropWhile Text.isBlank = c :: rest ∧
      Scan.front c rest = (reading way, way.after) := by
  rw [first?_round] at h
  obtain rfl := Option.some.inj h
  cases htext : text.dropWhile Text.isBlank with
  | nil => exact .inl ⟨rfl, rfl, fun c rest hnil => by cases hnil⟩
  | cons c rest =>
    have hfront := front_eq c rest
    cases hfirst : token.first? (c :: rest) with
    | none =>
      rw [hfirst] at hfront
      refine .inl ⟨rfl, rfl, fun d others hcons => ?_⟩
      obtain ⟨rfl, rfl⟩ := List.cons.inj hcons
      exact hfront
    | some way =>
      rw [hfirst] at hfront
      exact .inr ⟨hfront.2, c, rest, rfl, hfront.1⟩

theorem length_after_lt {text : List Char} {way : Way Part} (h : round.first? text = some way)
    (hreading : reading way ≠ .nothing) : way.after.length < text.length := by
  rcases round_cases h with ⟨hnothing, -⟩ | ⟨-, c, rest, htext, hfront⟩
  · exact absurd hnothing hreading
  · exact Scan.length_after_lt htext hfront

/-- The lexemes of `text`, which stands at an offset in its line. -/
def scanFrom (offset : Nat) (text : List Char) : Except ScanFault (List Lexeme) :=
  if text = [] then .ok []
  else
    match _h : round.first? text with
    | none => .error (.badToken (offset + 1) (Scan.excerpt text))
    | some way =>
      match _hreading : reading way with
      | .comment => scanFrom (offset + Scan.byteLength way.taken) way.after
      | .lexeme lexeme => (lexeme :: ·) <$> scanFrom (offset + Scan.byteLength way.taken) way.after
      | .tooLarge digits => .error (.numberOutOfRange (String.ofList digits))
      | .nothing =>
        if way.after = [] then .ok []
        else .error (.badToken (offset + Scan.byteLength way.taken + 1) (Scan.excerpt way.after))
termination_by text.length
decreasing_by all_goals exact length_after_lt _h (by simp [_hreading])

/-- The lexemes of one physical line, as the pattern finds them. -/
def scan (line : List Char) : Except ScanFault (List Lexeme) :=
  scanFrom 0 line

theorem byteLength_round {text : List Char} {way : Way Part} (h : round.first? text = some way) :
    Scan.byteLength text = Scan.byteLength way.taken + Scan.byteLength way.after := by
  rw [← Scan.byteLength_append, Pattern.taken_append_after_of_first? h]

theorem scanFrom_eq (offset : Nat) (text : List Char) :
    scanFrom offset text = Scan.lexemesFrom (offset + Scan.byteLength text) text := by
  fun_induction scanFrom offset text with
  | case1 offset => exact (Scan.lexemesFrom_blank rfl).symm
  | case2 offset text _ h =>
    rw [first?_round] at h
    cases h
  | case3 offset text _ way h hreading ih =>
    obtain ⟨-, c, rest, htext, hfront⟩ := (round_cases h).resolve_left (by simp [hreading])
    rw [Scan.lexemesFrom_front htext hfront, hreading, Scan.proceed, ih, byteLength_round h, Nat.add_assoc]
  | case4 offset text _ way h lexeme hreading ih =>
    obtain ⟨-, c, rest, htext, hfront⟩ := (round_cases h).resolve_left (by simp [hreading])
    rw [Scan.lexemesFrom_front htext hfront, hreading, Scan.proceed, ih, byteLength_round h, Nat.add_assoc]
  | case5 offset text _ way h digits hreading =>
    obtain ⟨-, c, rest, htext, hfront⟩ := (round_cases h).resolve_left (by simp [hreading])
    rw [Scan.lexemesFrom_front htext hfront, hreading, Scan.proceed]
  | case6 offset text _ way h hreading hnil =>
    obtain ⟨-, hafter, -⟩ := (round_cases h).resolve_right (by simp [hreading])
    rw [Scan.lexemesFrom_blank (hafter.symm.trans hnil)]
  | case7 offset text _ way h hreading hcons =>
    obtain ⟨-, hafter, hnothing⟩ := (round_cases h).resolve_right (by simp [hreading])
    obtain ⟨c, rest, hrest⟩ := List.exists_cons_of_ne_nil hcons
    rw [Scan.lexemesFrom_front (hafter.symm.trans hrest) (hnothing c rest hrest), Scan.proceed,
      byteLength_round h, hrest, ← Nat.add_assoc, Nat.add_sub_cancel]

theorem scan_eq (line : List Char) : scan line = Scan.lexemes line := by
  rw [scan, scanFrom_eq, Nat.zero_add, Scan.lexemes]

end TokenPattern

end ParseKit
