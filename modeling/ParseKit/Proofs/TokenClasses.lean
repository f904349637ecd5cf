import ParseKit.Proofs.Reading

/-! Classes of tokens that have no token in common. Whether two classes are apart is computed from
their spellings: a spelling that does not begin as names do is never that of an identifier. -/

namespace ParseKit

def Scan.beginsName (text : String) : Bool :=
  text.toList.head?.any isNameStart

theorem Lexeme.Scannable.beginsName {name : String} (h : (Lexeme.identifier name).Scannable) :
    Scan.beginsName name = true := by
  obtain ⟨c, rest, rfl, hc, -⟩ := h
  simpa [Scan.beginsName] using hc

def Scan.isSymbol (text : String) : Bool :=
  pairs.contains text || match text.toList with
    | [c] => isPunctuation c
    | _ => false

theorem Lexeme.scannable_operator_iff {symbol : String} :
    (Lexeme.operator symbol).Scannable ↔ Scan.isSymbol symbol = true := by
  have hone : (∃ c : Char, symbol = c.toString ∧ Scan.isPunctuation c) ↔
      (match symbol.toList with | [c] => Scan.isPunctuation c | _ => false) = true := by
    constructor
    · rintro ⟨c, rfl, hc⟩
      simpa using hc
    · intro h
      split at h
      · next c hlist => exact ⟨c, String.toList_inj.1 (by simpa using hlist), h⟩
      · cases h
  rw [Scannable, hone, Scan.isSymbol, Bool.or_eq_true, List.contains_iff_mem]

namespace Token

/-- How a grammar spells the token. Literals are never spelled. -/
def spelling? : Token → Option String
  | scanned _ (.identifier name) => some name
  | scanned _ (.operator symbol) => some symbol
  | scanned _ .endOfLine => some endOfLineText
  | _ => none

theorem isSpelled_iff {token : Token} {text : String} :
    token.isSpelled text = true ↔ token.spelling? = some text := by
  rcases token with ⟨line, lexeme⟩ | _
  · cases lexeme with
    | endOfLine => simp [isSpelled, Lexeme.isSpelled, spelling?, @eq_comm _ text]
    | number | string | identifier | operator => simp [isSpelled, Lexeme.isSpelled, spelling?]
  · simp [isSpelled, spelling?]

def isIn (classes : List TokenClass) (token : Token) : Bool :=
  classes.any (·.accepts token)

variable {token : Token} {classes others : List TokenClass}

theorem isIn_iff : token.isIn classes = true ↔ ∃ what ∈ classes, what.accepts token = true := by
  simp [isIn]

@[simp] theorem isIn_nil : token.isIn [] = false := rfl

@[simp] theorem isIn_cons (what : TokenClass) :
    token.isIn (what :: classes) = (what.accepts token || token.isIn classes) := rfl

@[simp] theorem isIn_append : token.isIn (classes ++ others) = (token.isIn classes || token.isIn others) := by
  simp [isIn]

@[simp] theorem isIn_flatMap {α : Type} (f : α → List TokenClass) (as : List α) :
    token.isIn (as.flatMap f) = as.any (fun a => token.isIn (f a)) := by
  simp [isIn, List.any_flatMap]

@[simp] theorem isIn_endOfInput : endOfInput.isIn classes = false := by
  simp [isIn]

theorem isIn_of_subset (h : classes ⊆ others) (hin : token.isIn classes = true) :
    token.isIn others = true := by
  obtain ⟨what, hmem, haccepts⟩ := isIn_iff.1 hin
  exact isIn_iff.2 ⟨what, h hmem, haccepts⟩

end Token

namespace TokenClass

def apart : TokenClass → TokenClass → Bool
  | number, number => false
  | string, string => false
  | identifier _, identifier _ => false
  | spelled texts, spelled others => texts.all (!others.contains ·)
  | spelled texts, identifier reserved | identifier reserved, spelled texts =>
    texts.all fun text => reserved.contains text || !Scan.beginsName text
  | _, _ => true

section Accepts

variable {token : Token}

theorem accepts_number_iff :
    number.accepts token = true ↔ ∃ line value, token = .scanned line (.number value) := by
  rcases token with ⟨line, lexeme⟩ | _
  · cases lexeme <;> simp [accepts, Token.isNumber]
  · simp

theorem accepts_string_iff :
    string.accepts token = true ↔ ∃ line text, token = .scanned line (.string text) := by
  rcases token with ⟨line, lexeme⟩ | _
  · cases lexeme <;> simp [accepts, Token.isString]
  · simp

theorem accepts_identifier_iff {reserved : List String} : (identifier reserved).accepts token = true ↔
    ∃ line name, token = .scanned line (.identifier name) ∧ name ∉ reserved := by
  rcases token with ⟨line, lexeme⟩ | _
  · cases lexeme <;> simp [accepts, Token.isIdentifier, Token.text, Lexeme.text]
  · simp

theorem accepts_spelled_iff {texts : List String} :
    (spelled texts).accepts token = true ↔ ∃ text ∈ texts, token.spelling? = some text := by
  simp [accepts, Token.isSpelled_iff]

theorem all_eq_false_of_accepts {texts reserved : List String} (hscannable : token.Scannable)
    (hspelled : (spelled texts).accepts token = true)
    (hidentifier : (identifier reserved).accepts token = true) :
    texts.all (fun text => reserved.contains text || !Scan.beginsName text) = false := by
  obtain ⟨line, name, rfl, hfree⟩ := accepts_identifier_iff.1 hidentifier
  obtain ⟨text, htext, hspelling⟩ := accepts_spelled_iff.1 hspelled
  cases hspelling
  have hbegins := Lexeme.Scannable.beginsName (hscannable.resolve_right (by simp))
  simpa using ⟨name, htext, hfree, hbegins⟩

theorem apart_eq_false {a b : TokenClass} (hscannable : token.Scannable)
    (ha : a.accepts token = true) (hb : b.accepts token = true) : a.apart b = false := by
  cases a with
  | number =>
    obtain ⟨line, value, rfl⟩ := accepts_number_iff.1 ha
    cases b with
    | number => rfl
    | string | identifier reserved => cases hb
    | spelled texts => simp [accepts_spelled_iff, Token.spelling?] at hb
  | string =>
    obtain ⟨line, text, rfl⟩ := accepts_string_iff.1 ha
    cases b with
    | string => rfl
    | number | identifier reserved => cases hb
    | spelled texts => simp [accepts_spelled_iff, Token.spelling?] at hb
  | identifier reserved =>
    cases b with
    | identifier reserved => rfl
    | spelled texts => exact all_eq_false_of_accepts hscannable hb ha
    | number | string =>
      obtain ⟨line, name, rfl, -⟩ := accepts_identifier_iff.1 ha
      cases hb
  | spelled texts =>
    obtain ⟨text, htext, hspelling⟩ := accepts_spelled_iff.1 ha
    cases b with
    | identifier reserved => exact all_eq_false_of_accepts hscannable ha hb
    | spelled others =>
      obtain ⟨other, hother, hspelling'⟩ := accepts_spelled_iff.1 hb
      cases hspelling.symm.trans hspelling'
      simpa [apart] using ⟨text, htext, hother⟩
    | number =>
      obtain ⟨line, value, rfl⟩ := accepts_number_iff.1 hb
      cases hspelling
    | string =>
      obtain ⟨line, value, rfl⟩ := accepts_string_iff.1 hb
      cases hspelling

end Accepts

def allApart (classes others : List TokenClass) : Bool :=
  classes.all fun a => others.all a.apart

theorem not_isIn_of_allApart {classes others : List TokenClass} (h : allApart classes others = true)
    {token : Token} (hscannable : token.Scannable) (hin : token.isIn classes = true) :
    token.isIn others = false := by
  rw [← Bool.not_eq_true, Token.isIn_iff]
  rintro ⟨b, hb, haccepts⟩
  obtain ⟨a, ha, haccepts'⟩ := Token.isIn_iff.1 hin
  have hapart := List.all_eq_true.1 (List.all_eq_true.1 h a ha) b hb
  rw [apart_eq_false hscannable haccepts' haccepts] at hapart
  cases hapart

end TokenClass

end ParseKit
