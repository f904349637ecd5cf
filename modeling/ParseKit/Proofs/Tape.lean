import ParseKit.Lexer
import ParseKit.Proofs.Running

/-! A source as one sequence of items, each a token or the fault of a line that gives none, and a
stream that walks over such a sequence. A fault is met once and is gone after that; what comes after
it can still be read. Main statements: a parser that does not fail on a fault has only moved tokens
from ahead to the past, so that going back restores the tape it started from. -/

namespace ParseKit

abbrev Item := Except LexError Token

/-- The items of the lines that follow line `line`. -/
def Source.items (options : LexerOptions) (line : Nat) : Source → List Item
  | [] => []
  | .undecodable :: rest =>
    .error ⟨line + 1, .unreadable notUtf8⟩ :: items options line rest
  | .text chars :: rest =>
    match Scan.lexemes chars with
    | .error fault => .error ⟨line + 1, .scan fault⟩ :: items options (line + 1) rest
    | .ok lexemes =>
      (lineTokens options (line + 1) lexemes).map .ok ++ items options (line + 1) rest

namespace Item

def next : Item → Except LexError (Option Token)
  | .ok .endOfInput => .ok none
  | .ok token => .ok (some token)
  | .error fault => .error fault

def tokens : List Item → List Token
  | .ok token :: rest => token :: tokens rest
  | _ => []

def fault? : List Item → Option LexError
  | .ok _ :: rest => fault? rest
  | .error fault :: _ => some fault
  | [] => none

@[simp] theorem tokens_map_ok_append (us : List Token) (items : List Item) :
    tokens (us.map .ok ++ items) = us ++ tokens items := by
  induction us with
  | nil => rfl
  | cons u us ih => simp [tokens, ih]

@[simp] theorem fault?_map_ok_append (us : List Token) (items : List Item) :
    fault? (us.map .ok ++ items) = fault? items := by
  induction us with
  | nil => rfl
  | cons u us ih => simpa [fault?] using ih

theorem eq_map_ok_of_fault?_eq_none {items : List Item} (h : fault? items = none) :
    items = (tokens items).map .ok := by
  induction items with
  | nil => rfl
  | cons item rest ih =>
    cases item with
    | error fault => cases h
    | ok token => simpa [tokens] using ih h

end Item

namespace Source

def tokens (options : LexerOptions) (source : Source) : List Token :=
  Item.tokens (source.items options 0)

def fault? (source : Source) : Option LexError :=
  Item.fault? (source.items {} 0)

theorem fault?_items (options options' : LexerOptions) (line : Nat) (source : Source) :
    Item.fault? (source.items options line) = Item.fault? (source.items options' line) := by
  induction source generalizing line with
  | nil => rfl
  | cons physical rest ih =>
    cases physical with
    | undecodable => rfl
    | text chars =>
      simp only [items]
      split
      · rfl
      · simpa using ih (line + 1)

end Source

/-- Tokens that were taken, and the items that are still to come. -/
structure Tape where
  past : List Token := []
  ahead : List Item

namespace Tape

/-- The item `k` places ahead, or the first fault up to there, which is dropped. -/
def look : Nat → List Item → Item × List Item
  | _, [] => (.ok .endOfInput, [])
  | _, .error fault :: rest => (.error fault, rest)
  | 0, .ok token :: rest => (.ok token, .ok token :: rest)
  | k + 1, .ok token :: rest => ((look k rest).1, .ok token :: (look k rest).2)

def peek (k : Nat) (tape : Tape) : Item × Tape :=
  ((look k tape.ahead).1, { tape with ahead := (look k tape.ahead).2 })

def read : Tape → Item × Tape
  | ⟨past, []⟩ => (.ok .endOfInput, ⟨past, []⟩)
  | ⟨past, .error fault :: rest⟩ => (.error fault, ⟨past, rest⟩)
  | ⟨past, .ok token :: rest⟩ => (.ok token, ⟨past ++ [token], rest⟩)

def rewind (mark : Checkpoint) (tape : Tape) : Tape where
  past := tape.past.take mark.position
  ahead := (tape.past.drop mark.position).map .ok ++ tape.ahead

def reach (tape : Tape) : List Token :=
  Item.tokens tape.ahead

def fault? (tape : Tape) : Option LexError :=
  Item.fault? tape.ahead

instance : TokenStream Tape where
  peek := peek
  read := read
  cursor tape := tape.past.length
  checkpoint tape := (⟨tape.past.length⟩, tape)
  rewind := rewind
  commit tape := tape
  report _ tape := tape
  unread tape := tape.reach.length

/-- The next token, the end of the input included, as long as no fault comes first. -/
def next? (tape : Tape) : Option Token :=
  match tape.ahead with
  | .ok token :: _ => some token
  | .error _ :: _ => none
  | [] => some .endOfInput

/-- `tape` becomes `tape'` by taking the tokens `us`. -/
structure Leads (tape : Tape) (us : List Token) (tape' : Tape) : Prop where
  past : tape'.past = tape.past ++ us
  ahead : tape.ahead = us.map .ok ++ tape'.ahead

namespace Leads

variable {tape tape₁ tape₂ : Tape} {us vs : List Token}

theorem refl (tape : Tape) : tape.Leads [] tape := ⟨by simp, by simp⟩

theorem trans (h : tape.Leads us tape₁) (h' : tape₁.Leads vs tape₂) :
    tape.Leads (us ++ vs) tape₂ :=
  ⟨by rw [h'.past, h.past, List.append_assoc], by rw [h.ahead, h'.ahead]; simp⟩

theorem reach (h : tape.Leads us tape₁) : tape.reach = us ++ tape₁.reach := by
  rw [Tape.reach, h.ahead, Item.tokens_map_ok_append]
  rfl

theorem fault? (h : tape.Leads us tape₁) : tape.fault? = tape₁.fault? := by
  rw [Tape.fault?, h.ahead, Item.fault?_map_ok_append]
  rfl

theorem eq_of_nil (h : tape.Leads [] tape₁) : tape₁ = tape := by
  obtain ⟨hpast, hahead⟩ := h
  cases tape₁
  cases tape
  simp_all

theorem cursor (h : tape.Leads us tape₁) :
    TokenStream.cursor tape₁ = TokenStream.cursor tape + us.length := by
  show tape₁.past.length = _
  rw [h.past, List.length_append]
  rfl

theorem split (h : tape.Leads (us ++ vs) tape₂) :
    ∃ tape₁, tape.Leads us tape₁ ∧ tape₁.Leads vs tape₂ := by
  refine ⟨⟨tape.past ++ us, vs.map .ok ++ tape₂.ahead⟩, ⟨rfl, ?_⟩, ⟨?_, rfl⟩⟩
  · rw [h.ahead, List.map_append, List.append_assoc]
  · rw [h.past, List.append_assoc]

theorem unique (h : tape.Leads us tape₁) (h' : tape.Leads vs tape₁) : us = vs :=
  List.append_cancel_left (h.past.symm.trans h'.past)

theorem rewind_eq (h : tape.Leads us tape₁) :
    TokenStream.rewind (TokenStream.checkpoint tape).1 tape₁ = tape := by
  obtain ⟨hpast, hahead⟩ := h
  cases tape
  simp only at hpast hahead
  simp [TokenStream.rewind, TokenStream.checkpoint, Tape.rewind, hpast, hahead]

end Leads

theorem Leads.next? {tape tape' : Tape} {u : Token} {us : List Token} (h : tape.Leads (u :: us) tape') :
    tape.next? = some u := by
  rw [Tape.next?, h.ahead]
  rfl

theorem leads_of_next? {tape : Tape} {token : Token} (h : tape.next? = some token)
    (hne : token ≠ .endOfInput) : ∃ tape', tape.Leads [token] tape' := by
  rcases tape with ⟨past, _ | ⟨_ | next, rest⟩⟩ <;> cases h
  · exact absurd rfl hne
  · exact ⟨⟨past ++ [token], rest⟩, rfl, rfl⟩

theorem Leads.read {tape tape' : Tape} {token : Token} (h : tape.Leads [token] tape') :
    TokenStream.read tape = (.ok token, tape') := by
  obtain ⟨past, ahead⟩ := tape
  obtain ⟨past', ahead'⟩ := tape'
  obtain ⟨hpast, hahead⟩ := h
  simp only at hpast hahead
  subst hpast hahead
  rfl

/-- Walks that take the same tokens and end before the same token begin before the same token. -/
theorem Leads.next?_congr {tape tape₁ other other₁ : Tape} {us : List Token}
    (h : tape.Leads us tape₁) (h' : other.Leads us other₁) (hnext : other₁.next? = tape₁.next?) :
    other.next? = tape.next? := by
  cases us with
  | nil => rw [← h.eq_of_nil, ← h'.eq_of_nil, hnext]
  | cons u us => rw [h.next?, h'.next?]

theorem next?_eq_none_iff {tape : Tape} :
    tape.next? = none ↔ ∃ fault rest, tape.ahead = .error fault :: rest := by
  obtain ⟨past, _ | ⟨_ | _, _⟩⟩ := tape <;> simp [next?]

theorem peek_zero_of_next? {tape : Tape} {token : Token} (h : tape.next? = some token) :
    (tape.peek 0).1 = .ok token := by
  obtain ⟨past, _ | ⟨_ | _, _⟩⟩ := tape <;> cases h <;> rfl

end Tape

theorem ParseM.peek_of_next? {tape : Tape} {token : Token} (h : tape.next? = some token) :
    ParseM.peek 0 tape = (.ok token, tape) := by
  obtain ⟨past, _ | ⟨_ | _, _⟩⟩ := tape <;> cases h <;> rfl

namespace TokenClass

@[simp] theorem accepts_endOfInput (what : TokenClass) : what.accepts .endOfInput = false := by
  cases what <;> simp [accepts, Token.isNumber, Token.isIdentifier, Token.isString, Token.isSpelled]

theorem take_of_accepts {what : TokenClass} {token : Token} (h : what.accepts token = true)
    (past : List Token) (rest : List Item) :
    what.take (⟨past, .ok token :: rest⟩ : Tape) = (.ok token, ⟨past ++ [token], rest⟩) := by
  have hpeek : ParseM.peek 0 (⟨past, .ok token :: rest⟩ : Tape) =
      (.ok token, ⟨past, .ok token :: rest⟩) := ParseM.peek_of_next? rfl
  rw [take, ParseM.bind_of_ok hpeek, if_pos h]
  rfl

theorem take_of_leads {what : TokenClass} {token : Token} (h : what.accepts token = true)
    {tape tape' : Tape} (hleads : tape.Leads [token] tape') : what.take tape = (.ok token, tape') := by
  obtain ⟨past, ahead⟩ := tape
  obtain ⟨past', ahead'⟩ := tape'
  obtain ⟨hpast, hahead⟩ := hleads
  simp only at hpast hahead
  subst hpast hahead
  exact take_of_accepts h past ahead'

theorem take_of_not_accepts {what : TokenClass} {tape : Tape} {token : Token}
    (hnext : tape.next? = some token) (h : what.accepts token = false) :
    what.take tape = (.error (.unexpected token), tape) := by
  simp [take, ParseM.peek_of_next? hnext, h]

theorem take_of_fault (what : TokenClass) (past : List Token) (fault : LexError)
    (rest : List Item) :
    what.take (⟨past, .error fault :: rest⟩ : Tape) = (.error (.lex fault), ⟨past, rest⟩) := rfl

end TokenClass

end ParseKit
