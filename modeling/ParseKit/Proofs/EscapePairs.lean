import Mathlib
import ParseKit.Proofs.WrittenLine

/-! Escape pairs, read from left to right. A text between quotes is cut into pairs and plain
characters; the decoder and the search for the closing quote both follow this one cut. Main
statements: `Literal.resolve_eq`, resolving keeps one character of each piece, and
`Literal.closes_iff`, which quote closes a string. -/

namespace ParseKit

namespace Literal

def Escapes (d : Char) : Prop :=
  d = '"' ∨ d = '\\' ∨ d = 'n'

instance : DecidablePred Escapes :=
  fun d => inferInstanceAs (Decidable (d = '"' ∨ d = '\\' ∨ d = 'n'))

def Alone (c : Char) (rest : List Char) : Prop :=
  c = '\\' → ∀ d ∈ rest.head?, ¬ Escapes d

inductive Piece where
  /-- A backslash and the character after it. -/
  | pair (d : Char)
  | plain (c : Char)
  deriving DecidableEq, Repr

namespace Piece

def written : Piece → List Char
  | pair d => ['\\', d]
  | plain c => [c]

def meaning : Piece → Char
  | pair d => if d = 'n' then '\n' else d
  | plain c => c

end Piece

def pieces : List Char → List Piece
  | [] => []
  | [c] => [.plain c]
  | c :: d :: rest => if c = '\\' ∧ Escapes d then .pair d :: pieces rest else .plain c :: pieces (d :: rest)

def written (read : List Piece) : List Char :=
  read.flatMap Piece.written

@[simp] theorem written_nil : written [] = [] := rfl

@[simp] theorem written_pair (d : Char) (read : List Piece) :
    written (.pair d :: read) = '\\' :: d :: written read := rfl

@[simp] theorem written_plain (c : Char) (read : List Piece) :
    written (.plain c :: read) = c :: written read := rfl

@[simp] theorem written_append (first second : List Piece) :
    written (first ++ second) = written first ++ written second :=
  List.flatMap_append

@[simp] theorem pieces_nil : pieces [] = [] := rfl

theorem pieces_pair {d : Char} (h : Escapes d) (rest : List Char) :
    pieces ('\\' :: d :: rest) = .pair d :: pieces rest :=
  if_pos ⟨rfl, h⟩

theorem pieces_plain {c : Char} {rest : List Char} (h : Alone c rest) :
    pieces (c :: rest) = .plain c :: pieces rest := by
  cases rest with
  | nil => rfl
  | cons d rest => exact if_neg fun hpair => h hpair.1 d rfl hpair.2

theorem pieces_induction {motive : List Char → Prop} (nil : motive [])
    (pair : ∀ d rest, Escapes d → motive rest → motive ('\\' :: d :: rest))
    (plain : ∀ c rest, Alone c rest → motive rest → motive (c :: rest)) (text : List Char) :
    motive text := by
  fun_induction pieces text with
  | case1 => exact nil
  | case2 c => exact plain c [] (fun _ d hd => by cases hd) nil
  | case3 c d rest hpair ih =>
    obtain ⟨rfl, hd⟩ := hpair
    exact pair d rest hd ih
  | case4 c d rest hplain ih =>
    refine plain c (d :: rest) (fun hc e he => ?_) ih
    obtain rfl : d = e := by simpa using he
    exact fun hd => hplain ⟨hc, hd⟩

@[simp] theorem written_pieces (text : List Char) : written (pieces text) = text := by
  induction text using pieces_induction with
  | nil => rfl
  | pair d rest hd ih => rw [pieces_pair hd, written_pair, ih]
  | plain c rest hc ih => rw [pieces_plain hc, written_plain, ih]

theorem resolve_plain {c : Char} {rest : List Char} (h : Alone c rest) :
    resolve (c :: rest) = c :: resolve rest := by
  rw [resolve] <;>
  · rintro others hc rfl
    exact h hc _ rfl (by decide)

/-- The decoder resolves the pairs of the cut, and keeps all other characters. -/
theorem resolve_eq (text : List Char) : resolve text = (pieces text).map Piece.meaning := by
  induction text using pieces_induction with
  | nil => rfl
  | pair d rest hd ih =>
    rw [pieces_pair hd, List.map_cons, ← ih]
    rcases hd with rfl | rfl | rfl <;> rfl
  | plain c rest hc ih =>
    rw [pieces_plain hc, List.map_cons, ← ih, resolve_plain hc]
    rfl

/-- The pieces in front of a cut stay as they are when something else comes after them, unless its
first character is new there. -/
theorem pieces_append {text : List Char} {before after : List Piece} (h : pieces text = before ++ after)
    (tail : List Char) (htail : ∀ d ∈ tail.head?, (written after).head? = some d) :
    pieces (written before ++ tail) = before ++ pieces tail := by
  induction text using pieces_induction generalizing before with
  | nil =>
    obtain ⟨rfl, -⟩ := List.append_eq_nil_iff.1 h.symm
    rfl
  | pair d rest hd ih =>
    rw [pieces_pair hd] at h
    cases before with
    | nil => rfl
    | cons piece before =>
      obtain ⟨rfl, hrest⟩ := List.cons.inj h
      rw [written_pair, List.cons_append, List.cons_append, pieces_pair hd, ih hrest, List.cons_append]
  | plain c rest hc ih =>
    rw [pieces_plain hc] at h
    cases before with
    | nil => rfl
    | cons piece before =>
      obtain ⟨rfl, (hrest : pieces rest = before ++ after)⟩ := List.cons.inj h
      have hwritten : rest = written before ++ written after := by
        rw [← written_append, ← hrest, written_pieces]
      have halone : Alone c (written before ++ tail) := by
        intro hbackslash d hd
        refine hc hbackslash d ?_
        rw [hwritten]
        cases hfirst : written before with
        | nil =>
          rw [hfirst] at hd
          exact htail d hd
        | cons e others =>
          rw [hfirst] at hd
          exact hd
      rw [written_plain, List.cons_append, pieces_plain halone, ih hrest, List.cons_append]

section Closing

theorem close?_plain {c : Char} {rest : List Char} (hquote : c ≠ '"') (h : Alone c rest) :
    close? (c :: rest) = (close? rest).map fun (body, after) => (c :: body, after) := by
  rw [close?]
  · exact hquote
  all_goals
    rintro others hc rfl
    exact h hc _ rfl (by decide)

theorem close?_pair {d : Char} (h : Escapes d) (hquote : d ≠ '"') (rest : List Char) :
    close? ('\\' :: d :: rest) = (close? rest).map fun (body, after) => ('\\' :: d :: body, after) := by
  rcases h with rfl | rfl | rfl
  · exact absurd rfl hquote
  · rfl
  · rw [close?, close?_cons_of_ne (by decide) (by decide), Option.map_map]
    · rfl
    · decide
    · rintro others - hother
      cases hother
    · rintro others - hother
      cases hother

/-- A pair with a quote is passed over if the string is closed after it, and closes it otherwise. -/
theorem close?_pair_quote (rest : List Char) : close? ('\\' :: '"' :: rest) =
    some (((close? rest).map fun (body, after) => ('\\' :: '"' :: body, after)).getD (['\\'], rest)) := by
  rw [close?]
  cases close? rest <;> rfl

variable {text : List Char} {before after : List Piece}

theorem quote_mem_written_iff {read : List Piece} :
    '"' ∈ written read ↔ .plain '"' ∈ read ∨ .pair '"' ∈ read := by
  constructor
  · intro h
    obtain ⟨piece, hpiece, hquote⟩ := List.mem_flatMap.1 h
    cases piece with
    | pair d =>
      obtain rfl : '"' = d := by simpa [Piece.written] using hquote
      exact .inr hpiece
    | plain c =>
      obtain rfl : '"' = c := by simpa [Piece.written] using hquote
      exact .inl hpiece
  · intro h
    rcases h with h | h <;> exact List.mem_flatMap.2 ⟨_, h, by simp [Piece.written]⟩

theorem quote_mem_iff : '"' ∈ text ↔ .plain '"' ∈ pieces text ∨ .pair '"' ∈ pieces text := by
  rw [← quote_mem_written_iff, written_pieces]

theorem close?_of_plain (h : pieces text = before ++ .plain '"' :: after) (hfirst : .plain '"' ∉ before) :
    close? text = some (written before, written after) := by
  induction text using pieces_induction generalizing before with
  | nil => simp at h
  | pair d rest hd ih =>
    rw [pieces_pair hd] at h
    cases before with
    | nil => cases h
    | cons piece before =>
      obtain ⟨rfl, hrest⟩ := List.cons.inj h
      have hclosed := ih hrest fun hmem => hfirst (List.mem_cons_of_mem _ hmem)
      by_cases hquote : d = '"'
      · subst hquote
        simp [close?_pair_quote, hclosed]
      · simp [close?_pair hd hquote, hclosed]
  | plain c rest hc ih =>
    rw [pieces_plain hc] at h
    cases before with
    | nil =>
      obtain ⟨hquote, rfl⟩ := List.cons.inj h
      obtain rfl := Piece.plain.inj hquote
      simp [close?]
    | cons piece before =>
      obtain ⟨rfl, hrest⟩ := List.cons.inj h
      have hquote : c ≠ '"' := by
        rintro rfl
        exact hfirst List.mem_cons_self
      have hclosed := ih hrest fun hmem => hfirst (List.mem_cons_of_mem _ hmem)
      simp [close?_plain hquote hc, hclosed]

/-- Where each quote is in a pair, the last of them closes a string. -/
theorem close?_of_pair (h : pieces text = before ++ .pair '"' :: after) (hplain : .plain '"' ∉ pieces text)
    (hlast : .pair '"' ∉ after) : close? text = some (written before ++ ['\\'], written after) := by
  induction text using pieces_induction generalizing before with
  | nil => simp at h
  | pair d rest hd ih =>
    rw [pieces_pair hd] at h hplain
    have hrestPlain : .plain '"' ∉ pieces rest := fun hmem => hplain (List.mem_cons_of_mem _ hmem)
    cases before with
    | nil =>
      obtain ⟨hquote, rfl⟩ := List.cons.inj h
      obtain rfl := Piece.pair.inj hquote
      have hnone : close? rest = none := close?_eq_none (by simp [quote_mem_iff, hrestPlain, hlast])
      simp [close?_pair_quote, hnone]
    | cons piece before =>
      obtain ⟨rfl, hrest⟩ := List.cons.inj h
      have hclosed := ih hrest hrestPlain
      by_cases hquote : d = '"'
      · subst hquote
        simp [close?_pair_quote, hclosed]
      · simp [close?_pair hd hquote, hclosed]
  | plain c rest hc ih =>
    rw [pieces_plain hc] at h hplain
    obtain ⟨hquote, hrestPlain⟩ := not_or.1 (mt List.mem_cons.2 hplain)
    cases before with
    | nil => cases h
    | cons piece before =>
      obtain ⟨rfl, hrest⟩ := List.cons.inj h
      have hne : c ≠ '"' := by
        rintro rfl
        exact hquote rfl
      simp [close?_plain hne hc, ih hrest hrestPlain]

end Closing

/-- How a string is closed: the text of the string, and what comes after the closing quote. -/
inductive Closes (text : List Char) : List Char → List Char → Prop
  /-- By the first quote that is in no pair. -/
  | plain {before after : List Piece} (hcut : pieces text = before ++ .plain '"' :: after)
      (hfirst : .plain '"' ∉ before) : Closes text (before.map Piece.meaning) (written after)
  /-- By the last quote where each is in a pair. Its backslash then belongs to the string. -/
  | pair {before after : List Piece} (hcut : pieces text = before ++ .pair '"' :: after)
      (hplain : .plain '"' ∉ pieces text) (hlast : .pair '"' ∉ after) :
      Closes text (before.map Piece.meaning ++ ['\\']) (written after)

theorem Closes.close?_eq {text content after : List Char} (h : Closes text content after) :
    ∃ body, close? text = some (body, after) ∧ resolve body = content := by
  cases h with
  | @plain before _ hcut hfirst =>
    refine ⟨_, close?_of_plain hcut hfirst, ?_⟩
    have hpieces : pieces (written before) = before := by simpa using pieces_append hcut [] (by simp)
    rw [resolve_eq, hpieces]
  | pair hcut hplain hlast =>
    refine ⟨_, close?_of_pair hcut hplain hlast, ?_⟩
    have hpieces := pieces_append hcut ['\\'] (by simp)
    rw [resolve_eq, hpieces, List.map_append]
    rfl

theorem exists_closes {text : List Char} (h : '"' ∈ text) : ∃ content after, Closes text content after := by
  by_cases hplain : .plain '"' ∈ pieces text
  · obtain ⟨before, after, hcut, hfirst⟩ := List.eq_append_cons_of_mem hplain
    exact ⟨_, _, .plain hcut hfirst⟩
  · have hpair := (quote_mem_iff.1 h).resolve_left hplain
    obtain ⟨before, after, hcut, hlast⟩ := List.eq_append_cons_of_mem (List.mem_reverse.2 hpair)
    have hpieces : pieces text = after.reverse ++ .pair '"' :: before.reverse := by
      rw [← List.reverse_reverse (pieces text), hcut]
      simp
    exact ⟨_, _, .pair hpieces hplain (by simpa using hlast)⟩

theorem close?_eq_none_iff {text : List Char} : close? text = none ↔ '"' ∉ text := by
  refine ⟨fun hnone hquote => ?_, close?_eq_none⟩
  obtain ⟨content, after, hcloses⟩ := exists_closes hquote
  obtain ⟨body, hbody, -⟩ := hcloses.close?_eq
  rw [hnone] at hbody
  cases hbody

/-- The closing quote is the one that the scanner finds, and the decoder pairs as the scanner does. -/
theorem closes_iff {text content after : List Char} : Closes text content after ↔
    ∃ body, close? text = some (body, after) ∧ resolve body = content := by
  constructor
  · exact Closes.close?_eq
  · rintro ⟨body, hclose, rfl⟩
    have hquote : '"' ∈ text := by
      by_contra hnone
      rw [close?_eq_none_iff.2 hnone] at hclose
      cases hclose
    obtain ⟨content, rest, hcloses⟩ := exists_closes hquote
    obtain ⟨other, hother, rfl⟩ := hcloses.close?_eq
    rw [hclose] at hother
    cases hother
    exact hcloses

end Literal

end ParseKit
