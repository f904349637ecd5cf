import ParseKit.Proofs.SourceTokens
import ParseKit.Proofs.WrittenLine

/-! Sources that are written line by line. Main statement: `Source.tokens_ofChars_writeLines`, the
tokens of such a source are the lexemes that were written, each on its line. -/

namespace ParseKit

namespace Source

section Cut

variable {α : Type} [DecidableEq α] {lf cr : α}

theorem cut_append {line : List α} (h : lf ∉ line) (reversed rest : List α) :
    cut lf cr reversed (line ++ lf :: rest) =
      unterminate cr (line.reverse ++ reversed) :: cut lf cr [] rest := by
  induction line generalizing reversed with
  | nil => simp [cut]
  | cons a line ih =>
    obtain ⟨ha, hline⟩ := not_or.1 (mt List.mem_cons.2 h)
    rw [List.cons_append, cut, if_neg (Ne.symm ha), ih hline]
    simp

theorem unterminate_reverse {line : List α} (h : line.getLast? ≠ some cr) :
    unterminate cr line.reverse = line := by
  rw [← List.head?_reverse] at h
  cases hreverse : line.reverse with
  | nil => rw [List.reverse_eq_nil_iff.1 hreverse]; rfl
  | cons a before =>
    have ha : a ≠ cr := by
      rintro rfl
      exact h (by rw [hreverse]; rfl)
    rw [unterminate, if_neg ha, ← hreverse, List.reverse_reverse]

end Cut

open Scan

theorem ofChars_lines {lines : List (List Char)} (h : ∀ line ∈ lines, FitsLine line) :
    ofChars (lines.flatMap (· ++ ['\n'])) = lines.map .text := by
  induction lines with
  | nil => rfl
  | cons line lines ih =>
    obtain ⟨hline, hlines⟩ := List.forall_mem_cons.1 h
    have hcut : cut '\n' '\r' [] (line ++ '\n' :: lines.flatMap (· ++ ['\n'])) =
        line :: cut '\n' '\r' [] (lines.flatMap (· ++ ['\n'])) := by
      rw [cut_append hline.newline, List.append_nil, unterminate_reverse hline.last]
    rw [ofChars] at ih ⊢
    rw [List.flatMap_cons, List.append_assoc, List.singleton_append, hcut, List.map_cons, ih hlines,
      List.map_cons]

def writeLines (lines : List (List Lexeme)) : List Char :=
  (lines.map writeLine).flatMap (· ++ ['\n'])

def linesTokens (options : LexerOptions) (line : Nat) : List (List Lexeme) → List Token
  | [] => []
  | lexemes :: rest => lineTokens options (line + 1) lexemes ++ linesTokens options (line + 1) rest

variable {lines : List (List Lexeme)} (h : ∀ lexemes ∈ lines, Writable lexemes)
include h

theorem ofChars_writeLines : ofChars (writeLines lines) = lines.map fun lexemes => .text (writeLine lexemes) := by
  have hfits : ∀ line ∈ lines.map writeLine, FitsLine line := by
    intro line hmem
    obtain ⟨lexemes, hlexemes, rfl⟩ := List.mem_map.1 hmem
    exact FitsLine.writeLine (h lexemes hlexemes).scannable
  rw [writeLines, ofChars_lines hfits, List.map_map]
  rfl

theorem items_writeLines (options : LexerOptions) (line : Nat) :
    items options line (lines.map fun lexemes => .text (writeLine lexemes)) =
      (linesTokens options line lines).map .ok := by
  induction lines generalizing line with
  | nil => rfl
  | cons lexemes lines ih =>
    obtain ⟨hlexemes, hlines⟩ := List.forall_mem_cons.1 h
    simp only [List.map_cons, items, lexemes_writeLine hlexemes, ih hlines, linesTokens, List.map_append]

/-- The tokens of a source that was written are the lexemes that were written. -/
theorem tokens_ofChars_writeLines (options : LexerOptions) :
    (ofChars (writeLines lines)).tokens options = linesTokens options 0 lines := by
  have htokens := Item.tokens_map_ok_append (linesTokens options 0 lines) []
  rw [List.append_nil] at htokens
  rw [tokens, ofChars_writeLines h, items_writeLines h, htokens]
  exact List.append_nil _

theorem fault?_ofChars_writeLines : (ofChars (writeLines lines)).fault? = none := by
  have hfault := Item.fault?_map_ok_append (linesTokens {} 0 lines) []
  rw [List.append_nil] at hfault
  rw [fault?, ofChars_writeLines h, items_writeLines h, hfault]
  rfl

end Source

end ParseKit
