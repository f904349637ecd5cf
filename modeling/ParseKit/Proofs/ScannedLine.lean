import ParseKit.Scan

/-! What a line can scan to. Identifiers and operators are spelled with different first characters,
so no word of a grammar is spelled like its punctuation. -/

namespace ParseKit

def Scan.pairs : List String := ["==", "<=", ">=", "&&", "||"]

/-- What the scanner can give: numbers that fit, names that are names, and known operators. -/
def Lexeme.Scannable : Lexeme → Prop
  | .number value => 0 ≤ value ∧ value ≤ Scan.maxNumber
  | .string _ => True
  | .identifier name =>
    ∃ c rest, name = String.ofList (c :: rest) ∧ Scan.isNameStart c ∧ rest.all Scan.isNamePart
  | .operator symbol =>
    symbol ∈ Scan.pairs ∨ ∃ c, symbol = c.toString ∧ Scan.isPunctuation c
  | .endOfLine => False

namespace Scan

theorem scannable_numberFront {digits : List Char} {lexeme : Lexeme}
    (h : numberFront digits = .lexeme lexeme) : lexeme.Scannable := by
  simp only [numberFront] at h
  split at h
  · next hle =>
    cases h
    exact ⟨Int.natCast_nonneg _, Int.ofNat_le.2 hle⟩
  · cases h

theorem scannable_operatorFront {c : Char} {lexeme : Lexeme}
    (h : operatorFront c = .lexeme lexeme) : lexeme.Scannable := by
  simp only [operatorFront] at h
  split at h
  · next hc =>
    cases h
    exact .inr ⟨c, rfl, hc⟩
  · cases h

theorem mem_pairs_of_isPair {c d : Char} (h : isPair c d = true) : String.ofList [c, d] ∈ pairs := by
  unfold isPair at h
  split at h <;> first | decide | cases h

theorem scannable_front {c : Char} {text rest : List Char} {lexeme : Lexeme}
    (h : front c text = (.lexeme lexeme, rest)) : lexeme.Scannable := by
  unfold front at h
  split at h
  · cases h
  split at h
  · exact scannable_numberFront (congrArg Prod.fst h)
  split at h
  · split at h
    · cases h; trivial
    · exact scannable_operatorFront (congrArg Prod.fst h)
  split at h
  · next hc =>
    cases h
    exact ⟨c, _, rfl, hc, List.all_takeWhile⟩
  split at h
  · split at h
    · next hpair =>
      cases h
      exact .inl (mem_pairs_of_isPair hpair)
    · exact scannable_operatorFront (congrArg Prod.fst h)
  · exact scannable_operatorFront (congrArg Prod.fst h)

theorem scannable_of_lexemesFrom {size : Nat} {text : List Char} {lexemes : List Lexeme}
    (h : lexemesFrom size text = .ok lexemes) :
    (∀ lexeme ∈ lexemes, lexeme.Scannable) ∧ lexemes.length ≤ text.length := by
  fun_induction lexemesFrom size text generalizing lexemes with
  | case1 => cases h; simp
  | case2 text c rest htext after hfront ih =>
    have hlt := length_after_lt htext hfront
    exact ⟨(ih h).1, Nat.le_trans (ih h).2 (Nat.le_of_lt hlt)⟩
  | case3 text c rest htext lexeme after hfront ih =>
    have hlt := length_after_lt htext hfront
    cases hrest : lexemesFrom size after with
    | error fault => rw [hrest] at h; cases h
    | ok others =>
      rw [hrest] at h
      cases h
      obtain ⟨hothers, hlength⟩ := ih hrest
      refine ⟨?_, Nat.succ_le_of_lt (Nat.lt_of_le_of_lt hlength hlt)⟩
      rintro other (_ | ⟨_, hmem⟩)
      · exact scannable_front hfront
      · exact hothers other hmem
  | case4 => cases h
  | case5 => cases h

theorem scannable_of_lexemes {line : List Char} {lexemes : List Lexeme}
    (h : Scan.lexemes line = .ok lexemes) :
    (∀ lexeme ∈ lexemes, lexeme.Scannable) ∧ lexemes.length ≤ line.length :=
  scannable_of_lexemesFrom h

end Scan

end ParseKit
