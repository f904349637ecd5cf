import ParseKit.Proofs.LexerTape
import ParseKit.Proofs.Reading

/-! The tokens of a source: what lines scan to, as many as the bound of the lexer at most, and what
is left when a lexer is drained. Main statement: `tokenize_eq`, all tokens are those of the lines if
no line is at fault. -/

namespace ParseKit

namespace Source

/-- The tokens of a line are as many as its characters at most, and an end-of-line token. -/
theorem lineTokens_spec {chars : List Char} {lexemes : List Lexeme} (h : Scan.lexemes chars = .ok lexemes)
    (options : LexerOptions) (line : Nat) :
    (∀ token ∈ lineTokens options line lexemes, token.Scannable ∧ token ≠ .endOfInput) ∧
      (lineTokens options line lexemes).length ≤ Lexer.lineBound (.text chars) := by
  obtain ⟨hscannable, hlength⟩ := Scan.scannable_of_lexemes h
  refine ⟨fun token hmem => ?_, ?_⟩
  · obtain ⟨lexeme, hlexeme, rfl⟩ := List.mem_map.1 hmem
    refine ⟨?_, by simp⟩
    rcases List.mem_append.1 hlexeme with hscanned | hmarker
    · exact .inl (hscannable lexeme hscanned)
    · refine .inr ?_
      split at hmarker
      · exact List.mem_singleton.1 hmarker
      · cases hmarker
  · rw [lineTokens, List.length_map, List.length_append, Lexer.lineBound]
    split <;> simp <;> omega

theorem items_spec (options : LexerOptions) (line : Nat) (source : Source) :
    (∀ token ∈ Item.tokens (source.items options line), token.Scannable ∧ token ≠ .endOfInput) ∧
      (Item.tokens (source.items options line)).length ≤ Lexer.sourceBound source := by
  induction source generalizing line with
  | nil => simp [items, Item.tokens]
  | cons physical rest ih =>
    cases physical with
    | undecodable => simp [items, Item.tokens]
    | text chars =>
      rw [items]
      cases hlexemes : Scan.lexemes chars with
      | error fault => simp [Item.tokens]
      | ok lexemes =>
        obtain ⟨htokens, hlength⟩ := lineTokens_spec hlexemes options (line + 1)
        obtain ⟨hrest, hlengthRest⟩ := ih (line + 1)
        simp only [Item.tokens_map_ok_append, List.length_append, Lexer.sourceBound]
        refine ⟨fun token hmem => ?_, Nat.add_le_add hlength hlengthRest⟩
        exact (List.mem_append.1 hmem).elim (htokens token) (hrest token)

end Source

namespace Lexer

variable {marks : List Checkpoint} {lexer : Lexer} {tape : Tape}

theorem length_reach_le_unread (lexer : Lexer) : lexer.reach.length ≤ lexer.unread := by
  have hpending := (lexer.pending.items_spec lexer.options lexer.lineNumber).2
  simp only [reach, ahead, Item.tokens_map_ok_append, List.length_append, List.length_drop,
    Array.length_toList]
  exact Nat.add_le_add_left hpending _

theorem Shows.drain (h : Shows marks lexer tape) (hend : .endOfInput ∉ tape.reach) {bound : Nat}
    (hbound : tape.reach.length < bound) :
    (lexer.drain bound).1 = tape.reach ∧ (lexer.drain bound).2.1 = tape.fault? := by
  induction bound generalizing lexer tape with
  | zero => cases hbound
  | succ bound ih =>
    obtain ⟨hresult, hstate⟩ := h.read
    rcases hread : lexer.read with ⟨result, lexer'⟩
    rw [hread] at hresult hstate
    rw [Lexer.drain, next?_eq, hread]
    rcases tape with ⟨past, _ | ⟨fault | token, rest⟩⟩
    · cases hresult
      exact ⟨rfl, rfl⟩
    · cases hresult
      exact ⟨rfl, rfl⟩
    · cases hresult
      cases token with
      | endOfInput => exact absurd (List.mem_cons_self ..) hend
      | scanned line lexeme =>
        have hlater : .endOfInput ∉ (⟨past ++ [.scanned line lexeme], rest⟩ : Tape).reach :=
          fun hmem => hend (List.mem_cons_of_mem _ hmem)
        obtain ⟨htokens, hfault⟩ := ih hstate hlater (Nat.lt_of_succ_lt_succ hbound)
        exact ⟨congrArg (Token.scanned line lexeme :: ·) htokens, hfault⟩

end Lexer

/-- The tokens of a source are those of its lines, if no line is at fault. -/
theorem tokenize_eq (source : Source) (options : LexerOptions) : tokenize source options =
    match source.fault? with
    | none => .ok (source.tokens options)
    | some fault => .error fault := by
  obtain ⟨htokens, hlength⟩ := source.items_spec options 0
  have hunread : (Lexer.ofSource source options).unread = Lexer.sourceBound source := by
    show 0 + Lexer.sourceBound source = Lexer.sourceBound source
    exact Nat.zero_add _
  have hend : .endOfInput ∉ (⟨[], source.items options 0⟩ : Tape).reach := fun hmem => (htokens _ hmem).2 rfl
  obtain ⟨hdrained, hfault⟩ := (Lexer.Shows.ofSource source options).drain hend (Nat.lt_succ_of_le hlength)
  rw [tokenize, Lexer.rest, hunread, Source.fault?, Source.fault?_items {} options]
  rcases hrun : (Lexer.ofSource source options).drain (Lexer.sourceBound source + 1) with ⟨us, fault?, lexer⟩
  rw [hrun] at hdrained hfault
  obtain rfl : us = source.tokens options := hdrained
  obtain rfl : fault? = Item.fault? (source.items options 0) := hfault
  cases Item.fault? (source.items options 0) <;> rfl

theorem tokenize_eq_ok {source : Source} {options : LexerOptions} {tokens : List Token}
    (h : tokenize source options = .ok tokens) : source.items options 0 = tokens.map .ok := by
  rw [tokenize_eq] at h
  cases hfault : source.fault? with
  | some fault =>
    rw [hfault] at h
    cases h
  | none =>
    rw [hfault] at h
    cases h
    rw [Source.fault?, Source.fault?_items {} options] at hfault
    exact Item.eq_map_ok_of_fault?_eq_none hfault

end ParseKit
