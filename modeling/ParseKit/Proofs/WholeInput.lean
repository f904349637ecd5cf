import ParseKit.Proofs.Halting
import ParseKit.Proofs.PredictiveParsing
import ParseKit.Proofs.SourceTokens

/-! Parsing a whole input with a predictive grammar. The input is cut into phrases of one rule, or
the parse fails at the first token after which no phrases could follow, or at the first line that
gives no tokens, or at the end of the input, whichever comes first. Main statements:
`Grammar.Predictive.parseAll_verdict` and `Grammar.Predictive.parseAll_eq_ok_iff`. -/

namespace ParseKit

/-- Phrases of one form, one after the other, with a node for each. -/
inductive Phrases (D : List Token → Node → Prop) : List Token → List Node → Prop
  | nil : Phrases D [] []
  | cons {us vs : List Token} {node : Node} {nodes : List Node} (h : D us node)
    (hrest : Phrases D vs nodes) : Phrases D (us ++ vs) (node :: nodes)

/-- The tokens are the beginning of some phrases. -/
def Viable (D : List Token → Node → Prop) (us : List Token) : Prop :=
  ∃ vs nodes, Phrases D (us ++ vs) nodes

theorem Phrases.viable {D : List Token → Node → Prop} {us : List Token} {nodes : List Node}
    (h : Phrases D us nodes) : Viable D us :=
  ⟨[], nodes, by rwa [List.append_nil]⟩

theorem Viable.of_append {D : List Token → Node → Prop} {us vs : List Token} (h : Viable D (us ++ vs)) :
    Viable D us :=
  let ⟨ws, nodes, hphrases⟩ := h
  ⟨vs ++ ws, nodes, by rwa [← List.append_assoc]⟩

theorem Viable.take {D : List Token → Node → Prop} {us : List Token} (h : Viable D us) (n : Nat) :
    Viable D (us.take n) :=
  Viable.of_append (by rwa [List.take_append_drop])

/-- What a parse of all tokens should give, when they end at the given fault or at the end of the
input. -/
inductive Verdict (D : List Token → Node → Prop) (tokens : List Token) (fault? : Option LexError) :
    Except ParseError (List Node) → Prop
  | accepted {nodes : List Node} (hphrases : Phrases D tokens nodes) (hfault : fault? = none) :
    Verdict D tokens fault? (.ok nodes)
  | unexpected {us vs : List Token} {token : Token} (heq : tokens = us ++ token :: vs)
    (hviable : Viable D us) (hnot : ¬ Viable D (us ++ [token])) :
    Verdict D tokens fault? (.error (.unexpected token))
  | faulted {fault : LexError} (hviable : Viable D tokens) (hfault : fault? = some fault) :
    Verdict D tokens fault? (.error (.lex fault))
  | incomplete (hviable : Viable D tokens) (hfault : fault? = none)
    (hnot : ∀ nodes, ¬ Phrases D tokens nodes) :
    Verdict D tokens fault? (.error (.unexpected .endOfInput))

theorem viable_of_forall_take {D : List Token → Node → Prop} {us : List Token}
    (h : ∀ i < us.length, Viable D (us.take (i + 1))) : Viable D us := by
  rcases Nat.eq_zero_or_pos us.length with hzero | hpos
  · rw [List.length_eq_zero_iff.1 hzero]
    exact Phrases.nil.viable
  · have hlast := h (us.length - 1) (by omega)
    rwa [Nat.sub_add_cancel hpos, List.take_length] at hlast

namespace Verdict

variable {D : List Token → Node → Prop} {tokens : List Token} {fault? : Option LexError}
  {result : Except ParseError (List Node)}

theorem eq_unexpected (h : Verdict D tokens fault? result) {i : Nat} (hi : i < tokens.length)
    (hnot : ¬ Viable D (tokens.take (i + 1))) (hbefore : ∀ j < i, Viable D (tokens.take (j + 1))) :
    result = .error (.unexpected tokens[i]) := by
  have hwhole : ¬ Viable D tokens := fun hviable => hnot (hviable.take (i + 1))
  cases h with
  | accepted hphrases => exact absurd hphrases.viable hwhole
  | faulted hviable | incomplete hviable => exact absurd hviable hwhole
  | @unexpected us vs token heq hviable hoffends =>
    subst heq
    have htake : (us ++ token :: vs).take (us.length + 1) = us ++ [token] := by
      simp [List.take_append]
    rcases Nat.lt_trichotomy us.length i with hlt | heq | hgt
    · exact absurd (htake ▸ hbefore us.length hlt) hoffends
    · subst heq
      simp
    · refine absurd ?_ hnot
      rw [List.take_append_of_le_length hgt]
      exact hviable.take (i + 1)

theorem eq_lex (h : Verdict D tokens fault? result) (hviable : Viable D tokens) {fault : LexError}
    (hfault : fault? = some fault) : result = .error (.lex fault) := by
  cases h with
  | accepted _ hnone | incomplete _ hnone => cases hnone.symm.trans hfault
  | unexpected heq _ hoffends => exact absurd (Viable.of_append (by simpa [heq] using hviable)) hoffends
  | faulted _ hsome =>
    cases hsome.symm.trans hfault
    rfl

theorem eq_incomplete (h : Verdict D tokens fault? result) (hviable : Viable D tokens)
    (hfault : fault? = none) (hnot : ∀ nodes, ¬ Phrases D tokens nodes) :
    result = .error (.unexpected .endOfInput) := by
  cases h with
  | accepted hphrases => exact absurd hphrases (hnot _)
  | unexpected heq _ hoffends => exact absurd (Viable.of_append (by simpa [heq] using hviable)) hoffends
  | faulted _ hsome => cases hsome.symm.trans hfault
  | incomplete => rfl

end Verdict

namespace Grammar

variable {g : Grammar} {D : List Token → Node → Prop} {bound : Nat} {id : RuleId}

section Rounds

theorem peeks_isEndOfInput : Peeks (return (← ParseM.peek 0).isEndOfInput) Token.isEndOfInput where
  next h := by rw [ParseM.bind_of_ok (ParseM.peek_of_next? h)]; rfl
  fault {tape fault rest} h := by
    obtain ⟨past, ahead⟩ := tape
    cases h
    rfl

theorem round_of_moves {p : ParseM Tape Node} (hmoves : ParseM.Walks False p)
    (rest : ParseM Tape (List Node)) : round p rest =
      (return (← ParseM.peek 0).isEndOfInput) >>= fun b => if b then pure [] else
        p >>= fun node => rest >>= fun nodes => pure (node :: nodes) := by
  rw [round, bind_assoc]
  refine congrArg (ParseM.peek 0 >>= ·) (funext fun token => ?_)
  rw [pure_bind]
  cases token.isEndOfInput with
  | true => rfl
  | false =>
    simp only [Bool.false_eq_true, ↓reduceIte]
    funext tape
    rw [ParseM.bind_of_ok (ParseM.run_cursor tape)]
    rcases hparse : p tape with ⟨error | node, tape'⟩
    · rw [ParseM.bind_of_error hparse, ParseM.bind_of_error hparse]
    · rw [ParseM.bind_of_ok hparse, ParseM.bind_of_ok hparse,
        ParseM.bind_of_ok (ParseM.run_cursor tape'), hmoves.cursor_ne hparse]
      rfl

variable (hmoves : ParseM.Walks False (g.parseBounded bound id))
include hmoves

theorem parseUpTo_succ (limit : Nat) : (g.parseUpTo bound id (limit + 1) : ParseM Tape (List Node)) =
    (return (← ParseM.peek 0).isEndOfInput) >>= fun b => if b then pure [] else
      g.parseBounded bound id >>= fun node => g.parseUpTo bound id limit >>= fun nodes =>
        pure (node :: nodes) :=
  round_of_moves hmoves (g.parseUpTo bound id limit)

theorem parseUpTo_reads (hreads : Reads D (g.parseBounded bound id)) (limit : Nat) :
    Reads (Phrases D) (g.parseUpTo bound id limit) := by
  have hinhabited : ∃ us nodes, Phrases D us nodes := ⟨[], [], .nil⟩
  induction limit with
  | zero => exact Reads.exhausted hinhabited
  | succ limit ih =>
    rw [parseUpTo_succ hmoves]
    refine Reads.guard peeks_isEndOfInput hinhabited ?_ ?_
    · intro tape token hclean _ _
      refine (Reads.pure []).outcome tape hclean |>.mono ?_
      rintro us nodes ⟨rfl, rfl⟩
      exact .nil
    · intro tape token hclean _ _
      refine (hreads.bind fun node => ih.bind fun nodes =>
        Reads.pure (node :: nodes)).outcome tape hclean |>.mono ?_
      rintro ws nodes ⟨us, _, node, rfl, hD, vs, _, others, rfl, hothers, rfl, rfl⟩
      rw [List.append_nil]
      exact .cons hD hothers

theorem next?_of_parseUpTo {limit : Nat} {tape tape' : Tape} {nodes : List Node}
    (h : g.parseUpTo bound id limit tape = (.ok nodes, tape')) : tape'.next? = some .endOfInput := by
  induction limit generalizing tape nodes with
  | zero => cases h
  | succ limit ih =>
    rw [parseUpTo_succ hmoves] at h
    obtain ⟨b, tape₁, hpeek, h⟩ := ParseM.bind_eq_ok.1 h
    rcases hnext : tape.next? with _ | token
    · obtain ⟨fault, rest, hahead⟩ := Tape.next?_eq_none_iff.1 hnext
      have hresult := peeks_isEndOfInput.fault hahead
      rw [hpeek] at hresult
      cases hresult
    rw [peeks_isEndOfInput.next hnext] at hpeek
    cases hpeek
    cases hend : token.isEndOfInput with
    | true =>
      rw [Token.isEndOfInput_iff] at hend
      rw [hend] at h
      cases h
      rw [hnext, hend]
    | false =>
      rw [hend] at h
      obtain ⟨node, tape₁, _, h⟩ := ParseM.bind_eq_ok.1 h
      obtain ⟨others, tape₂, hrest, h⟩ := ParseM.bind_eq_ok.1 h
      cases h
      exact ih hrest

theorem parseUpTo_gives {continues : Token → Bool} (haccepts : Accepts D continues (g.parseBounded bound id))
    {classes : List TokenClass} (hbegins : ∀ {us node}, D us node → Begins classes us)
    (hapart : ∀ token : Token, token.Scannable → token.isIn classes = true → continues token = false)
    (hend : continues .endOfInput = false) (limit : Nat) {us : List Token} {nodes : List Node}
    (h : Phrases D us nodes) {tape tape' : Tape} (hleads : tape.Leads us tape')
    (hlast : tape'.next? = some .endOfInput) :
    Gives (g.parseUpTo bound id limit) tape nodes tape' := by
  induction h generalizing limit tape with
  | nil =>
    obtain rfl := hleads.eq_of_nil
    cases limit with
    | zero => exact .inr rfl
    | succ limit =>
      rw [Gives, parseUpTo_succ hmoves, ParseM.bind_of_ok (peeks_isEndOfInput.next hlast)]
      exact .inl rfl
  | @cons us vs node nodes hphrase hrest ih =>
    cases limit with
    | zero => exact .inr rfl
    | succ limit =>
      obtain ⟨tape₁, hleads₁, hleads₂⟩ := hleads.split
      have hrun : Gives (g.parseBounded bound id) tape node tape₁ := by
        cases hrest with
        | nil => exact haccepts hphrase hleads₁ (hleads₂.eq_of_nil ▸ hlast) hend
        | cons hphrase' _ =>
          obtain ⟨token, _, rfl, hscannable, hin⟩ := hbegins hphrase'
          exact haccepts hphrase hleads₁ hleads₂.next? (hapart token hscannable hin)
      obtain ⟨token, us, rfl, hscannable, hin⟩ := hbegins hphrase
      have hnot : token.isEndOfInput = false := by
        cases token with
        | scanned => rfl
        | endOfInput => simp at hin
      rw [Gives, parseUpTo_succ hmoves, ParseM.bind_of_ok (peeks_isEndOfInput.next hleads₁.next?), hnot]
      exact hrun.bind ((ih limit hleads₂).bind (.pure _ tape'))

end Rounds

end Grammar

namespace Tape

theorem ahead_eq_nil {tape : Tape} (hnext : tape.next? = some .endOfInput)
    (hend : .endOfInput ∉ tape.reach) : tape.ahead = [] := by
  rcases tape with ⟨past, _ | ⟨_ | token, rest⟩⟩ <;> cases hnext
  · rfl
  · simp [reach, Item.tokens] at hend

/-- A walk to the end of the input takes all tokens and meets no fault. -/
theorem Leads.reach_of_end {tape tape' : Tape} {us : List Token} (hleads : tape.Leads us tape')
    (hnext : tape'.next? = some .endOfInput) (hend : .endOfInput ∉ tape.reach) :
    tape.reach = us ∧ tape.fault? = none := by
  have hreach := hleads.reach
  have hahead : tape'.ahead = [] := ahead_eq_nil hnext fun hmem =>
    hend (by rw [hreach]; exact List.mem_append_right us hmem)
  rw [hreach, hleads.fault?, Tape.reach, Tape.fault?, hahead]
  exact ⟨List.append_nil us, rfl⟩

theorem Leads.reach_of_fault {tape tape' : Tape} {us : List Token} (hleads : tape.Leads us tape')
    {fault : LexError} {rest : List Item} (hahead : tape'.ahead = .error fault :: rest) :
    tape.reach = us ∧ tape.fault? = some fault := by
  rw [hleads.reach, hleads.fault?, Tape.reach, Tape.fault?, hahead]
  exact ⟨List.append_nil us, rfl⟩

end Tape

namespace Grammar.Predictive

variable {g : Grammar} {D : RuleId → List Token → Node → Prop} (hg : g.Predictive) (hD : g.Describes D)
  {id : RuleId} {rule : Rule} (hrule : g.rule id = .ok rule)
  (hapart : TokenClass.allApart (g.firsts id) (g.extensions id) = true)
include hg hD hrule hapart

theorem phrases_gives (bound limit : Nat) {us : List Token} {nodes : List Node}
    (h : Phrases (D id) us nodes) {tape tape' : Tape} (hleads : tape.Leads us tape')
    (hlast : tape'.next? = some .endOfInput) : Gives (g.parseUpTo bound id limit) tape nodes tape' :=
  parseUpTo_gives (hg.parseWithin_moves bound _ id) (hg.parseWithin_accepts hD hrule bound _)
    (hD.begins hg hrule) (fun _ hscannable hin => TokenClass.not_isIn_of_allApart hapart hscannable hin)
    Token.isIn_endOfInput limit h hleads hlast

/-- A token at which a parse fails whatever comes after it goes on with no phrases: if it did, a parse
of the tokens of these phrases would not have failed. -/
theorem not_viable_of_unexpected {bound limit : Nat} {us : List Token} {token : Token}
    (h : ∀ tape tape' : Tape, tape.Leads us tape' → tape'.next? = some token →
      (g.parseUpTo bound id limit tape).1 = .error (.unexpected token)) :
    ¬ Viable (D id) (us ++ [token]) := by
  rintro ⟨vs, nodes, hphrases⟩
  let whole : Tape := ⟨[], (us ++ [token] ++ vs).map .ok⟩
  let here : Tape := ⟨us, (token :: vs).map .ok⟩
  let done : Tape := ⟨us ++ [token] ++ vs, []⟩
  have hfails := h whole here ⟨rfl, by simp [whole, here]⟩ rfl
  have hleads : whole.Leads (us ++ [token] ++ vs) done := ⟨rfl, by simp [whole, done]⟩
  rcases hg.phrases_gives hD hrule hapart bound limit hphrases hleads rfl with hok | hexhausted
  · rw [hok] at hfails
    cases hfails
  · cases hexhausted.symm.trans hfails

theorem parseUpTo_verdict {bound limit : Nat} {tape : Tape} (hclean : tape.Clean)
    (hend : .endOfInput ∉ tape.reach) (hbound : tape.reach.length ≤ bound)
    (hlimit : tape.reach.length < limit) :
    Verdict (D id) tape.reach tape.fault? (g.parseUpTo bound id limit tape).1 := by
  have hmoves := hg.parseWithin_moves bound (g.size * (bound + 1) + 1) id
  have hreads : Reads (D id) (g.parseBounded bound id) := hg.parseWithin_reads hrule hD bound _
  cases (parseUpTo_reads hmoves hreads limit).outcome tape hclean with
  | took us nodes tape' hleads hphrases hlocal =>
    have hok := hlocal tape tape' hleads rfl
    obtain ⟨hreach, hfault⟩ := hleads.reach_of_end (next?_of_parseUpTo hmoves hok) hend
    rw [hok, hreach, hfault]
    exact .accepted hphrases rfl
  | stuck us next tape' hleads hnext hviable hlocal =>
    rw [hlocal tape tape' hleads hnext]
    by_cases hlast : next = .endOfInput
    · subst hlast
      obtain ⟨hreach, hfault⟩ := hleads.reach_of_end hnext hend
      rw [hreach, hfault]
      refine .incomplete hviable rfl fun nodes hphrases => ?_
      rcases hg.phrases_gives hD hrule hapart bound limit hphrases hleads hnext with hok | hexhausted
      · have hfails := hlocal tape tape' hleads hnext
        rw [hok] at hfails
        cases hfails
      · cases hexhausted.symm.trans (hlocal tape tape' hleads hnext)
    · obtain ⟨tape'', hleads'⟩ := Tape.leads_of_next? hnext hlast
      have hreach : tape.reach = us ++ next :: tape''.reach := by
        rw [hleads.reach, hleads'.reach]
        rfl
      exact .unexpected hreach hviable (hg.not_viable_of_unexpected hD hrule hapart hlocal)
  | faulted us fault rest tape' hleads hahead hviable hresult =>
    obtain ⟨hreach, hfault⟩ := hleads.reach_of_fault hahead
    rw [hresult, hreach]
    exact .faulted hviable hfault
  | exhausted hresult =>
    exact absurd hresult (parseUpTo_halts hg.not_leftRecursive hbound hlimit id)

end Grammar.Predictive

namespace Grammar.Predictive

variable {g : Grammar} {D : RuleId → List Token → Node → Prop} (hg : g.Predictive) (hD : g.Describes D)
  {id : RuleId} {rule : Rule} (hrule : g.rule id = .ok rule)
  (hapart : TokenClass.allApart (g.firsts id) (g.extensions id) = true)
  (source : Source) (options : LexerOptions)

omit hg hD hrule hapart in
/-- A lexer at the beginning of a source parses as the tape of the source does. -/
theorem parseAll_ofSource (g : Grammar) (id : RuleId) :
    (g.parseAll id (Lexer.ofSource source options)).1 =
      (g.parseUpTo (Lexer.sourceBound source) id (Lexer.sourceBound source + 1)
        (⟨[], source.items options 0⟩ : Tape)).1 := by
  have hunread : TokenStream.unread (Lexer.ofSource source options) = Lexer.sourceBound source := by
    show 0 + Lexer.sourceBound source = Lexer.sourceBound source
    exact Nat.zero_add _
  rw [parseAll, ParseM.bind_of_ok (ParseM.run_unread _), hunread]
  exact (Lexer.simulation.parseUpTo g _ id _ [] _ _ (Lexer.Shows.ofSource source options)).1

include hg hD hrule hapart

theorem parseAll_verdict : Verdict (D id) (source.tokens options) source.fault?
    (g.parseAll id (Lexer.ofSource source options)).1 := by
  obtain ⟨htokens, hlength⟩ := source.items_spec options 0
  let tape : Tape := ⟨[], source.items options 0⟩
  have hclean : tape.Clean := fun token hmem => (htokens token hmem).1
  have hend : .endOfInput ∉ tape.reach := fun hmem => (htokens _ hmem).2 rfl
  rw [parseAll_ofSource, Source.fault?, Source.fault?_items {} options]
  exact hg.parseUpTo_verdict hD hrule hapart hclean hend hlength (Nat.lt_succ_of_le hlength)

omit source options hapart in
theorem isIn_firsts_of_viable {token : Token} {us : List Token} (h : Viable (D id) (token :: us)) :
    token.isIn (g.firsts id) = true := by
  obtain ⟨vs, nodes, hphrases⟩ := h
  rw [List.cons_append] at hphrases
  generalize hws : token :: (us ++ vs) = ws at hphrases
  cases hphrases with
  | nil => cases hws
  | cons hphrase _ =>
    obtain ⟨first, rest, rfl, _, hin⟩ := hD.begins hg hrule hphrase
    obtain rfl := (List.cons.inj hws).1
    exact hin

theorem parseAll_eq_ok_iff {nodes : List Node} :
    (g.parseAll id (Lexer.ofSource source options)).1 = .ok nodes ↔
      source.fault? = none ∧ Phrases (D id) (source.tokens options) nodes := by
  constructor
  · intro hok
    have hverdict := hg.parseAll_verdict hD hrule hapart source options
    rw [hok] at hverdict
    cases hverdict with
    | accepted hphrases hfault => exact ⟨hfault, hphrases⟩
  · rintro ⟨hfault, hphrases⟩
    obtain ⟨_, hlength⟩ := source.items_spec options 0
    let tape : Tape := ⟨[], source.items options 0⟩
    let done : Tape := ⟨source.tokens options, []⟩
    have hleads : tape.Leads (source.tokens options) done := by
      refine ⟨rfl, ?_⟩
      rw [Source.fault?, Source.fault?_items {} options] at hfault
      exact (Item.eq_map_ok_of_fault?_eq_none hfault).trans (List.append_nil _).symm
    have hgives := hg.phrases_gives hD hrule hapart (Lexer.sourceBound source)
      (Lexer.sourceBound source + 1) hphrases hleads rfl
    have hhalts : (g.parseUpTo (Lexer.sourceBound source) id (Lexer.sourceBound source + 1) :
        ParseM Tape (List Node)).Halts tape :=
      parseUpTo_halts hg.not_leftRecursive hlength (Nat.lt_succ_of_le hlength) id
    rw [parseAll_ofSource, hgives.of_halts hhalts]

end Grammar.Predictive

end ParseKit
