import ParseKit.Proofs.Expression
import ParseKit.Proofs.ScannedLine

/-! What a parser reads, against a form: which sequences of tokens it should take and what it should
give for each. A parser that reads a form fails at the first token after which the form cannot be
met any more, and up to that token it depends on nothing that comes later. Main statements: one
closure lemma for each way parsers are put together, where the alternatives of a choice exclude each
other by their next token. -/

namespace ParseKit

/-- The lexeme of the token is one that lines scan to, or it marks the end of a line. -/
def Token.Scannable : Token → Prop
  | scanned _ lexeme => lexeme.Scannable ∨ lexeme = .endOfLine
  | endOfInput => True

/-- All tokens that can be reached are ones that lines scan to. -/
def Tape.Clean (tape : Tape) : Prop :=
  ∀ token ∈ tape.reach, token.Scannable

theorem Tape.Clean.leads {tape tape' : Tape} {us : List Token} (h : tape.Clean)
    (hleads : tape.Leads us tape') : tape'.Clean :=
  fun token hmem => h token (by rw [hleads.reach]; exact List.mem_append_right us hmem)

theorem Tape.Clean.next {tape : Tape} (h : tape.Clean) {token : Token}
    (hnext : tape.next? = some token) : token.Scannable := by
  rcases tape with ⟨past, _ | ⟨fault | next, rest⟩⟩ <;> cases hnext
  · trivial
  · exact h token (by simp [Tape.reach, Item.tokens])

structure Peeks (guard : ParseM Tape Bool) (accepts : Token → Bool) : Prop where
  next : ∀ {tape token}, tape.next? = some token → guard tape = (.ok (accepts token), tape)
  fault : ∀ {tape fault rest}, tape.ahead = .error fault :: rest →
    (guard tape).1 = .error (.lex fault)

section Outcome

variable {α β : Type}

/-- How a parser ends on a tape, against the form `D`. In the first two cases it would end the same
on every tape that has the same tokens up to the next one after those it took. -/
inductive Outcome (D : List Token → α → Prop) (p : ParseM Tape α) (tape : Tape) : Prop
  | took (us : List Token) (a : α) (tape' : Tape) (hleads : tape.Leads us tape') (hform : D us a)
    (hlocal : ∀ other other', other.Leads us other' → other'.next? = tape'.next? →
      p other = (.ok a, other'))
  | stuck (us : List Token) (next : Token) (tape' : Tape) (hleads : tape.Leads us tape')
    (hnext : tape'.next? = some next) (hviable : ∃ vs a, D (us ++ vs) a)
    (hlocal : ∀ other other', other.Leads us other' → other'.next? = some next →
      (p other).1 = .error (.unexpected next))
  | faulted (us : List Token) (fault : LexError) (rest : List Item) (tape' : Tape)
    (hleads : tape.Leads us tape') (hahead : tape'.ahead = .error fault :: rest)
    (hviable : ∃ vs a, D (us ++ vs) a) (hresult : (p tape).1 = .error (.lex fault))
  | exhausted (hresult : (p tape).1 = .error (.grammar .leftRecursion))

/-- The parser reads the form on every clean tape, and the form can be met. -/
structure Reads (D : List Token → α → Prop) (p : ParseM Tape α) : Prop where
  inhabited : ∃ us a, D us a
  outcome : ∀ tape, tape.Clean → Outcome D p tape

structure Follows (q p : ParseM Tape α) (tape : Tape) : Prop where
  ok : ∀ a tape', p tape = (.ok a, tape') → q tape = (.ok a, tape')
  error : ∀ error, (p tape).1 = .error error → (q tape).1 = .error error

theorem Follows.of_eq {p q : ParseM Tape α} {tape : Tape} (h : q tape = p tape) : Follows q p tape :=
  ⟨fun _ _ hp => h.trans hp, fun _ hp => (congrArg Prod.fst h).trans hp⟩

namespace Outcome

variable {D D' : List Token → α → Prop} {p q : ParseM Tape α} {tape : Tape}

theorem follow (h : Outcome D p tape) (hq : ∀ other, other.next? = tape.next? → Follows q p other) :
    Outcome D q tape := by
  cases h with
  | took us a tape' hleads hform hlocal =>
    refine .took us a tape' hleads hform fun other other' hother hnext => ?_
    exact (hq other (hleads.next?_congr hother hnext)).ok _ _ (hlocal other other' hother hnext)
  | stuck us next tape' hleads hnext hviable hlocal =>
    refine .stuck us next tape' hleads hnext hviable fun other other' hother hnext' => ?_
    have hcongr := hleads.next?_congr hother (hnext'.trans hnext.symm)
    exact (hq other hcongr).error _ (hlocal other other' hother hnext')
  | faulted us fault rest tape' hleads hahead hviable hresult =>
    exact .faulted us fault rest tape' hleads hahead hviable ((hq tape rfl).error _ hresult)
  | exhausted hresult => exact .exhausted ((hq tape rfl).error _ hresult)

/-- A finer form is read when what was taken meets it and it can be met as far as the coarser one. -/
theorem refine_form (h : Outcome D p tape) (hviable : ∀ us a, D us a → ∃ b, D' us b)
    (hok : ∀ us a tape', p tape = (.ok a, tape') → tape.Leads us tape' → D us a → D' us a) :
    Outcome D' p tape := by
  have hfiner : ∀ us, (∃ vs a, D (us ++ vs) a) → ∃ vs a, D' (us ++ vs) a :=
    fun us ⟨vs, a, hD⟩ => ⟨vs, hviable _ a hD⟩
  cases h with
  | took us a tape' hleads hform hlocal =>
    exact .took us a tape' hleads (hok us a tape' (hlocal tape tape' hleads rfl) hleads hform) hlocal
  | stuck us next tape' hleads hnext hviable hlocal =>
    exact .stuck us next tape' hleads hnext (hfiner us hviable) hlocal
  | faulted us fault rest tape' hleads hahead hviable hresult =>
    exact .faulted us fault rest tape' hleads hahead (hfiner us hviable) hresult
  | exhausted hresult => exact .exhausted hresult

theorem mono (h : Outcome D p tape) (hD : ∀ us a, D us a → D' us a) : Outcome D' p tape :=
  h.refine_form (fun us a hform => ⟨a, hD us a hform⟩) fun us a _ _ _ hform => hD us a hform

theorem of_fault {fault : LexError} {rest : List Item} (hahead : tape.ahead = .error fault :: rest)
    (hinhabited : ∃ us a, D us a) (hresult : (p tape).1 = .error (.lex fault)) : Outcome D p tape :=
  .faulted [] fault rest tape (.refl tape) hahead hinhabited hresult

theorem bind {E : α → List Token → β → Prop} {f : α → ParseM Tape β} (hp : Outcome D p tape)
    (hf : ∀ us a tape', tape.Leads us tape' → D us a → Outcome (E a) (f a) tape')
    (hinhabited : ∀ us a, D us a → ∃ vs b, E a vs b) :
    Outcome (fun ws b => ∃ us vs a, ws = us ++ vs ∧ D us a ∧ E a vs b) (p >>= f) tape := by
  have hextend : ∀ us, (∃ vs a, D (us ++ vs) a) →
      ∃ vs b, ∃ us' vs' a, us ++ vs = us' ++ vs' ∧ D us' a ∧ E a vs' b := by
    rintro us ⟨vs, a, hD⟩
    obtain ⟨ws, b, hE⟩ := hinhabited _ a hD
    exact ⟨vs ++ ws, b, us ++ vs, ws, a, (List.append_assoc ..).symm, hD, hE⟩
  cases hp with
  | stuck us next tape' hleads hnext hviable hlocal =>
    refine .stuck us next tape' hleads hnext (hextend us hviable) fun other other' hother hnext' => ?_
    exact ParseM.bind_fails (hlocal other other' hother hnext')
  | faulted us fault rest tape' hleads hahead hviable hresult =>
    exact .faulted us fault rest tape' hleads hahead (hextend us hviable) (ParseM.bind_fails hresult)
  | exhausted hresult => exact .exhausted (ParseM.bind_fails hresult)
  | took us a tape' hleads hform hlocal =>
    have hp := hlocal tape tape' hleads rfl
    cases hf us a tape' hleads hform with
    | took vs b tape'' hleads' hform' hlocal' =>
      refine .took (us ++ vs) b tape'' (hleads.trans hleads') ⟨us, vs, a, rfl, hform, hform'⟩ ?_
      intro other other'' hother hnext
      obtain ⟨other', hother₁, hother₂⟩ := hother.split
      rw [ParseM.bind_of_ok (hlocal other other' hother₁ (hleads'.next?_congr hother₂ hnext))]
      exact hlocal' other' other'' hother₂ hnext
    | stuck vs next tape'' hleads' hnext hviable hlocal' =>
      refine .stuck (us ++ vs) next tape'' (hleads.trans hleads') hnext ?_ ?_
      · obtain ⟨ws, b, hE⟩ := hviable
        exact ⟨ws, b, us, vs ++ ws, a, List.append_assoc .., hform, hE⟩
      · intro other other'' hother hnext'
        obtain ⟨other', hother₁, hother₂⟩ := hother.split
        have hcongr := hleads'.next?_congr hother₂ (hnext'.trans hnext.symm)
        rw [ParseM.bind_of_ok (hlocal other other' hother₁ hcongr)]
        exact hlocal' other' other'' hother₂ hnext'
    | faulted vs fault rest tape'' hleads' hahead hviable hresult =>
      refine .faulted (us ++ vs) fault rest tape'' (hleads.trans hleads') hahead ?_ ?_
      · obtain ⟨ws, b, hE⟩ := hviable
        exact ⟨ws, b, us, vs ++ ws, a, List.append_assoc .., hform, hE⟩
      · rw [ParseM.bind_of_ok hp]
        exact hresult
    | exhausted hresult =>
      refine .exhausted ?_
      rw [ParseM.bind_of_ok hp]
      exact hresult

end Outcome

namespace Reads

variable {D D' : List Token → α → Prop} {p q : ParseM Tape α}

theorem mono (h : Reads D p) (hD : ∀ us a, D us a → D' us a) : Reads D' p where
  inhabited := let ⟨us, a, hform⟩ := h.inhabited; ⟨us, a, hD us a hform⟩
  outcome tape hclean := (h.outcome tape hclean).mono hD

theorem of_ok (h : Reads D p) {tape tape' : Tape} (hclean : tape.Clean) {us : List Token} {a : α}
    (hp : p tape = (.ok a, tape')) (hleads : tape.Leads us tape') : D us a := by
  cases h.outcome tape hclean with
  | took vs b tape'' hleads' hform hlocal =>
    have heq := hp.symm.trans (hlocal tape tape'' hleads' rfl)
    cases heq
    exact hleads'.unique hleads ▸ hform
  | stuck vs next tape'' hleads' hnext _ hlocal =>
    have hresult := hlocal tape tape'' hleads' hnext
    rw [hp] at hresult
    cases hresult
  | faulted _ _ _ _ _ _ _ hresult | exhausted hresult =>
    rw [hp] at hresult
    cases hresult

theorem of_result {result : Except ParseError α} (hp : ∀ tape, p tape = (result, tape))
    (h : ∃ a, result = .ok a) : Reads (fun us a => us = [] ∧ result = .ok a) p where
  inhabited := let ⟨a, ha⟩ := h; ⟨[], a, rfl, ha⟩
  outcome tape _ := by
    obtain ⟨a, rfl⟩ := h
    refine .took [] a tape (.refl tape) ⟨rfl, rfl⟩ fun other other' hother _ => ?_
    rw [hother.eq_of_nil]
    exact hp other

theorem pure (a : α) : Reads (fun us b => us = [] ∧ b = a) (Pure.pure a : ParseM Tape α) :=
  (of_result (fun _ => rfl) ⟨a, rfl⟩).mono fun _ _ ⟨hus, hok⟩ => ⟨hus, (Except.ok.inj hok).symm⟩

theorem exhausted (h : ∃ us a, D us a) :
    Reads D (throw (.grammar .leftRecursion) : ParseM Tape α) where
  inhabited := h
  outcome _ _ := .exhausted rfl

theorem bind {E : α → List Token → β → Prop} {f : α → ParseM Tape β} (hp : Reads D p)
    (hf : ∀ a, Reads (E a) (f a)) :
    Reads (fun ws b => ∃ us vs a, ws = us ++ vs ∧ D us a ∧ E a vs b) (p >>= f) where
  inhabited := by
    obtain ⟨us, a, hD⟩ := hp.inhabited
    obtain ⟨vs, b, hE⟩ := (hf a).inhabited
    exact ⟨us ++ vs, b, us, vs, a, rfl, hD, hE⟩
  outcome tape hclean := (hp.outcome tape hclean).bind
    (fun _ a tape' hleads _ => (hf a).outcome tape' (hclean.leads hleads))
    fun _ a _ => (hf a).inhabited

theorem take {what : TokenClass} (h : ∃ token, what.accepts token = true ∧ token.Scannable) :
    Reads (fun us token => us = [token] ∧ what.accepts token = true ∧ token.Scannable) what.take where
  inhabited := let ⟨token, htoken⟩ := h; ⟨[token], token, rfl, htoken⟩
  outcome := by
    have hinhabited : ∃ us token,
        us = [token] ∧ what.accepts token = true ∧ token.Scannable :=
      let ⟨token, htoken⟩ := h; ⟨[token], token, rfl, htoken⟩
    rintro ⟨past, ahead⟩ hclean
    rcases hnext : Tape.next? ⟨past, ahead⟩ with _ | next
    · obtain ⟨fault, rest, hahead⟩ := Tape.next?_eq_none_iff.1 hnext
      cases hahead
      exact .of_fault rfl hinhabited (congrArg Prod.fst (what.take_of_fault past fault rest))
    by_cases haccepts : what.accepts next = true
    · rcases ahead with _ | ⟨fault | token, rest⟩ <;> cases hnext
      · rw [what.accepts_endOfInput] at haccepts
        cases haccepts
      · exact .took [next] next ⟨past ++ [next], rest⟩ ⟨rfl, rfl⟩ ⟨rfl, haccepts, hclean.next rfl⟩
          fun _ _ hother _ => TokenClass.take_of_leads haccepts hother
    · refine .stuck [] next _ (.refl _) hnext hinhabited fun other other' hother hnext' => ?_
      obtain rfl := hother.eq_of_nil
      rw [TokenClass.take_of_not_accepts hnext' (by simpa using haccepts)]

/-- A branch on a lookahead reads a form that both branches read where they are taken. -/
theorem guard {guard : ParseM Tape Bool} {accepts : Token → Bool} (hguard : Peeks guard accepts)
    (hinhabited : ∃ us a, D us a)
    (hp : ∀ tape token, tape.Clean → tape.next? = some token → accepts token = true → Outcome D p tape)
    (hq : ∀ tape token, tape.Clean → tape.next? = some token → accepts token = false →
      Outcome D q tape) : Reads D (guard >>= fun b => if b then p else q) where
  inhabited := hinhabited
  outcome tape hclean := by
    rcases hnext : tape.next? with _ | token
    · obtain ⟨fault, rest, hahead⟩ := Tape.next?_eq_none_iff.1 hnext
      exact .of_fault hahead hinhabited (ParseM.bind_fails (hguard.fault hahead))
    · have hbranch : ∀ other, other.next? = tape.next? →
          (guard >>= fun b => if b then p else q) other = (if accepts token then p else q) other :=
        fun other hother => ParseM.bind_of_ok (hguard.next (hother.trans hnext))
      cases haccepts : accepts token with
      | true =>
        simp only [haccepts, ↓reduceIte] at hbranch
        exact (hp tape token hclean hnext haccepts).follow fun other h => .of_eq (hbranch other h)
      | false =>
        simp only [haccepts, Bool.false_eq_true, ↓reduceIte] at hbranch
        exact (hq tape token hclean hnext haccepts).follow fun other h => .of_eq (hbranch other h)

end Reads

end Outcome

end ParseKit
