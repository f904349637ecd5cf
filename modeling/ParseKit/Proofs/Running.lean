import ParseKit.Grammar.Parse

/-! What a parser does when it is run on a state, one lemma for each way parsers are put together.
The lemmas on `Grammar` open one round of each loop of the interpreter. -/

namespace ParseKit

namespace Factory

variable {α : Type} {factory : Factory α} {line? : Option Nat} {argument : α}

theorem makeAt_eq_ok {node : Node} :
    factory.makeAt line? argument = .ok node ↔ factory.build argument = .ok node := by
  unfold makeAt
  split <;> simp_all

/-- A builder that gives no node refuses its argument or is at fault itself. -/
theorem makeAt_eq_error {error : ParseError} (h : factory.makeAt line? argument = .error error) :
    (∃ reason, factory.build argument = .error (.invalidArgument reason) ∧
      error = .invalidArgument factory.kind line? reason) ∨
    ∃ reason, factory.build argument = .error (.failed reason) ∧
      error = .grammar (.constructionFailed factory.kind reason) := by
  unfold makeAt at h
  split at h
  · cases h
  · next reason hrefused => exact .inl ⟨reason, hrefused, (Except.error.inj h).symm⟩
  · next reason hfailed => exact .inr ⟨reason, hfailed, (Except.error.inj h).symm⟩

end Factory

namespace ParseM

variable {σ α β : Type}

@[simp] theorem run_pure (a : α) (s : σ) : (pure a : ParseM σ α) s = (.ok a, s) := rfl

@[simp] theorem run_throw (error : ParseError) (s : σ) :
    (throw error : ParseM σ α) s = (.error error, s) := rfl

@[simp] theorem run_bind (p : ParseM σ α) (f : α → ParseM σ β) (s : σ) :
    (p >>= f) s = match p s with
      | (.ok a, s) => f a s
      | (.error error, s) => (.error error, s) := by
  rcases h : p s with ⟨error | a, s'⟩
  · simp [bind, ExceptT.bind, ExceptT.mk, ExceptT.bindCont, StateT.bind, h]
    rfl
  · simp [bind, ExceptT.bind, ExceptT.mk, ExceptT.bindCont, StateT.bind, h]

theorem bind_of_ok {p : ParseM σ α} {f : α → ParseM σ β} {s t : σ} {a : α} (h : p s = (.ok a, t)) :
    (p >>= f) s = f a t := by
  rw [run_bind, h]

theorem bind_of_error {p : ParseM σ α} {f : α → ParseM σ β} {s t : σ} {error : ParseError}
    (h : p s = (.error error, t)) : (p >>= f) s = (.error error, t) := by
  rw [run_bind, h]

theorem bind_fails {p : ParseM σ α} {f : α → ParseM σ β} {s : σ} {error : ParseError}
    (h : (p s).1 = .error error) : ((p >>= f) s).1 = .error error :=
  congrArg Prod.fst (bind_of_error (Prod.ext h rfl))

theorem bind_eq_ok {p : ParseM σ α} {f : α → ParseM σ β} {s s' : σ} {b : β} :
    (p >>= f) s = (.ok b, s') ↔ ∃ a t, p s = (.ok a, t) ∧ f a t = (.ok b, s') := by
  constructor
  · intro h
    rcases hp : p s with ⟨error | a, t⟩
    · rw [bind_of_error hp] at h
      cases h
    · exact ⟨a, t, rfl, (bind_of_ok hp).symm.trans h⟩
  · rintro ⟨a, t, hp, hf⟩
    rw [bind_of_ok hp, hf]

@[simp] theorem run_attempt (p : ParseM σ α) (s : σ) : p.attempt s = (.ok (p s).1, (p s).2) := rfl

@[simp] theorem run_ofGrammar_ok (a : α) (s : σ) :
    (ofGrammar (.ok a) : ParseM σ α) s = (.ok a, s) := rfl

@[simp] theorem run_ofGrammar_error (error : GrammarError) (s : σ) :
    (ofGrammar (.error error) : ParseM σ α) s = (.error (.grammar error), s) := rfl

theorem ofGrammar_eq_ok {result : Except GrammarError α} {s t : σ} {a : α}
    (h : (ofGrammar result : ParseM σ α) s = (.ok a, t)) : result = .ok a ∧ t = s := by
  cases result <;> cases h
  exact ⟨rfl, rfl⟩

@[simp] theorem ofGrammar_ok_bind (a : α) (f : α → ParseM σ β) : ofGrammar (.ok a) >>= f = f a := rfl

@[simp] theorem ofGrammar_error_bind (error : GrammarError) (f : α → ParseM σ β) :
    ofGrammar (.error error) >>= f = throw (.grammar error) := rfl

@[simp] theorem run_ofExcept (result : Except ParseError α) (s : σ) :
    (ofExcept result : ParseM σ α) s = (result, s) := by
  cases result <;> rfl

end ParseM

namespace Grammar

def tokenNode (g : Grammar) (kind : NodeKind) (token : Token) : Except ParseError Node :=
  match g.tokenFactory kind with
  | .ok factory => factory.ofToken token
  | .error error => .error (.grammar error)

def listNode (g : Grammar) (kind : NodeKind) (children : List Node) : Except ParseError Node :=
  match g.listFactory kind with
  | .ok factory => factory.ofChildren children
  | .error error => .error (.grammar error)

theorem exists_mem_of_tokenFactory {g : Grammar} {kind : NodeKind} {factory : Factory Token}
    (h : g.tokenFactory kind = .ok factory) : ∃ entry ∈ g.tokens.entries, entry.2 = factory := by
  rw [tokenFactory] at h
  cases hget : g.tokens.get? kind <;> rw [hget] at h <;> cases h
  exact Table.exists_mem_of_get? hget

theorem exists_mem_of_listFactory {g : Grammar} {kind : NodeKind} {factory : Factory (List Node)}
    (h : g.listFactory kind = .ok factory) : ∃ entry ∈ g.lists.entries, entry.2 = factory := by
  rw [listFactory] at h
  cases hget : g.lists.get? kind <;> rw [hget] at h <;> cases h
  exact Table.exists_mem_of_get? hget

variable {σ : Type} (g : Grammar) (kind : NodeKind) (s : σ)

@[simp] theorem run_makeToken (token : Token) :
    (g.makeToken kind token) s = (g.tokenNode kind token, s) := by
  unfold makeToken tokenNode
  cases g.tokenFactory kind <;> simp

@[simp] theorem run_makeList (children : List Node) :
    (g.makeList kind children) s = (g.listNode kind children, s) := by
  unfold makeList listNode
  cases g.listFactory kind <;> simp

end Grammar

namespace ParseM

variable {σ : Type} [TokenStream σ]

@[simp] theorem run_cursor (s : σ) : ParseM.cursor s = (.ok (TokenStream.cursor s), s) := rfl

@[simp] theorem run_unread (s : σ) : ParseM.unread s = (.ok (TokenStream.unread s), s) := rfl

theorem run_peek (k : Nat) (s : σ) :
    ParseM.peek k s = ((TokenStream.peek k s).1.mapError .lex, (TokenStream.peek k s).2) := by
  rcases h : TokenStream.peek k s with ⟨_ | _, s'⟩ <;> simp only [ParseM.peek, h] <;> rfl

theorem run_read (s : σ) :
    ParseM.read s = ((TokenStream.read s).1.mapError .lex, (TokenStream.read s).2) := by
  rcases h : TokenStream.read s with ⟨_ | _, s'⟩ <;> simp only [ParseM.read, h] <;> rfl

end ParseM

namespace Grammar

variable {σ : Type} [TokenStream σ] (g : Grammar) (id : RuleId) (s : σ)

theorem run_parse : g.parse id s = g.parseBounded (TokenStream.unread s) id s :=
  ParseM.bind_of_ok (ParseM.run_unread s)

theorem run_parseAll : g.parseAll id s =
    g.parseUpTo (TokenStream.unread s) id (TokenStream.unread s + 1) s :=
  ParseM.bind_of_ok (ParseM.run_unread s)

end Grammar

end ParseKit
