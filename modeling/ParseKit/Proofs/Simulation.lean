import ParseKit.Proofs.Parametric

/-! Parsers over streams that answer alike give the same results. Two streams are related under the
checkpoints that are outstanding, the newest first, so that going back is only asked for in nested
order. The interpreter asks a stream for nothing but its operations, so a relation that every
operation keeps is kept by every parser, also when it fails. -/

namespace ParseKit

variable {σ τ : Type}

/-- Every operation gives the same answer on related states and leaves related states. -/
structure Simulation [TokenStream σ] [TokenStream τ]
    (R : List Checkpoint → σ → τ → Prop) : Prop where
  peek : ∀ {marks s t} (k : Nat), R marks s t →
    (TokenStream.peek k s).1 = (TokenStream.peek k t).1 ∧
      R marks (TokenStream.peek k s).2 (TokenStream.peek k t).2
  read : ∀ {marks s t}, R marks s t →
    (TokenStream.read s).1 = (TokenStream.read t).1 ∧
      R marks (TokenStream.read s).2 (TokenStream.read t).2
  cursor : ∀ {marks s t}, R marks s t → TokenStream.cursor s = TokenStream.cursor t
  checkpoint : ∀ {marks s t}, R marks s t →
    (TokenStream.checkpoint s).1 = (TokenStream.checkpoint t).1 ∧
      R ((TokenStream.checkpoint s).1 :: marks)
        (TokenStream.checkpoint s).2 (TokenStream.checkpoint t).2
  rewind : ∀ {mark marks s t}, R (mark :: marks) s t →
    R marks (TokenStream.rewind mark s) (TokenStream.rewind mark t)
  commit : ∀ {mark marks s t}, R (mark :: marks) s t →
    R marks (TokenStream.commit s) (TokenStream.commit t)
  report : ∀ {marks s t} (note : Note), R marks s t →
    R marks (TokenStream.report note s) (TokenStream.report note t)

variable {R : List Checkpoint → σ → τ → Prop} {α β : Type}

/-- Two parsers give the same results on related states and leave related states. -/
def Agree (R : List Checkpoint → σ → τ → Prop) (p : ParseM σ α) (q : ParseM τ α) : Prop :=
  ∀ marks s t, R marks s t → (p s).1 = (q t).1 ∧ R marks (p s).2 (q t).2

/-- Two parsers agree wherever the first does not fail with an error in `X`. -/
def AgreeUnless (X : ParseError → Prop) (R : List Checkpoint → σ → τ → Prop) (p : ParseM σ α)
    (q : ParseM τ α) : Prop :=
  ∀ marks s t, R marks s t → (∀ error, (p s).1 = .error error → ¬ X error) →
    (p s).1 = (q t).1 ∧ R marks (p s).2 (q t).2

theorem Agree.of_ok {p : ParseM σ α} {q : ParseM τ α} (hagree : Agree R p q)
    {marks : List Checkpoint} {s s' : σ} {t : τ} (hst : R marks s t) {a : α} (h : p s = (.ok a, s')) :
    ∃ t', q t = (.ok a, t') ∧ R marks s' t' := by
  obtain ⟨hresult, hstate⟩ := hagree marks s t hst
  rw [h] at hresult hstate
  exact ⟨(q t).2, Prod.ext hresult.symm rfl, hstate⟩

theorem agreeUnless_false_iff {p : ParseM σ α} {q : ParseM τ α} :
    AgreeUnless (fun _ => False) R p q ↔ Agree R p q :=
  ⟨fun h marks s t hst => h marks s t hst fun _ _ => id, fun h marks s t hst _ => h marks s t hst⟩

namespace AgreeUnless

variable {X : ParseError → Prop}

theorem same {p : ParseM σ α} {q : ParseM τ α} (h : ∀ marks s t, R marks s t →
    (p s).1 = (q t).1 ∧ R marks (p s).2 (q t).2) : AgreeUnless X R p q :=
  fun marks s t hst _ => h marks s t hst

theorem bind {p : ParseM σ α} {q : ParseM τ α} {f : α → ParseM σ β} {f' : α → ParseM τ β}
    (hp : AgreeUnless X R p q) (hf : ∀ a, AgreeUnless X R (f a) (f' a)) :
    AgreeUnless X R (p >>= f) (q >>= f') := by
  intro marks s t hst hX
  have hfirst := hp marks s t hst
  rw [ParseM.run_bind] at hX
  rw [ParseM.run_bind, ParseM.run_bind]
  rcases hs : p s with ⟨error | a, s'⟩ <;> rw [hs] at hfirst hX
  · obtain ⟨hresult, hstate⟩ := hfirst fun other hother => hX other (by cases hother; rfl)
    rcases ht : q t with ⟨_ | _, t'⟩ <;> rw [ht] at hresult hstate <;> cases hresult
    exact ⟨rfl, hstate⟩
  · obtain ⟨hresult, hstate⟩ := hfirst (by rintro _ ⟨⟩)
    rcases ht : q t with ⟨_ | _, t'⟩ <;> rw [ht] at hresult hstate <;> cases hresult
    exact hf a marks s' t' hstate hX

/-- The one place where the states are marked: the attempt runs under one more checkpoint, which
is released before anything else happens. -/
theorem tryOr [TokenStream σ] [TokenStream τ] (sim : Simulation R)
    (hX : ∀ error, X error → error.isRecoverable = false) (note : ParseError → String)
    {p : ParseM σ α} {q : ParseM τ α} {next : ParseError → ParseM σ α}
    {next' : ParseError → ParseM τ α} (hp : AgreeUnless X R p q)
    (hnext : ∀ error, error.isRecoverable = true → AgreeUnless X R (next error) (next' error)) :
    AgreeUnless X R (p.tryOr note next) (q.tryOr note next') := by
  intro marks s t hst hnot
  obtain ⟨hmark, hmarked⟩ := sim.checkpoint hst
  have hattempt := hp _ _ _ hmarked
  rw [ParseM.run_tryOr] at hnot
  rw [ParseM.run_tryOr, ParseM.run_tryOr, ← hmark]
  rcases hs : p (TokenStream.checkpoint s).2 with ⟨error | a, s'⟩ <;> rw [hs] at hattempt hnot
  · have hinside : ¬ X error := by
      by_cases hrecoverable : error.isRecoverable = true
      · intro hin
        simp [hX error hin] at hrecoverable
      · simp only [hrecoverable] at hnot
        exact hnot error rfl
    obtain ⟨hresult, hstate⟩ := hattempt fun _ heq => by cases heq; exact hinside
    rcases ht : q (TokenStream.checkpoint t).2 with ⟨_ | _, t'⟩ <;> rw [ht] at hresult hstate <;>
      cases hresult
    by_cases hrecoverable : error.isRecoverable = true
    · simp only [hrecoverable, if_true] at hnot ⊢
      exact hnext error hrecoverable _ _ _ (sim.rewind (sim.report _ hstate)) hnot
    · simp only [hrecoverable]
      exact ⟨rfl, sim.rewind hstate⟩
  · obtain ⟨hresult, hstate⟩ := hattempt (by rintro _ ⟨⟩)
    rcases ht : q (TokenStream.checkpoint t).2 with ⟨_ | _, t'⟩ <;> rw [ht] at hresult hstate <;>
      cases hresult
    exact ⟨rfl, sim.commit hstate⟩

end AgreeUnless

namespace Simulation

variable [TokenStream σ] [TokenStream τ] (sim : Simulation R)
include sim

theorem parametric {X : ParseError → Prop} (hX : ∀ error, X error → error.isRecoverable = false) :
    Parametric (fun _ => True) (AgreeUnless X R) where
  pure a := .same fun _ _ _ hst => ⟨rfl, hst⟩
  bind hp hf := hp.bind hf
  throw _ := .same fun _ _ _ hst => ⟨rfl, hst⟩
  exhausted := .same fun _ _ _ hst => ⟨rfl, hst⟩
  recoverable _ := trivial
  peek := .same fun _ _ _ hst => by
    obtain ⟨hresult, hstate⟩ := sim.peek 0 hst
    rw [ParseM.run_peek, ParseM.run_peek, hresult]
    exact ⟨rfl, hstate⟩
  read := .same fun _ _ _ hst => by
    obtain ⟨hresult, hstate⟩ := sim.read hst
    rw [ParseM.run_read, ParseM.run_read, hresult]
    exact ⟨rfl, hstate⟩
  cursor := .same fun _ _ _ hst => ⟨congrArg Except.ok (sim.cursor hst), hst⟩
  tryOr hp hnext := AgreeUnless.tryOr sim hX _ hp hnext

section Agree

variable (g : Grammar)

theorem parametric_false : Parametric (fun _ => True) (AgreeUnless (fun _ => False) R) :=
  sim.parametric fun _ => False.elim

theorem starts (id : RuleId) : Agree R (g.starts id) (g.starts id) :=
  agreeUnless_false_iff.1 (sim.parametric_false.starts (Grammar.Raises.trivial g).toRefers trivial)

theorem parseChoice {run : Grammar.Runner σ} {run' : Grammar.Runner τ}
    (hrun : ∀ id, Agree R (run.parse id) (run'.parse id)) (ids : List RuleId) :
    Agree R (g.parseChoice run none ids) (g.parseChoice run' none ids) :=
  agreeUnless_false_iff.1 <| sim.parametric_false.parseChoice (.trivial g) (fun _ _ => trivial)
    fun id _ => agreeUnless_false_iff.2 (hrun id)

theorem parseOperators {run : Grammar.Runner σ} {run' : Grammar.Runner τ}
    (hrun : ∀ id, Agree R (run.parse id) (run'.parse id)) (kind : NodeKind) (factor : RuleId)
    (operators : Operators) (outer? : Option Precedence) (left : Node) (bound : Nat) :
    Agree R (g.parseOperators run kind factor operators outer? left bound)
      (g.parseOperators run' kind factor operators outer? left bound) :=
  agreeUnless_false_iff.1 <| sim.parametric_false.parseOperators_across (fun _ _ _ => trivial)
    (fun _ _ _ => trivial) rfl rfl (agreeUnless_false_iff.2 (hrun factor)) outer? left (.refl bound)

theorem parseWithin (bound depth : Nat) (id : RuleId) :
    Agree R (g.parseWithin bound depth id) (g.parseWithin bound depth id) :=
  agreeUnless_false_iff.1 (sim.parametric_false.parseWithin (.trivial g) (.refl _) (.refl _) trivial)

theorem parseBounded (bound : Nat) (id : RuleId) :
    Agree R (g.parseBounded bound id) (g.parseBounded bound id) :=
  sim.parseWithin g bound _ id

theorem parseUpTo (bound : Nat) (id : RuleId) (limit : Nat) :
    Agree R (g.parseUpTo bound id limit) (g.parseUpTo bound id limit) :=
  agreeUnless_false_iff.1 (sim.parametric_false.parseUpTo (.trivial g) (.refl _) (.refl _) trivial)

end Agree

end Simulation

end ParseKit
