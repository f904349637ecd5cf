import ParseKit.Proofs.Halting
import ParseKit.Proofs.SourceTokens

/-! Rounds and depths are only a measure for the recursion. More of them change nothing where they
did not run out, and without left recursion as many as the rules and the tokens ahead ask for do not
run out, whatever lines do not scan. Main statements: `Grammar.parsing_terminates`, and
`Mirrors.parse_eq`, by which a parse of a rule runs its elements with parses of the rules that they
refer to, without any measure. -/

namespace ParseKit

variable {σ τ : Type}

/-- States that are related to some other, each related to itself. -/
abbrev Diagonal (R : List Checkpoint → σ → τ → Prop) (marks : List Checkpoint) (s s' : σ) : Prop :=
  s = s' ∧ ∃ t, R marks s t

theorem Simulation.diagonal [TokenStream σ] [TokenStream τ] {R : List Checkpoint → σ → τ → Prop}
    (sim : Simulation R) : Simulation (Diagonal R) where
  peek k h := by
    obtain ⟨rfl, t, h⟩ := h
    exact ⟨rfl, rfl, _, (sim.peek k h).2⟩
  read h := by
    obtain ⟨rfl, t, h⟩ := h
    exact ⟨rfl, rfl, _, (sim.read h).2⟩
  cursor h := by rw [h.1]
  checkpoint h := by
    obtain ⟨rfl, t, h⟩ := h
    exact ⟨rfl, rfl, _, (sim.checkpoint h).2⟩
  rewind h := by
    obtain ⟨rfl, t, h⟩ := h
    exact ⟨rfl, _, sim.rewind h⟩
  commit h := by
    obtain ⟨rfl, t, h⟩ := h
    exact ⟨rfl, _, sim.commit h⟩
  report note h := by
    obtain ⟨rfl, t, h⟩ := h
    exact ⟨rfl, _, sim.report note h⟩

/-- The parsers agree where the first does not run out of depth or rounds. -/
abbrev AgreeHalting {α : Type} (R : List Checkpoint → σ → τ → Prop) (p : ParseM σ α)
    (q : ParseM τ α) : Prop :=
  AgreeUnless (· = .grammar .leftRecursion) R p q

theorem AgreeHalting.of_halts {α : Type} {R : List Checkpoint → σ → τ → Prop} {p : ParseM σ α}
    {q : ParseM τ α} (h : AgreeHalting R p q) {marks : List Checkpoint} {s : σ} {t : τ}
    (hst : R marks s t) (hhalts : p.Halts s) : (p s).1 = (q t).1 ∧ R marks (p s).2 (q t).2 :=
  h marks s t hst fun _ herror hexhausted => hhalts (hexhausted ▸ herror)

theorem AgreeHalting.eq_of_halts {α : Type} {R : List Checkpoint → σ → τ → Prop} {p q : ParseM σ α}
    (h : AgreeHalting (Diagonal R) p q) {marks : List Checkpoint}
    {s : σ} {t : τ} (hst : R marks s t) (hhalts : p.Halts s) : q s = p s := by
  obtain ⟨hresult, hstate, _⟩ := h.of_halts ⟨rfl, t, hst⟩ hhalts
  exact (Prod.ext hresult hstate).symm

namespace Simulation

variable [TokenStream σ] [TokenStream τ] {R : List Checkpoint → σ → τ → Prop} (sim : Simulation R)
include sim

theorem halting : Parametric (fun _ => True) (AgreeHalting R) :=
  sim.parametric fun _ h => by rw [h]; rfl

omit sim [TokenStream σ] [TokenStream τ] in
theorem fits {n m : Nat} (h : n ≤ m) : Fits (AgreeHalting R) n m :=
  .inr ⟨h, fun _ _ _ _ _ hhalts => absurd rfl (hhalts _ rfl)⟩

theorem deepen (g : Grammar) {bound bound' depth depth' : Nat} (hbound : bound ≤ bound')
    (hdepth : depth ≤ depth') (id : RuleId) :
    AgreeHalting R (g.parseWithin bound depth id) (g.parseWithin bound' depth' id) :=
  sim.halting.parseWithin (.trivial g) (fits hbound) (fits hdepth) trivial

theorem deepenAll (g : Grammar) {bound bound' limit limit' : Nat} (hbound : bound ≤ bound')
    (hlimit : limit ≤ limit') (id : RuleId) :
    AgreeHalting R (g.parseUpTo bound id limit) (g.parseUpTo bound' id limit') :=
  sim.halting.parseUpTo (.trivial g) (fits hbound) (fits hlimit) trivial

end Simulation

/-- The stream answers as a tape does and does not underrate what is ahead on it. -/
structure Mirrors [TokenStream σ] (R : List Checkpoint → σ → Tape → Prop) : Prop
    extends Simulation R where
  reach_le : ∀ {marks s tape}, R marks s tape → tape.reach.length ≤ TokenStream.unread s

theorem Lexer.mirrors : Mirrors Lexer.Shows where
  toSimulation := Lexer.simulation
  reach_le {_ lexer _} h := h.reach ▸ lexer.length_reach_le_unread

namespace Mirrors

variable [TokenStream σ] {R : List Checkpoint → σ → Tape → Prop} (sim : Mirrors R) {g : Grammar}
  (hg : ¬ g.LeftRecursive) {marks : List Checkpoint} {s : σ} {tape : Tape} (h : R marks s tape)
include sim hg h

theorem parseWithin_halts {bound depth : Nat} (hbound : tape.reach.length ≤ bound)
    (hdepth : g.size * (tape.reach.length + 1) < depth) (id : RuleId) :
    (g.parseWithin bound depth id).Halts s := by
  rw [ParseM.Halts, (sim.parseWithin g bound depth id marks s tape h).1]
  exact Grammar.parseWithin_halts_of_size hg hbound hdepth id

theorem parse_halts (id : RuleId) : (g.parse id).Halts s := by
  have hsize := Nat.mul_le_mul_left g.size (Nat.succ_le_succ (sim.reach_le h))
  rw [ParseM.Halts, Grammar.run_parse]
  exact sim.parseWithin_halts hg h (sim.reach_le h) (Nat.lt_succ_of_le hsize) id

theorem parseWithin_eq_parse {bound depth : Nat} {id : RuleId}
    (hhalts : (g.parseWithin bound depth id).Halts s) : g.parseWithin bound depth id s = g.parse id s := by
  have hparse := sim.parse_halts hg h id
  rw [ParseM.Halts, Grammar.run_parse] at hparse
  let wide := max bound (TokenStream.unread s)
  let deep := max depth (g.size * (TokenStream.unread s + 1) + 1)
  calc g.parseWithin bound depth id s
      = g.parseWithin wide deep id s :=
        ((sim.diagonal.deepen g (Nat.le_max_left ..) (Nat.le_max_left ..) id).eq_of_halts h hhalts).symm
    _ = g.parseBounded (TokenStream.unread s) id s :=
        (sim.diagonal.deepen g (Nat.le_max_right ..) (Nat.le_max_right ..) id).eq_of_halts h hparse
    _ = g.parse id s := (g.run_parse id s).symm

omit h in
theorem agree_parse (bound depth : Nat) (id : RuleId) :
    AgreeHalting (Diagonal R) (g.parseWithin bound depth id) (g.parse id) := by
  rintro marks s _ ⟨rfl, tape, h⟩ hnot
  rw [← sim.parseWithin_eq_parse hg h fun herror => hnot _ herror rfl]
  exact ⟨rfl, rfl, _, (sim.parseWithin g bound depth id marks s tape h).2⟩

theorem parseUpTo_halts {bound limit : Nat} (hbound : tape.reach.length ≤ bound)
    (hlimit : tape.reach.length < limit) (id : RuleId) : (g.parseUpTo bound id limit).Halts s := by
  rw [ParseM.Halts, (sim.parseUpTo g bound id limit marks s tape h).1]
  exact Grammar.parseUpTo_halts hg hbound hlimit id

theorem parseUpTo_eq_parseAll {bound limit : Nat} {id : RuleId}
    (hhalts : (g.parseUpTo bound id limit).Halts s) : g.parseUpTo bound id limit s = g.parseAll id s := by
  have hparse := sim.parseUpTo_halts hg h (sim.reach_le h) (Nat.lt_succ_of_le (sim.reach_le h)) id
  let wide := max bound (TokenStream.unread s)
  let long := max limit (TokenStream.unread s + 1)
  calc g.parseUpTo bound id limit s
      = g.parseUpTo wide id long s :=
        ((sim.diagonal.deepenAll g (Nat.le_max_left ..) (Nat.le_max_left ..) id).eq_of_halts h hhalts).symm
    _ = g.parseUpTo (TokenStream.unread s) id (TokenStream.unread s + 1) s :=
        (sim.diagonal.deepenAll g (Nat.le_max_right ..) (Nat.le_max_right ..) id).eq_of_halts h hparse
    _ = g.parseAll id s := (g.run_parseAll id s).symm

omit h in
theorem agree_parseAll (bound limit : Nat) (id : RuleId) :
    AgreeHalting (Diagonal R) (g.parseUpTo bound id limit) (g.parseAll id) := by
  rintro marks s _ ⟨rfl, tape, h⟩ hnot
  rw [← sim.parseUpTo_eq_parseAll hg h fun herror => hnot _ herror rfl]
  exact ⟨rfl, rfl, _, (sim.parseUpTo g bound id limit marks s tape h).2⟩

omit h in
/-- A parse on the stream is that on the tape, although each has its own measure. -/
theorem parse (id : RuleId) : Agree R (g.parse id) (g.parse id) := by
  intro marks s tape h
  have hhalts := sim.parseWithin_halts hg h (Nat.le_refl _) (Nat.lt_succ_self _) id
  rw [← sim.parseWithin_eq_parse hg h hhalts, g.run_parse id tape]
  exact sim.parseBounded g _ id marks s tape h

omit h in
theorem parseAll (id : RuleId) : Agree R (g.parseAll id) (g.parseAll id) := by
  intro marks s tape h
  have hhalts := sim.parseUpTo_halts hg h (Nat.le_refl _) (Nat.lt_succ_self _) id
  rw [← sim.parseUpTo_eq_parseAll hg h hhalts, g.run_parseAll id tape]
  exact sim.parseUpTo g _ id _ marks s tape h

/-- A parse of a rule runs its elements with parses of the rules that they refer to. -/
theorem parse_eq (id : RuleId) : g.parse id s = (ParseM.ofGrammar (g.rule id) >>= fun rule =>
    g.parseElements ⟨g.parse, TokenStream.unread s⟩ rule.elements >>= g.makeList rule.kind) s := by
  have hhalts := sim.parse_halts hg h id
  rw [ParseM.Halts, Grammar.run_parse, Grammar.parseBounded, Grammar.parseWithin] at hhalts
  rw [Grammar.run_parse, Grammar.parseBounded, Grammar.parseWithin]
  cases hrule : g.rule id with
  | error error => rfl
  | ok rule =>
    rw [hrule, ParseM.ofGrammar_ok_bind] at hhalts
    rw [ParseM.ofGrammar_ok_bind, ParseM.ofGrammar_ok_bind]
    let bound := TokenStream.unread s
    let short : Grammar.Runner σ := ⟨g.parseWithin bound (g.size * (bound + 1)), bound⟩
    let full : Grammar.Runner σ := ⟨g.parse, bound⟩
    have hless : ∀ other, True → AgreeHalting (Diagonal R) (short.parse other) (full.parse other) :=
      fun other _ => sim.agree_parse hg bound _ other
    have hagree : AgreeHalting _ (g.parseElements short rule.elements >>= g.makeList rule.kind)
        (g.parseElements full rule.elements >>= g.makeList rule.kind) :=
      sim.diagonal.halting.parseRule (.trivial g) trivial hrule hless (.refl bound)
    exact (hagree.eq_of_halts h hhalts).symm

/-- Parsing a rule up to the end of the input parses it once and goes on in the same way. -/
theorem parseAll_eq (id : RuleId) :
    g.parseAll id s = Grammar.round (g.parse id) (g.parseAll id) s := by
  have hbound := sim.reach_le h
  have hhalts := sim.parseUpTo_halts hg h hbound (Nat.lt_succ_of_le hbound) id
  rw [g.run_parseAll, g.parseUpTo_eq_round]
  rw [g.parseUpTo_eq_round] at hhalts
  let bound := TokenStream.unread s
  have hagree := sim.diagonal.halting.round (sim.agree_parse hg bound (g.size * (bound + 1) + 1) id)
    (sim.agree_parseAll hg bound bound id)
  exact (hagree.eq_of_halts h hhalts).symm

end Mirrors

namespace Grammar

section Choose

variable [TokenStream σ] (g : Grammar)

def choose (ids : List RuleId) : ParseM σ Node :=
  g.parseChoice ⟨g.parse, 0⟩ none ids

theorem parseChoice_bound (parse : RuleId → ParseM σ Node) (bound bound' : Nat)
    (last? : Option ParseError) (ids : List RuleId) :
    g.parseChoice ⟨parse, bound⟩ last? ids = g.parseChoice ⟨parse, bound'⟩ last? ids := by
  induction ids generalizing last? with
  | nil => rfl
  | cons id ids ih => simp only [parseChoice_cons, ih]

theorem parseElement_choice (bound : Nat) (ids : List RuleId) :
    g.parseElement (σ := σ) ⟨g.parse, bound⟩ (.choice ids) = do return [← g.choose ids] := by
  rw [choose, parseElement, g.parseChoice_bound g.parse bound 0]

end Choose

end Grammar

theorem Mirrors.choose [TokenStream σ] {R : List Checkpoint → σ → Tape → Prop} (sim : Mirrors R)
    {g : Grammar} (hg : ¬ g.LeftRecursive) (ids : List RuleId) : Agree R (g.choose ids) (g.choose ids) :=
  sim.parseChoice g (sim.parse hg) ids

namespace Grammar

/-- Without left recursion looking ahead, parsing a rule and parsing a rule up to the end of the
input all return, in whatever state the lexer is and whatever lines do not scan. A lookahead nests
no more rules than there are. A parse nests no more of them than there are for each token ahead, and
once more, and a loop makes no more rounds than there are tokens ahead, and one more: whoever allows
as much gets the same answer and the same lexer. -/
theorem parsing_terminates (g : Grammar) (hg : ¬ g.LeftRecursive) (id : RuleId) (lexer : Lexer)
    (hlexer : lexer.Sound) :
    ((g.starts id).Halts lexer ∧
      ∀ depth, g.size < depth → g.startsWithin depth id lexer = g.starts id lexer) ∧
    ((g.parse id).Halts lexer ∧
      ∀ bound depth, lexer.reach.length ≤ bound → g.size * (lexer.reach.length + 1) < depth →
        g.parseWithin bound depth id lexer = g.parse id lexer) ∧
    ((g.parseAll id).Halts lexer ∧
      ∀ bound limit, lexer.reach.length ≤ bound → lexer.reach.length < limit →
        g.parseUpTo bound id limit lexer = g.parseAll id lexer) := by
  obtain ⟨marks, tape, hshows⟩ := hlexer.exists_shows
  have hmirrors := Lexer.mirrors
  rw [← hshows.reach]
  refine ⟨⟨starts_halts hg id lexer, fun depth hdepth => ?_⟩,
    ⟨hmirrors.parse_halts hg hshows id, fun bound depth hbound hdepth => ?_⟩,
    ⟨?_, fun bound limit hbound hlimit => ?_⟩⟩
  · exact congrFun (startsWithin_eq_starts hg hdepth id) lexer
  · exact hmirrors.parseWithin_eq_parse hg hshows
      (hmirrors.parseWithin_halts hg hshows hbound hdepth id)
  · have hreach := hmirrors.reach_le hshows
    rw [ParseM.Halts, run_parseAll]
    exact hmirrors.parseUpTo_halts hg hshows hreach (Nat.lt_succ_of_le hreach) id
  · exact hmirrors.parseUpTo_eq_parseAll hg hshows
      (hmirrors.parseUpTo_halts hg hshows hbound hlimit id)

end Grammar

/-- Numbers, lists of numbers and lists of such lists: the last two may take nothing, and the last
repeats what may take nothing. -/
def Draft.nestedLists : Draft :=
  let number : NodeKind := ⟨"number"⟩
  let draft := ({} : Draft).registering (·.addLeaf number)
  let (id, draft) := draft.add (Rule.untyped.number number)
  let (list, draft) := draft.add (Rule.untyped.many id)
  (draft.add (Rule.untyped.many list)).2

theorem Draft.build_nestedLists :
    ∃ g, nestedLists.build.1 = .ok g ∧ g.NullableRule 2 ∧ ¬ g.LeftRecursive := by
  obtain ⟨g, hbuild⟩ : ∃ g, nestedLists.build.1 = .ok g := ⟨_, rfl⟩
  have hrule : g.rule 2 = .ok (Rule.untyped.many 1) := by cases hbuild; rfl
  have hnullable : g.NullableRule 2 := .all hrule fun element hmem => by
    obtain rfl := List.mem_singleton.1 hmem
    exact .repeated 1 false
  refine ⟨g, hbuild, hnullable, Grammar.not_leftRecursive_of_refersBack ?_⟩
  cases hbuild
  decide

theorem Grammar.parsing_terminates_nestedLists : ∃ g, Draft.nestedLists.build.1 = .ok g ∧
    g.NullableRule 2 ∧ ¬ g.LeftRecursive ∧
      let lexer := Lexer.ofSource [.text ['4', '2', ' ', '+'], .undecodable] {}
      lexer.Sound ∧
      ((g.starts 2).Halts lexer ∧
        ∀ depth, g.size < depth → g.startsWithin depth 2 lexer = g.starts 2 lexer) ∧
      ((g.parse 2).Halts lexer ∧
        ∀ bound depth, lexer.reach.length ≤ bound → g.size * (lexer.reach.length + 1) < depth →
          g.parseWithin bound depth 2 lexer = g.parse 2 lexer) ∧
      ((g.parseAll 2).Halts lexer ∧
        ∀ bound limit, lexer.reach.length ≤ bound → lexer.reach.length < limit →
          g.parseUpTo bound 2 limit lexer = g.parseAll 2 lexer) := by
  obtain ⟨g, hbuild, hnullable, hg⟩ := Draft.build_nestedLists
  exact ⟨g, hbuild, hnullable, hg, .ofSource _ _, g.parsing_terminates hg 2 _ (.ofSource _ _)⟩

end ParseKit
