import ParseKit.Proofs.OrderedChoice
import ParseKit.Proofs.Restoring
import ParseKit.Proofs.Session

/-! One more alternative. A grammar is widened by an alternative that starts with a word of its own.
Where the word does not occur the alternative cannot start, wherever it was put, so it changes neither
which alternative is taken nor which error is told. Main statements: `Grammar.Widens.parse_alike` and
`Grammar.Widens.serveAll_eq`. -/

namespace ParseKit

namespace Tape

/-- The tape has no faults, and the tokens are those taken and those ahead. -/
structure Holds (tokens : List Token) (tape : Tape) : Prop where
  fault? : tape.fault? = none
  tokens : tape.past ++ tape.reach = tokens

namespace Holds

variable {tokens : List Token} {tape : Tape}

theorem ofTokens (tokens : List Token) : Holds tokens ⟨[], tokens.map .ok⟩ where
  fault? := by
    have hfault := Item.fault?_map_ok_append tokens []
    rwa [List.append_nil] at hfault
  tokens := by
    have htokens := Item.tokens_map_ok_append tokens []
    rw [List.append_nil] at htokens
    simp [Tape.reach, htokens, Item.tokens]

theorem reach_le (h : tape.Holds tokens) : tape.reach.length ≤ tokens.length := by
  simp [← h.tokens]

theorem peek (h : tape.Holds tokens) (k : Nat) : (tape.peek k).2.Holds tokens := by
  rw [peek_of_fault?_eq_none h.fault?]
  exact h

theorem read (h : tape.Holds tokens) : tape.read.2.Holds tokens := by
  obtain ⟨hfault, htokens⟩ := h
  obtain ⟨past, _ | ⟨_ | token, rest⟩⟩ := tape
  · exact ⟨hfault, htokens⟩
  · cases hfault
  · refine ⟨hfault, ?_⟩
    simpa [Tape.reach, Item.tokens, Tape.read] using htokens

theorem rewind (h : tape.Holds tokens) (mark : Checkpoint) : (tape.rewind mark).Holds tokens where
  fault? := by
    rw [Tape.fault?, Tape.rewind, Item.fault?_map_ok_append]
    exact h.fault?
  tokens := by
    rw [Tape.reach, Tape.rewind, Item.tokens_map_ok_append, ← List.append_assoc, List.take_append_drop]
    exact h.tokens

/-- What none of the tokens is, the next one is not either. -/
theorem accepts_head (h : tape.Holds tokens) {what : TokenClass}
    (hnone : ∀ token ∈ tokens, what.accepts token = false) :
    what.accepts (tape.reach.getD 0 .endOfInput) = false := by
  cases hreach : tape.reach with
  | nil => exact what.accepts_endOfInput
  | cons token rest => exact hnone token (by simp [← h.tokens, hreach])

theorem mirrors (tokens : List Token) :
    Mirrors fun _ (tape tape' : Tape) => tape = tape' ∧ tape.Holds tokens where
  peek k h := by
    obtain ⟨rfl, h⟩ := h
    exact ⟨rfl, rfl, h.peek k⟩
  read h := by
    obtain ⟨rfl, h⟩ := h
    exact ⟨rfl, rfl, h.read⟩
  cursor h := by rw [h.1]
  checkpoint h := by
    obtain ⟨rfl, h⟩ := h
    exact ⟨rfl, rfl, h⟩
  rewind {mark _ tape tape'} h := by
    obtain ⟨rfl, h⟩ := h
    exact ⟨rfl, h.rewind mark⟩
  commit h := h
  report _ h := h
  reach_le h := by rw [h.1]; exact Nat.le_refl _

end Holds

end Tape

abbrev Alike {α : Type} (tokens : List Token) (p q : ParseM Tape α) : Prop :=
  AgreeUnless (fun _ => False) (fun _ tape tape' => tape = tape' ∧ tape.Holds tokens) p q

namespace Alike

variable {α β : Type} {tokens : List Token} {p q q' : ParseM Tape α}

theorem parametric (tokens : List Token) : Parametric (fun _ => True) (Alike tokens) :=
  (Tape.Holds.mirrors tokens).toSimulation.parametric_false

theorem iff_forall : Alike tokens p q ↔
    ∀ tape : Tape, tape.Holds tokens → p tape = q tape ∧ (p tape).2.Holds tokens := by
  constructor
  · intro h tape htape
    obtain ⟨hresult, hstate, hholds⟩ := agreeUnless_false_iff.1 h [] tape tape ⟨rfl, htape⟩
    exact ⟨Prod.ext hresult hstate, hholds⟩
  · rintro h _ tape _ ⟨rfl, htape⟩ _
    obtain ⟨heq, hholds⟩ := h tape htape
    exact ⟨congrArg Prod.fst heq, congrArg Prod.snd heq, hholds⟩

theorem congr {p' : ParseM Tape α} (h : Alike tokens p q)
    (hp : ∀ tape : Tape, tape.Holds tokens → p' tape = p tape)
    (hq : ∀ tape : Tape, tape.Holds tokens → q' tape = q tape) : Alike tokens p' q' := by
  rw [iff_forall] at h ⊢
  intro tape htape
  rw [hp tape htape, hq tape htape]
  exact h tape htape

theorem congr_right (h : Alike tokens p q) (hq : ∀ tape : Tape, tape.Holds tokens → q' tape = q tape) :
    Alike tokens p q' :=
  h.congr (fun _ _ => rfl) hq

end Alike

/-- The request is for one of the first `count` rules, if for any. -/
def Request.Within (count : Nat) : Request → Prop
  | read | peek _ => True
  | parse id | starts id | parseAll id => id < count

instance (count : Nat) : ∀ request : Request, Decidable (request.Within count)
  | .read | .peek _ => inferInstanceAs (Decidable True)
  | .parse id | .starts id | .parseAll id => inferInstanceAs (Decidable (id < count))

namespace Rule

/-- The second rule is the first, or it has one more alternative before those that the first starts
with. -/
def MayAdd (added : RuleId) (rule rule' : Rule) : Prop :=
  rule' = rule ∨ Draft.withChoice? added rule = some rule'

theorem withChoice?_eq_some {added : RuleId} {rule rule' : Rule}
    (h : Draft.withChoice? added rule = some rule') : ∃ ids rest, rule.elements = .choice ids :: rest ∧
      rule' = { rule with elements := .choice (added :: ids) :: rest } := by
  rw [Draft.withChoice?] at h
  split at h
  · next ids rest helements => exact ⟨ids, rest, helements, (Option.some.inj h).symm⟩
  · cases h

theorem MayAdd.kind_eq {added : RuleId} {rule rule' : Rule} (h : rule.MayAdd added rule') :
    rule'.kind = rule.kind := by
  rcases h with rfl | h
  · rfl
  · obtain ⟨ids, rest, -, rfl⟩ := withChoice?_eq_some h
    rfl

end Rule

namespace Grammar

/-- The second grammar has the rules and the builders of the first and may have more of them. Rules may
try one more alternative before those of the alternation that they start with. -/
structure Widens (small large : Grammar) (added : RuleId) : Prop
    extends small.Supplies large (· < small.size) where
  size_le : small.size ≤ large.size
  rule : ∀ {id rule}, small.rule id = .ok rule → ∃ rule', rule.MayAdd added rule' ∧ large.rule id = .ok rule'

/-- A rule that starts with a token of a class cannot start where no token is of the class. -/
theorem starts_eq_false {g : Grammar} {id : RuleId} {rule : Rule} (hrule : g.rule id = .ok rule)
    {what : TokenClass} {rest : List Element} (helements : rule.elements = .drop what :: rest)
    {tokens : List Token} (hnone : ∀ token ∈ tokens, what.accepts token = false) {tape : Tape}
    (htape : tape.Holds tokens) : g.starts id tape = (.ok false, tape) := by
  have hfirst (f : RuleId → ParseM Tape Bool) : (Element.drop what).startsWith f tape = (.ok false, tape) := by
    rw [Element.startsWith, ParseM.bind_of_ok (ParseM.peek_of_fault?_eq_none htape.fault? 0),
      htape.accepts_head hnone]
    rfl
  rw [starts, startsWithin, hrule, ParseM.ofGrammar_ok_bind, helements]
  simp only [Element.allStartWith, ParseM.bind_of_ok (hfirst _)]
  rfl

section Passed

variable {g : Grammar} {added : RuleId} {tape : Tape} (h : g.starts added tape = (.ok false, tape))
  (ids : List RuleId) (rest : List Element)
include h

theorem allStartWith_passed : Element.allStartWith g.starts (.choice (added :: ids) :: rest) tape =
    Element.allStartWith g.starts (.choice ids :: rest) tape := by
  have hany : (added :: ids).anyM g.starts tape = ids.anyM g.starts tape := by
    rw [List.anyM, ParseM.bind_of_ok h]
  rw [Element.allStartWith, Element.allStartWith, Element.startsWith, Element.startsWith, ParseM.run_bind,
    hany, ← ParseM.run_bind]
  rfl

theorem parseElements_passed (run : Runner Tape) :
    g.parseElements run (.choice (added :: ids) :: rest) tape =
      g.parseElements run (.choice ids :: rest) tape := by
  have hchoice : g.parseChoice run none (added :: ids) tape = g.parseChoice run none ids tape := by
    rw [parseChoice, ParseM.bind_of_ok h]
    rfl
  simp only [parseElements, parseElement, ParseM.run_bind, hchoice]

end Passed

section Measures

variable {g : Grammar} (hg : ¬ g.LeftRecursive) {tape : Tape} {bound : Nat} (hbound : tape.reach.length ≤ bound)
  {id : RuleId}
include hg hbound

theorem parseWithin_eq_parse {depth : Nat} (hdepth : g.size * (tape.reach.length + 1) < depth) :
    g.parseWithin bound depth id tape = g.parse id tape :=
  @Mirrors.parseWithin_eq_parse Tape _ _ Tape.mirrors g hg [] tape tape rfl bound depth id
    (parseWithin_halts_of_size hg hbound hdepth id)

theorem parseUpTo_eq_parseAll {limit : Nat} (hlimit : tape.reach.length < limit) :
    g.parseUpTo bound id limit tape = g.parseAll id tape :=
  @Mirrors.parseUpTo_eq_parseAll Tape _ _ Tape.mirrors g hg [] tape tape rfl bound limit id
    (parseUpTo_halts hg hbound hlimit id)

end Measures

namespace Widens

variable {small large : Grammar} {added : RuleId} (h : small.Widens large added)
  (hcomplete : small.Complete) (hsmall : ¬ small.LeftRecursive) (hlarge : ¬ large.LeftRecursive)
  {tokens : List Token}
  (hpassed : ∀ tape : Tape, tape.Holds tokens → large.starts added tape = (.ok false, tape))
include h hcomplete hsmall hlarge hpassed

theorem starts_alike {id : RuleId} (hid : id < small.size) :
    Alike tokens (small.starts id) (large.starts id) := by
  have hR := Alike.parametric tokens
  refine small.starts_induction hsmall
    (motive := fun id p => id < small.size → Alike tokens p (large.starts id)) ?_ ?_ id hid
  · intro id error herror hid
    obtain ⟨rule, hrule⟩ := exists_rule_of_lt hid
    cases herror.symm.trans hrule
  · intro id rule hrule ih hid
    have hsame : Alike tokens (Element.allStartWith small.starts rule.elements)
        (Element.allStartWith large.starts rule.elements) := by
      refine hR.allStartWith fun before element after heq hbefore other hother => ?_
      exact ih other (leftCalls_of_split hrule heq hbefore hother)
        (hcomplete.rules hrule element (by simp [heq]) other hother)
    rw [starts_eq hlarge]
    obtain ⟨rule', rfl | hadded, hlarger⟩ := h.rule hrule <;> rw [hlarger, ParseM.ofGrammar_ok_bind]
    · exact hsame
    · obtain ⟨ids, rest, helements, rfl⟩ := Rule.withChoice?_eq_some hadded
      rw [helements] at hsame ⊢
      exact hsame.congr_right fun tape htape => allStartWith_passed (hpassed tape htape) ids rest

theorem parseWithin_alike (bound depth : Nat) {id : RuleId} (hid : id < small.size) :
    Alike tokens (small.parseWithin bound depth id) (large.parseWithin bound depth id) := by
  have hR := Alike.parametric tokens
  have hraises : small.Raises (· < small.size) fun _ => True :=
    { hcomplete.refers with
      rule := fun _ _ => trivial
      kind := fun _ _ _ _ _ => trivial
      tokenKinds := fun _ _ _ _ _ _ _ _ _ => trivial
      listKinds := fun _ _ _ _ _ _ _ _ _ => trivial }
  induction depth generalizing id with
  | zero =>
    obtain ⟨rule, hrule⟩ := exists_rule_of_lt hid
    rw [parseWithin, parseWithin, hrule]
    obtain ⟨rule', -, hlarger⟩ := h.rule hrule
    rw [hlarger]
    exact hR.exhausted
  | succ depth ih =>
    obtain ⟨rule, hrule⟩ := exists_rule_of_lt hid
    have hsame : Alike tokens
        (small.parseElements ⟨small.parseWithin bound depth, bound⟩ rule.elements >>= small.makeList rule.kind)
        (large.parseElements ⟨large.parseWithin bound depth, bound⟩ rule.elements >>= large.makeList rule.kind) :=
      hR.parseRule_across hraises hid hrule (fun other hother => ih hother) (.refl bound)
        h.toSupplies (h.starts_alike hcomplete hsmall hlarge hpassed)
    rw [parseWithin, parseWithin, hrule, ParseM.ofGrammar_ok_bind]
    obtain ⟨rule', rfl | hadded, hlarger⟩ := h.rule hrule <;> rw [hlarger, ParseM.ofGrammar_ok_bind]
    · exact hsame
    · obtain ⟨ids, rest, helements, rfl⟩ := Rule.withChoice?_eq_some hadded
      refine hsame.congr_right fun tape htape => ?_
      change (large.parseElements _ (.choice (added :: ids) :: rest) >>= large.makeList rule.kind) tape = _
      rw [ParseM.run_bind, parseElements_passed (hpassed tape htape), ← ParseM.run_bind, helements]

theorem parse_alike {id : RuleId} (hid : id < small.size) : Alike tokens (small.parse id) (large.parse id) := by
  let depth := large.size * (tokens.length + 1) + 1
  have hdepth : ∀ {tape : Tape}, tape.Holds tokens → ∀ {g : Grammar}, g.size ≤ large.size →
      g.size * (tape.reach.length + 1) < depth := fun htape _ hle =>
    Nat.lt_succ_of_le (Nat.mul_le_mul hle (Nat.succ_le_succ htape.reach_le))
  refine (h.parseWithin_alike hcomplete hsmall hlarge hpassed tokens.length depth hid).congr
    (fun tape htape => ?_) fun tape htape => ?_
  · exact (parseWithin_eq_parse hsmall htape.reach_le (hdepth htape h.size_le)).symm
  · exact (parseWithin_eq_parse hlarge htape.reach_le (hdepth htape (Nat.le_refl _))).symm

/-- Parsing up to the end of the input does the same in both grammars. -/
theorem parseAll_alike {id : RuleId} (hid : id < small.size) :
    Alike tokens (small.parseAll id) (large.parseAll id) := by
  have hR := Alike.parametric tokens
  have hbounded : ∀ {g : Grammar}, ¬ g.LeftRecursive → ∀ tape : Tape, tape.Holds tokens →
      g.parseBounded tokens.length id tape = g.parse id tape := fun hg tape htape =>
    parseWithin_eq_parse hg htape.reach_le
      (Nat.lt_succ_of_le (Nat.mul_le_mul_left _ (Nat.succ_le_succ htape.reach_le)))
  have hround : Alike tokens (small.parseBounded tokens.length id) (large.parseBounded tokens.length id) :=
    (h.parse_alike hcomplete hsmall hlarge hpassed hid).congr (hbounded hsmall) (hbounded hlarge)
  have hupTo : ∀ limit, Alike tokens (small.parseUpTo tokens.length id limit)
      (large.parseUpTo tokens.length id limit) := by
    intro limit
    induction limit with
    | zero => exact hR.exhausted
    | succ limit ih => exact hR.round hround ih
  refine (hupTo (tokens.length + 1)).congr (fun tape htape => ?_) fun tape htape => ?_
  · exact (parseUpTo_eq_parseAll hsmall htape.reach_le (Nat.lt_succ_of_le htape.reach_le)).symm
  · exact (parseUpTo_eq_parseAll hlarge htape.reach_le (Nat.lt_succ_of_le htape.reach_le)).symm

theorem serve_eq {tape : Tape} (htape : tape.Holds tokens) {request : Request} (hknown : request.Within small.size) :
    large.serve request tape = small.serve request tape ∧ (small.serve request tape).2.Holds tokens := by
  have hserve : ∀ {α : Type} {p q : ParseM Tape α} (f : Except ParseError α → Reply), Alike tokens p q →
      (q tape).map f id = (p tape).map f id ∧ ((p tape).map f id).2.Holds tokens := by
    intro α p q f halike
    obtain ⟨heq, hholds⟩ := Alike.iff_forall.1 halike tape htape
    exact ⟨by rw [heq], hholds⟩
  cases request with
  | read => exact ⟨rfl, htape.read⟩
  | peek k => exact ⟨rfl, htape.peek k⟩
  | parse id => exact hserve .node (h.parse_alike hcomplete hsmall hlarge hpassed hknown)
  | starts id => exact hserve .verdict (h.starts_alike hcomplete hsmall hlarge hpassed hknown)
  | parseAll id => exact hserve .nodes (h.parseAll_alike hcomplete hsmall hlarge hpassed hknown)

theorem serveAll_eq {tape : Tape} (htape : tape.Holds tokens) {requests : List Request}
    (hknown : ∀ request ∈ requests, request.Within small.size) :
    large.serveAll requests tape = small.serveAll requests tape := by
  induction requests generalizing tape with
  | nil => rfl
  | cons request rest ih =>
    obtain ⟨hrequest, hrest⟩ := List.forall_mem_cons.1 hknown
    obtain ⟨hreply, hholds⟩ := h.serve_eq hcomplete hsmall hlarge hpassed htape hrequest
    simp only [serveAll, hreply, ih hholds hrest]

end Widens

end Grammar

end ParseKit
