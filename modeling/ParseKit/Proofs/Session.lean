import Mathlib
import ParseKit.TokenList
import ParseKit.Proofs.Termination

/-! Sessions. A user asks a stream for tokens and a grammar for parses, in any order and also after
something has failed. Main statement: `Grammar.lazy_session_eq_eager`, a lexer that reads its lines
on demand and drops what it no longer needs answers a session as a list of all tokens does. -/

namespace ParseKit

inductive Request where
  | read
  /-- The token `k` places ahead of the next one. -/
  | peek (k : Nat)
  | parse (id : RuleId)
  /-- Whether a rule could start here. -/
  | starts (id : RuleId)
  | parseAll (id : RuleId)
  deriving DecidableEq, Repr

inductive Reply where
  | token (result : Except LexError Token)
  | node (result : Except ParseError Node)
  | verdict (result : Except ParseError Bool)
  | nodes (result : Except ParseError (List Node))

namespace Grammar

variable {σ : Type} [TokenStream σ]

def serve (g : Grammar) (request : Request) (s : σ) : Reply × σ :=
  match request with
  | .read => (TokenStream.read s).map .token id
  | .peek k => (TokenStream.peek k s).map .token id
  | .parse rule => (g.parse rule s).map .node id
  | .starts rule => (g.starts rule s).map .verdict id
  | .parseAll rule => (g.parseAll rule s).map .nodes id

def serveAll (g : Grammar) : List Request → σ → List (Reply × Nat)
  | [], _ => []
  | request :: rest, s =>
    let (reply, s) := g.serve request s
    (reply, TokenStream.cursor s) :: g.serveAll rest s

end Grammar

namespace Mirrors

variable {σ : Type} [TokenStream σ] {R : List Checkpoint → σ → Tape → Prop} (sim : Mirrors R)
  {g : Grammar} (hg : ¬ g.LeftRecursive) {marks : List Checkpoint} {s : σ} {tape : Tape}
  (h : R marks s tape)
include sim hg h

theorem serve (request : Request) : (g.serve request s).1 = (g.serve request tape).1 ∧
    R marks (g.serve request s).2 (g.serve request tape).2 := by
  cases request with
  | read => exact (sim.read h).imp_left (congrArg Reply.token)
  | peek k => exact (sim.peek k h).imp_left (congrArg Reply.token)
  | parse rule => exact (sim.parse hg rule marks s tape h).imp_left (congrArg Reply.node)
  | starts rule => exact (sim.starts g rule marks s tape h).imp_left (congrArg Reply.verdict)
  | parseAll rule => exact (sim.parseAll hg rule marks s tape h).imp_left (congrArg Reply.nodes)

theorem serveAll (requests : List Request) : g.serveAll requests s = g.serveAll requests tape := by
  induction requests generalizing s tape with
  | nil => rfl
  | cons request rest ih =>
    obtain ⟨hreply, hstate⟩ := sim.serve hg h request
    simp only [Grammar.serveAll, hreply, sim.cursor hstate, ih hstate]

end Mirrors

namespace TokenList

/-- The list holds the tape, which has no faults: its position cuts the tokens into those that were
taken and those that are ahead. -/
structure Shows (marks : List Checkpoint) (list : TokenList) (tape : Tape) : Prop where
  position : list.position = tape.past.length
  tokens : list.tokens.toList = tape.past ++ tape.reach
  fault? : tape.fault? = none
  nested : (list.position :: marks.map (·.position)).Pairwise (· ≥ ·)

namespace Shows

variable {marks : List Checkpoint} {list : TokenList} {tape : Tape}

theorem ahead_eq (h : Shows marks list tape) (k : Nat) : list.ahead k = tape.reach.getD k .endOfInput := by
  have hlookup : list.tokens[list.position + k]? = tape.reach[k]? := by
    rw [← Array.getElem?_toList, h.tokens, h.position, List.getElem?_append_right (Nat.le_add_right _ _),
      Nat.add_sub_cancel_left]
  rw [TokenList.ahead, Array.getD_eq_getD_getElem?, List.getD_eq_getElem?_getD, hlookup]

theorem ofTokens (tokens : List Token) :
    Shows [] ⟨tokens.toArray, 0, []⟩ ⟨[], tokens.map .ok⟩ where
  position := rfl
  tokens := by
    have htokens := Item.tokens_map_ok_append tokens []
    rw [List.append_nil] at htokens
    simp [Tape.reach, htokens, Item.tokens]
  fault? := by
    have hfault := Item.fault?_map_ok_append tokens []
    rw [List.append_nil] at hfault
    exact hfault
  nested := by simp

theorem peek (k : Nat) (h : Shows marks list tape) :
    (TokenStream.peek k list).1 = (tape.peek k).1 ∧
      Shows marks (TokenStream.peek k list).2 (tape.peek k).2 := by
  rw [Tape.peek_of_fault?_eq_none h.fault? k, ← h.ahead_eq k]
  exact ⟨rfl, h⟩

theorem read (h : Shows marks list tape) :
    (TokenStream.read list).1 = tape.read.1 ∧ Shows marks (TokenStream.read list).2 tape.read.2 := by
  have hsize := congrArg List.length h.tokens
  have hahead := h.ahead_eq 0
  obtain ⟨hposition, htokens, hfault, hnested⟩ := h
  rcases tape with ⟨past, _ | ⟨fault | token, rest⟩⟩
  · have hend : ¬ list.position < list.tokens.size := by
      simp [Tape.reach, Item.tokens] at hsize hposition
      omega
    refine ⟨congrArg Except.ok hahead, ?_⟩
    simp only [TokenStream.read, advance, hend, if_false, Tape.read]
    exact ⟨hposition, htokens, hfault, hnested⟩
  · cases hfault
  · have hinside : list.position < list.tokens.size := by
      simp [Tape.reach, Item.tokens] at hsize hposition
      omega
    refine ⟨congrArg Except.ok hahead, ?_⟩
    simp only [TokenStream.read, advance, hinside, if_true, Tape.read]
    refine ⟨by simp [hposition], ?_, hfault, ?_⟩
    · rw [htokens]
      simp [Tape.reach, Item.tokens]
    · simp only [List.pairwise_cons] at hnested ⊢
      exact ⟨fun position hmem => Nat.le_succ_of_le (hnested.1 position hmem), hnested.2⟩

theorem checkpoint (h : Shows marks list tape) : Shows (⟨list.position⟩ :: marks) list tape where
  position := h.position
  tokens := h.tokens
  fault? := h.fault?
  nested := by
    have hnested := h.nested
    simp only [List.map_cons, List.pairwise_cons, List.mem_cons, forall_eq_or_imp] at hnested ⊢
    exact ⟨⟨Nat.le_refl _, hnested.1⟩, hnested⟩

theorem commit {mark : Checkpoint} (h : Shows (mark :: marks) list tape) : Shows marks list tape where
  position := h.position
  tokens := h.tokens
  fault? := h.fault?
  nested := by
    have hnested := h.nested
    simp only [List.map_cons, List.pairwise_cons, List.mem_cons, forall_eq_or_imp] at hnested ⊢
    exact ⟨hnested.1.2, hnested.2.2⟩

theorem rewind {mark : Checkpoint} (h : Shows (mark :: marks) list tape) :
    Shows marks (TokenStream.rewind mark list) (tape.rewind mark) := by
  have hnested := h.nested
  have hposition := h.position
  simp only [List.map_cons, List.pairwise_cons, List.mem_cons, forall_eq_or_imp] at hnested
  refine ⟨?_, ?_, ?_, ?_⟩
  · simp only [TokenStream.rewind, Tape.rewind, List.length_take]
    omega
  · simp only [TokenStream.rewind, Tape.rewind, Tape.reach, Item.tokens_map_ok_append]
    rw [← List.append_assoc, List.take_append_drop]
    exact h.tokens
  · rw [Tape.fault?, Tape.rewind, Item.fault?_map_ok_append]
    exact h.fault?
  · exact List.pairwise_cons.2 hnested.2

theorem reach_le (h : Shows marks list tape) : tape.reach.length ≤ TokenStream.unread list := by
  have hsize := congrArg List.length h.tokens
  have hposition := h.position
  simp only [Array.length_toList, List.length_append] at hsize
  show tape.reach.length ≤ list.tokens.size - list.position
  omega

end Shows

theorem mirrors : Mirrors Shows where
  peek k h := h.peek k
  read h := h.read
  cursor h := h.position
  checkpoint h := ⟨congrArg Checkpoint.mk h.position, h.checkpoint⟩
  rewind h := h.rewind
  commit h := h.commit
  report _ h := ⟨h.position, h.tokens, h.fault?, h.nested⟩
  reach_le h := h.reach_le

end TokenList

/-- A lexer that reads its lines on demand, keeps no more tokens than it needs and goes back by its
checkpoints answers as the list of all tokens with a position does. The replies to every list of
requests are the same, those after a failure included, and so is the cursor after each. -/
theorem Grammar.lazy_session_eq_eager (g : Grammar) (hg : ¬ g.LeftRecursive) (source : Source)
    (options : LexerOptions) {tokens : List Token} (htokens : tokenize source options = .ok tokens)
    (requests : List Request) :
    g.serveAll requests (Lexer.ofSource source options) =
      g.serveAll requests (⟨tokens.toArray, 0, []⟩ : TokenList) := by
  have hlexer := Lexer.mirrors.serveAll hg (Lexer.Shows.ofSource source options) requests
  have hlist := TokenList.mirrors.serveAll hg (TokenList.Shows.ofTokens tokens) requests
  rw [hlexer, hlist, tokenize_eq_ok htokens]

/-- Lists of numbers that are asked for where they end, where they are refused and past the end. -/
theorem Grammar.lazy_session_eq_eager_nestedLists :
    ∃ g, Draft.nestedLists.build.1 = .ok g ∧ ¬ g.LeftRecursive ∧
      let source : Source := [.text ['4', '2'], .text ['7', ' ', '+']]
      let tokens : List Token := [.scanned 1 (.number 42), .scanned 1 .endOfLine,
        .scanned 2 (.number 7), .scanned 2 (.operator "+"), .scanned 2 .endOfLine]
      let requests : List Request :=
        [.peek 2, .parse 1, .parseAll 2, .read, .starts 0, .parse 0, .parse 0, .read, .read, .read]
      tokenize source {} = .ok tokens ∧
        g.serveAll requests (Lexer.ofSource source {}) =
          g.serveAll requests (⟨tokens.toArray, 0, []⟩ : TokenList) := by
  obtain ⟨g, hbuild, -, hg⟩ := Draft.build_nestedLists
  have htokens : tokenize [.text ['4', '2'], .text ['7', ' ', '+']] {} =
      .ok [.scanned 1 (.number 42), .scanned 1 .endOfLine,
        .scanned 2 (.number 7), .scanned 2 (.operator "+"), .scanned 2 .endOfLine] := by cbv
  exact ⟨g, hbuild, hg, htokens, g.lazy_session_eq_eager hg _ _ htokens _⟩

end ParseKit
