import ParseKit.Proofs.LineNumbers
import ParseKit.Proofs.OrderedChoice
import ParseKit.Proofs.Session
import ParseKit.Proofs.Trimming

/-! What a lexer does while it is parsed. A lexer is watched by a stream that performs every operation
on it and notes the state before, the checkpoints that are outstanding and the tokens that were taken.
A parser releases the checkpoints that it asks for, whether it succeeds or fails. Main statement:
`Grammar.session_balances`, between the turns of a session no checkpoint is outstanding and no token
is kept that was taken, and before every operation within a turn the counters of the lexer are in
order. -/

namespace ParseKit

inductive Operation where
  | read
  | peek (k : Nat)
  | checkpoint
  | rewind (mark : Checkpoint)
  | commit
  deriving DecidableEq, Repr

/-- The state of a lexer before an operation, with the outstanding checkpoints, newest first, and the
tokens that were taken and not put back. -/
structure Moment where
  lexer : Lexer
  marks : List Checkpoint
  taken : List Token
  operation : Operation

/-- A lexer that is watched. With each outstanding checkpoint the tokens are held that had been taken
when it was made. -/
structure Watched where
  lexer : Lexer
  held : List (Checkpoint × List Token) := []
  taken : List Token := []
  /-- The moments before all operations, the last one first. -/
  moments : List Moment := []

def Item.taken : Item → List Token
  | .ok .endOfInput => []
  | .ok token => [token]
  | .error _ => []

namespace Watched

def marks (w : Watched) : List Checkpoint :=
  w.held.map (·.1)

def observe (operation : Operation) (w : Watched) : Watched :=
  { w with moments := ⟨w.lexer, w.marks, w.taken, operation⟩ :: w.moments }

def restored (w : Watched) : List Token :=
  match w.held with
  | [] => w.taken
  | (_, taken) :: _ => taken

instance : TokenStream Watched where
  peek k w := (w.lexer.peek k).map id fun lexer => { w.observe (.peek k) with lexer := lexer }
  read w :=
    let (item, lexer) := w.lexer.read
    (item, { w.observe .read with lexer := lexer, taken := w.taken ++ Item.taken item })
  cursor w := w.lexer.cursor
  checkpoint w :=
    let (mark, lexer) := w.lexer.checkpoint
    (mark, { w.observe .checkpoint with lexer := lexer, held := (mark, w.taken) :: w.held })
  rewind mark w :=
    { w.observe (.rewind mark) with
      lexer := w.lexer.rewind mark
      held := w.held.tail
      taken := w.restored }
  commit w := { w.observe .commit with lexer := w.lexer.commit, held := w.held.tail }
  report note w := { w with lexer := w.lexer.report note }
  unread w := w.lexer.unread

theorem simulation : Simulation fun _ (w : Watched) (lexer : Lexer) => w.lexer = lexer where
  peek _ h := h ▸ ⟨rfl, rfl⟩
  read h := h ▸ ⟨rfl, rfl⟩
  cursor h := h ▸ rfl
  checkpoint h := h ▸ ⟨rfl, rfl⟩
  rewind h := h ▸ rfl
  commit h := h ▸ rfl
  report _ h := h ▸ rfl

end Watched

/-- The counters of the lexer are in order. The head stands in the buffer, what was dropped comes
before every checkpoint, and what was dropped or stands before the head is what was taken. -/
structure Moment.Regular (moment : Moment) : Prop where
  head_le : moment.lexer.head ≤ moment.lexer.buffer.size
  discarded_le : ∀ mark ∈ moment.marks, moment.lexer.discarded ≤ mark.position
  taken : moment.lexer.discarded + moment.lexer.head = moment.taken.length
  pins : moment.lexer.pins = moment.marks.length

/-- The operation finds what it needs: going back is to the newest checkpoint, there is one to release,
and looking further than to the next token starts at the front of the buffer. -/
def Moment.Prepared (moment : Moment) : Prop :=
  match moment.operation with
  | .peek k => moment.lexer.head = 0 ∨ k = 0
  | .rewind mark => moment.marks.head? = some mark
  | .commit => moment.marks ≠ []
  | .read | .checkpoint => True

namespace Moment.Regular

variable {moment : Moment} (h : moment.Regular) (hprepared : moment.Prepared)
include h hprepared

theorem of_rewind (mark : Checkpoint) (hoperation : moment.operation = .rewind mark) :
    mark ∈ moment.marks ∧ moment.lexer.discarded ≤ mark.position ∧ 1 ≤ moment.lexer.pins := by
  rw [Prepared, hoperation] at hprepared
  have hmem : mark ∈ moment.marks := List.mem_of_head? hprepared
  exact ⟨hmem, h.discarded_le mark hmem, h.pins ▸ List.length_pos_of_mem hmem⟩

theorem of_commit (hoperation : moment.operation = .commit) : 1 ≤ moment.lexer.pins := by
  rw [Prepared, hoperation] at hprepared
  exact h.pins ▸ List.length_pos_of_ne_nil hprepared

theorem of_peek (k limit : Nat) (hoperation : moment.operation = .peek k) (hk : k < limit)
    (hsize : moment.lexer.buffer.size < limit) : moment.lexer.head + k < limit := by
  rw [Prepared, hoperation] at hprepared
  have hhead := h.head_le
  rcases hprepared with hzero | hzero <;> omega

end Moment.Regular

namespace Watched

/-- The watched lexer shows a tape of the items, of which the noted tokens were taken. It keeps no more
than its checkpoints need, each of them holds what had been taken at its position, and all moments
were in order. -/
structure Steady (items : List Item) (w : Watched) : Prop where
  shows : ∃ tape : Tape, tape.past = w.taken ∧ tape.Within items ∧ Lexer.Shows w.marks w.lexer tape
  trimmed : Lexer.Trimmed w.marks w.lexer
  saved : ∀ entry ∈ w.held, entry.2 = w.taken.take entry.1.position
  moments : ∀ moment ∈ w.moments, moment.Regular ∧ moment.Prepared

namespace Steady

variable {items : List Item} {w : Watched} (h : w.Steady items)
include h

theorem regular (operation : Operation) : Moment.Regular ⟨w.lexer, w.marks, w.taken, operation⟩ := by
  obtain ⟨tape, hpast, -, hshows⟩ := h.shows
  exact ⟨hshows.head_le, hshows.discarded, hpast ▸ hshows.cursor, hshows.pins⟩

theorem observe {operation : Operation}
    (hprepared : Moment.Prepared ⟨w.lexer, w.marks, w.taken, operation⟩) :
    ∀ moment ∈ (w.observe operation).moments, moment.Regular ∧ moment.Prepared :=
  List.forall_mem_cons.2 ⟨⟨h.regular operation, hprepared⟩, h.moments⟩

theorem peek {k : Nat} (hk : w.lexer.head = 0 ∨ k = 0) : (TokenStream.peek k w).2.Steady items := by
  obtain ⟨tape, hpast, hwithin, hshows⟩ := h.shows
  obtain ⟨-, hafter⟩ := hshows.peek k
  obtain ⟨-, hahead⟩ := Tape.look_within k hwithin.2
  exact ⟨⟨(tape.peek k).2, hpast, ⟨hwithin.1, hahead⟩, hafter⟩, h.trimmed.peek k, h.saved, h.observe hk⟩

theorem read (hitems : .ok .endOfInput ∉ items) : (TokenStream.read w).2.Steady items := by
  obtain ⟨tape, hpast, hwithin, hshows⟩ := h.shows
  obtain ⟨hitem, hafter⟩ := hshows.read
  have htaken : tape.read.2.past = w.taken ++ Item.taken w.lexer.read.1 := by
    rw [hitem, ← hpast]
    rcases tape with ⟨past, _ | ⟨fault | token, rest⟩⟩
    · exact (List.append_nil past).symm
    · exact (List.append_nil past).symm
    -- the end of the input is no item, so that a token that is read is noted
    · cases token with
      | endOfInput => exact absurd (hwithin.2 (List.mem_cons_self ..)) hitems
      | scanned line lexeme => rfl
  refine ⟨⟨tape.read.2, htaken, hwithin.read.2, hafter⟩, h.trimmed.read, fun entry hmem => ?_,
    h.observe trivial⟩
  have hposition : entry.1.position ≤ w.taken.length := by
    rw [← hpast, ← hshows.cursor]
    exact (List.pairwise_cons.1 hshows.nested).1 _ (List.mem_map_of_mem (List.mem_map_of_mem hmem))
  show entry.2 = (w.taken ++ Item.taken w.lexer.read.1).take entry.1.position
  rw [List.take_append_of_le_length hposition]
  exact h.saved entry hmem

theorem checkpoint : (TokenStream.checkpoint w).2.Steady items := by
  obtain ⟨tape, hpast, hwithin, hshows⟩ := h.shows
  refine ⟨⟨tape, hpast, hwithin, hshows.checkpoint⟩, h.trimmed.checkpoint, ?_, h.observe trivial⟩
  refine List.forall_mem_cons.2 ⟨?_, h.saved⟩
  have hposition : w.lexer.cursor = w.taken.length := by rw [hshows.cursor, hpast]
  exact (List.take_of_length_le (Nat.le_of_eq hposition.symm)).symm

theorem report (note : Note) : (TokenStream.report note w).Steady items := by
  obtain ⟨tape, hpast, hwithin, hshows⟩ := h.shows
  exact ⟨⟨tape, hpast, hwithin, hshows.report note⟩, ⟨h.trimmed.pins, h.trimmed.discarded⟩, h.saved,
    h.moments⟩

section Release

variable {mark : Checkpoint} {taken : List Token} {rest : List (Checkpoint × List Token)}
  (hheld : w.held = (mark, taken) :: rest)
include hheld

omit h in
theorem marks_of_held : w.marks = mark :: rest.map (·.1) := by
  rw [marks, hheld]
  rfl

omit h in
theorem marks_of_tail {after : Watched} (hafter : after.held = w.held.tail) :
    after.marks = rest.map (·.1) := by
  rw [marks, hafter, hheld, List.tail_cons]

theorem rewind : (TokenStream.rewind mark w).Steady items := by
  have hmarks := marks_of_held hheld
  obtain ⟨tape, hpast, hwithin, hshows⟩ := h.shows
  have htrimmed := h.trimmed
  rw [hmarks] at hshows htrimmed
  obtain ⟨hsaved, hothers⟩ := List.forall_mem_cons.1 (hheld ▸ h.saved)
  have hrestored : w.restored = w.taken.take mark.position := by
    rw [restored, hheld]
    exact hsaved
  have hleft : (TokenStream.rewind mark w).marks = rest.map (·.1) := marks_of_tail hheld rfl
  have hnested := (List.pairwise_cons.1 (List.pairwise_cons.1 hshows.nested).2).1
  refine ⟨⟨tape.rewind mark, ?_, hwithin.rewind mark, ?_⟩, ?_, fun entry hmem => ?_, h.observe ?_⟩
  · show tape.past.take mark.position = w.restored
    rw [hrestored, hpast]
  · rw [hleft]
    exact hshows.rewind
  · rw [hleft]
    exact htrimmed.rewind
  · have hmem : entry ∈ rest := by simpa [TokenStream.rewind, hheld] using hmem
    have hle : entry.1.position ≤ mark.position :=
      hnested _ (List.mem_map_of_mem (List.mem_map_of_mem hmem))
    show entry.2 = w.restored.take entry.1.position
    rw [hrestored, List.take_take, Nat.min_eq_left hle]
    exact hothers entry hmem
  · show w.marks.head? = some mark
    rw [hmarks, List.head?_cons]

theorem commit : (TokenStream.commit w).Steady items := by
  have hmarks := marks_of_held hheld
  obtain ⟨tape, hpast, hwithin, hshows⟩ := h.shows
  have htrimmed := h.trimmed
  rw [hmarks] at hshows htrimmed
  have hleft : (TokenStream.commit w).marks = rest.map (·.1) := marks_of_tail hheld rfl
  refine ⟨⟨tape, hpast, hwithin, ?_⟩, ?_, fun entry hmem => ?_, h.observe ?_⟩
  · rw [hleft]
    exact hshows.commit
  · rw [hleft]
    exact htrimmed.commit
  · exact h.saved entry (List.mem_of_mem_tail hmem)
  · show w.marks ≠ []
    rw [hmarks]
    exact List.cons_ne_nil _ _

end Release

theorem head_eq_zero (hheld : w.held = []) : w.lexer.head = 0 := by
  have htrimmed := h.trimmed
  rw [marks, hheld] at htrimmed
  exact htrimmed.head_eq_zero

end Steady

/-- The parser leaves a steady lexer steady and releases what checkpoints it asks for, also when it
fails. -/
def Balances (items : List Item) {α : Type} (p : ParseM Watched α) : Prop :=
  ∀ w : Watched, w.Steady items → (p w).2.Steady items ∧ (p w).2.held = w.held

namespace Balances

variable {items : List Item} {α β : Type}

theorem bind {p : ParseM Watched α} {f : α → ParseM Watched β} (hp : Balances items p)
    (hf : ∀ a, Balances items (f a)) : Balances items (p >>= f) := by
  intro w h
  obtain ⟨hsteady, hheld⟩ := hp w h
  rw [ParseM.run_bind]
  rcases hrun : p w with ⟨error | a, w'⟩ <;> rw [hrun] at hsteady hheld
  · exact ⟨hsteady, hheld⟩
  · obtain ⟨hsteady', hheld'⟩ := hf a w' hsteady
    exact ⟨hsteady', hheld'.trans hheld⟩

/-- The checkpoint of an attempt is the newest one when the attempt is over. -/
theorem tryOr {note : ParseError → String} {p : ParseM Watched α} {next : ParseError → ParseM Watched α}
    (hp : Balances items p)
    (hnext : ∀ error, error.isRecoverable = true → Balances items (next error)) :
    Balances items (p.tryOr note next) := by
  intro w h
  obtain ⟨hsteady, hheld⟩ := hp _ h.checkpoint
  rw [ParseM.run_tryOr]
  rcases hrun : p (TokenStream.checkpoint w).2 with ⟨error | a, w'⟩ <;> rw [hrun] at hsteady hheld
  -- an error goes back to the checkpoint, whether another parser is tried after it or not
  · have hback : (TokenStream.rewind (TokenStream.checkpoint w).1 w').held = w.held :=
      congrArg List.tail hheld
    by_cases hrecoverable : error.isRecoverable = true
    · simp only [hrecoverable, if_true]
      obtain ⟨hlast, hsame⟩ := hnext error hrecoverable _ ((hsteady.report _).rewind hheld)
      exact ⟨hlast, hsame.trans hback⟩
    · simp only [hrecoverable]
      exact ⟨hsteady.rewind hheld, hback⟩
  · exact ⟨hsteady.commit hheld, congrArg List.tail hheld⟩

variable (hitems : .ok .endOfInput ∉ items)
include hitems

theorem parametric : Parametric (fun _ => True) fun p (_ : ParseM Watched _) => Balances items p where
  pure _ := fun _ h => ⟨h, rfl⟩
  bind hp hf := hp.bind hf
  throw _ := fun _ h => ⟨h, rfl⟩
  exhausted := fun _ h => ⟨h, rfl⟩
  recoverable _ := trivial
  peek := fun _ h => by
    rw [ParseM.run_peek]
    exact ⟨h.peek (.inr rfl), rfl⟩
  read := fun _ h => by
    rw [ParseM.run_read]
    exact ⟨h.read hitems, rfl⟩
  cursor := fun _ h => ⟨h, rfl⟩
  tryOr hp hnext := tryOr hp hnext

variable (g : Grammar)

theorem parse (id : RuleId) : Balances items (g.parse id) := by
  intro w h
  rw [Grammar.run_parse]
  exact (parametric hitems).parseBounded (.trivial g) (.refl _) trivial w h

theorem starts (id : RuleId) : Balances items (g.starts id) :=
  (parametric hitems).starts (Grammar.Raises.trivial g).toRefers trivial

theorem parseAll (id : RuleId) : Balances items (g.parseAll id) := by
  intro w h
  rw [Grammar.run_parseAll]
  exact (parametric hitems).parseUpTo (.trivial g) (.refl _) (.refl _) trivial w h

end Balances

end Watched

/-- A turn of a session: the next token, or none at the end of the input, or a request. -/
inductive Turn where
  | next
  | ask (request : Request)
  deriving DecidableEq, Repr

inductive Response where
  | next (result : Except LexError (Option Token))
  | reply (reply : Reply)

namespace Grammar

variable {σ : Type} [TokenStream σ]

def perform (g : Grammar) (turn : Turn) (s : σ) : Response × σ :=
  match turn with
  | .next => (TokenStream.read s).map (fun item => .next (Item.next item)) id
  | .ask request => (g.serve request s).map .reply id

def performAll (g : Grammar) : List Turn → σ → List Response × σ
  | [], s => ([], s)
  | turn :: rest, s =>
    let (response, s) := g.perform turn s
    let (responses, s) := g.performAll rest s
    (response :: responses, s)

end Grammar

namespace Watched

variable (g : Grammar)

theorem serve (request : Request) (w : Watched) : (g.serve request w).1 = (g.serve request w.lexer).1 ∧
    (g.serve request w).2.lexer = (g.serve request w.lexer).2 := by
  have hunread : TokenStream.unread w = TokenStream.unread w.lexer := rfl
  cases request with
  | read | peek k => exact ⟨rfl, rfl⟩
  | starts id => exact (simulation.starts g id [] w _ rfl).imp_left (congrArg Reply.verdict)
  | parse id =>
    have hagree := simulation.parseBounded g (TokenStream.unread w) id [] w _ rfl
    simp only [Grammar.serve, Grammar.run_parse, ← hunread]
    exact hagree.imp_left (congrArg Reply.node)
  | parseAll id =>
    have hagree := simulation.parseUpTo g (TokenStream.unread w) id (TokenStream.unread w + 1) [] w _ rfl
    simp only [Grammar.serve, Grammar.run_parseAll, ← hunread]
    exact hagree.imp_left (congrArg Reply.nodes)

theorem perform (turn : Turn) (w : Watched) : (g.perform turn w).1 = (g.perform turn w.lexer).1 ∧
    (g.perform turn w).2.lexer = (g.perform turn w.lexer).2 := by
  cases turn with
  | next => exact ⟨rfl, rfl⟩
  | ask request => exact (serve g request w).imp_left (congrArg Response.reply)

theorem performAll (turns : List Turn) (w : Watched) :
    (g.performAll turns w).1 = (g.performAll turns w.lexer).1 ∧
      (g.performAll turns w).2.lexer = (g.performAll turns w.lexer).2 := by
  induction turns generalizing w with
  | nil => exact ⟨rfl, rfl⟩
  | cons turn rest ih =>
    obtain ⟨hresponse, hlexer⟩ := perform g turn w
    obtain ⟨hresponses, hlast⟩ := ih (g.perform turn w).2
    rw [hlexer] at hresponses hlast
    exact ⟨congrArg₂ List.cons hresponse hresponses, hlast⟩

section Steady

variable {items : List Item} (hitems : .ok .endOfInput ∉ items)
include hitems

theorem Steady.perform {w : Watched} (h : w.Steady items) (hheld : w.held = []) (turn : Turn) :
    (g.perform turn w).2.Steady items ∧ (g.perform turn w).2.held = [] := by
  rcases turn with _ | request
  · exact ⟨h.read hitems, hheld⟩
  cases request with
  | read => exact ⟨h.read hitems, hheld⟩
  | peek k => exact ⟨h.peek (.inl (h.head_eq_zero hheld)), hheld⟩
  | parse id => exact (Balances.parse hitems g id w h).imp_right (·.trans hheld)
  | starts id => exact (Balances.starts hitems g id w h).imp_right (·.trans hheld)
  | parseAll id => exact (Balances.parseAll hitems g id w h).imp_right (·.trans hheld)

theorem Steady.performAll {w : Watched} (h : w.Steady items) (hheld : w.held = []) (turns : List Turn) :
    (g.performAll turns w).2.Steady items ∧ (g.performAll turns w).2.held = [] := by
  induction turns generalizing w with
  | nil => exact ⟨h, hheld⟩
  | cons turn rest ih =>
    obtain ⟨hsteady, hnone⟩ := h.perform g hitems hheld turn
    exact ih hsteady hnone

end Steady

end Watched

theorem Source.endOfInput_notMem_items (options : LexerOptions) (line : Nat) (source : Source) :
    .ok .endOfInput ∉ source.items options line := by
  induction source generalizing line with
  | nil => exact List.not_mem_nil
  | cons physical rest ih =>
    rw [items_cons, List.mem_append]
    rintro (hmem | hmem)
    · cases line?_of_mem_lineItems hmem
    · exact ih _ hmem

theorem Watched.Steady.ofSource (source : Source) (options : LexerOptions) :
    (⟨Lexer.ofSource source options, [], [], []⟩ : Watched).Steady (source.items options 0) where
  shows := ⟨_, rfl, ⟨List.nil_subset _, List.Subset.refl _⟩, .ofSource source options⟩
  trimmed := .ofSource source options
  saved := by simp
  moments := by simp

/-- A session of any turns with any grammar goes the same whether the lexer is watched or not. After
the turns, failed ones included, no checkpoint is outstanding and the head is at the front of the
buffer, with as many tokens dropped as were taken. Before each operation within the turns the counters
are in order, so that going back and releasing never subtract too much, and looking ahead never adds
up to more than a counter can hold. -/
theorem Grammar.session_balances (g : Grammar) (source : Source) (options : LexerOptions)
    (turns : List Turn) :
    let lexer := Lexer.ofSource source options
    let plain := g.performAll turns lexer
    let watched := g.performAll turns (⟨lexer, [], [], []⟩ : Watched)
    (watched.1 = plain.1 ∧ watched.2.lexer = plain.2) ∧
    (watched.2.marks = [] ∧ plain.2.pins = 0 ∧ plain.2.head = 0 ∧
      plain.2.discarded = watched.2.taken.length) ∧
    ∀ moment ∈ watched.2.moments, moment.Regular ∧
      (∀ mark, moment.operation = .rewind mark →
        mark ∈ moment.marks ∧ moment.lexer.discarded ≤ mark.position ∧ 1 ≤ moment.lexer.pins) ∧
      (moment.operation = .commit → 1 ≤ moment.lexer.pins) ∧
      ∀ k limit, moment.operation = .peek k → k < limit → moment.lexer.buffer.size < limit →
        moment.lexer.head + k < limit := by
  intro lexer plain watched
  have hsame := Watched.performAll g turns ⟨lexer, [], [], []⟩
  obtain ⟨hsteady, hheld⟩ := (Watched.Steady.ofSource source options).performAll g
    (source.endOfInput_notMem_items options 0) rfl turns
  have hmarks : watched.2.marks = [] := List.map_eq_nil_iff.2 hheld
  have hlast := hsteady.regular .read
  have hpins : plain.2.pins = 0 := by
    rw [← hsame.2]
    exact hlast.pins.trans (congrArg List.length hmarks)
  have hhead : plain.2.head = 0 := by
    rw [← hsame.2]
    exact hsteady.head_eq_zero hheld
  have hdiscarded : plain.2.discarded = watched.2.taken.length := by
    have htaken : watched.2.lexer.discarded + watched.2.lexer.head = watched.2.taken.length := hlast.taken
    rw [hsame.2, hhead, Nat.add_zero] at htaken
    exact htaken
  refine ⟨hsame, ⟨hmarks, hpins, hhead, hdiscarded⟩, fun moment hmem => ?_⟩
  obtain ⟨hregular, hprepared⟩ := hsteady.moments moment hmem
  exact ⟨hregular, hregular.of_rewind hprepared, hregular.of_commit hprepared, hregular.of_peek hprepared⟩

/-- An alternative that is refused after its token was taken, one that is not, and the end of the line. -/
theorem Grammar.session_balances_smallNumbers : ∃ g, Draft.smallNumbers.build.1 = .ok g ∧
    let lexer := Lexer.ofSource [.text ['4', '2']] {}
    let watched := (g.performAll [.ask (.parse 2), .next] (⟨lexer, [], [], []⟩ : Watched)).2
    watched.moments.reverse.map (fun moment => (moment.operation, moment.lexer.head)) =
        [(.peek 0, 0), (.checkpoint, 0), (.peek 0, 0), (.read, 0), (.rewind ⟨0⟩, 1), (.peek 0, 0),
          (.checkpoint, 0), (.peek 0, 0), (.read, 0), (.commit, 1), (.read, 0)] ∧
      watched.marks = [] ∧ ∀ moment ∈ watched.moments, moment.Regular := by
  obtain ⟨g, hbuild⟩ : ∃ g, Draft.smallNumbers.build.1 = .ok g := ⟨_, rfl⟩
  obtain ⟨-, ⟨hmarks, -⟩, hmoments⟩ :=
    g.session_balances [.text ['4', '2']] {} [.ask (.parse 2), .next]
  refine ⟨g, hbuild, ?_, hmarks, fun moment hmem => (hmoments moment hmem).1⟩
  cases hbuild
  decide +kernel

end ParseKit
