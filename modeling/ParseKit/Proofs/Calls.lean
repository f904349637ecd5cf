import ParseKit.Proofs.LexerTape

/-! Calls to a stream, one after the other, by someone who keeps the checkpoints. Main statements:
`Simulation.run`, streams that answer every operation alike answer all calls alike, and
`Lexer.answers_eq_tape`, a lexer answers all calls as the tape of its source does, also those after an
error. -/

namespace ParseKit

/-- What may be asked of a stream. Checkpoints are released in nested order, the newest first. -/
inductive Call where
  | read
  /-- The next token, or none at the end of the input. -/
  | next
  /-- The token `k` places ahead. -/
  | peek (k : Nat)
  | checkpoint
  /-- Goes back to the newest checkpoint and releases it. -/
  | rewind
  /-- Keeps what was taken since the newest checkpoint and releases it. -/
  | commit
  deriving DecidableEq, Repr

inductive Answer where
  | token (item : Item)
  | next (item : Except LexError (Option Token))
  | done

/-- A stream, and the checkpoints that it gave out and that are not released, the newest first. -/
structure Marked (σ : Type) where
  stream : σ
  marks : List Checkpoint := []

namespace Marked

variable {σ : Type} [TokenStream σ]

/-- Where no checkpoint is outstanding there is nothing to go back to or to release. -/
def serve (call : Call) (m : Marked σ) : Answer × Marked σ :=
  match call with
  | .read => (TokenStream.read m.stream).map .token fun s => { m with stream := s }
  | .next =>
    (TokenStream.read m.stream).map (fun item => .next (Item.next item)) fun s => { m with stream := s }
  | .peek k => (TokenStream.peek k m.stream).map .token fun s => { m with stream := s }
  | .checkpoint =>
    let (mark, s) := TokenStream.checkpoint m.stream
    (.done, ⟨s, mark :: m.marks⟩)
  | .rewind =>
    match m.marks with
    | [] => (.done, m)
    | mark :: marks => (.done, ⟨TokenStream.rewind mark m.stream, marks⟩)
  | .commit =>
    match m.marks with
    | [] => (.done, m)
    | _ :: marks => (.done, ⟨TokenStream.commit m.stream, marks⟩)

/-- The answers to a list of calls, each with the cursor after it, and the stream at the end. -/
def run : List Call → Marked σ → List (Answer × Nat) × Marked σ
  | [], m => ([], m)
  | call :: calls, m =>
    let (answer, m') := m.serve call
    let (answers, last) := run calls m'
    ((answer, TokenStream.cursor m'.stream) :: answers, last)

@[simp] theorem run_nil (m : Marked σ) : m.run [] = ([], m) := rfl

@[simp] theorem run_cons (call : Call) (calls : List Call) (m : Marked σ) : m.run (call :: calls) =
    (((m.serve call).1, TokenStream.cursor (m.serve call).2.stream) :: ((m.serve call).2.run calls).1,
      ((m.serve call).2.run calls).2) := rfl

theorem run_induction (P : Marked σ → Prop) (step : ∀ call m, P m → P (m.serve call).2)
    (calls : List Call) (m : Marked σ) (h : P m) : P (m.run calls).2 := by
  induction calls generalizing m with
  | nil => exact h
  | cons call calls ih => exact ih _ (step call m h)

end Marked

namespace TokenStream

variable {σ : Type} [TokenStream σ]

def answers (s : σ) (calls : List Call) : List (Answer × Nat) :=
  ((⟨s, []⟩ : Marked σ).run calls).1

/-- A stream after a list of calls, with the checkpoints that are outstanding then. -/
def after (s : σ) (calls : List Call) : Marked σ :=
  ((⟨s, []⟩ : Marked σ).run calls).2

end TokenStream

namespace Simulation

variable {σ τ : Type} [TokenStream σ] [TokenStream τ] {R : List Checkpoint → σ → τ → Prop}
  (sim : Simulation R) {m : Marked σ} {n : Marked τ} (hmarks : m.marks = n.marks)
  (h : R m.marks m.stream n.stream)
include sim hmarks h

theorem serve (call : Call) : (m.serve call).1 = (n.serve call).1 ∧
    (m.serve call).2.marks = (n.serve call).2.marks ∧
      R (m.serve call).2.marks (m.serve call).2.stream (n.serve call).2.stream := by
  obtain ⟨s, marks⟩ := m
  obtain ⟨t, marks'⟩ := n
  obtain rfl : marks = marks' := hmarks
  cases call with
  | read =>
    obtain ⟨hanswer, hstate⟩ := sim.read h
    exact ⟨congrArg Answer.token hanswer, rfl, hstate⟩
  | next =>
    obtain ⟨hanswer, hstate⟩ := sim.read h
    exact ⟨congrArg (fun item => Answer.next (Item.next item)) hanswer, rfl, hstate⟩
  | peek k =>
    obtain ⟨hanswer, hstate⟩ := sim.peek k h
    exact ⟨congrArg Answer.token hanswer, rfl, hstate⟩
  | checkpoint =>
    obtain ⟨hmark, hstate⟩ := sim.checkpoint h
    exact ⟨rfl, congrArg (· :: marks) hmark, hstate⟩
  | rewind =>
    cases marks with
    | nil => exact ⟨rfl, rfl, h⟩
    | cons mark marks => exact ⟨rfl, rfl, sim.rewind h⟩
  | commit =>
    cases marks with
    | nil => exact ⟨rfl, rfl, h⟩
    | cons mark marks => exact ⟨rfl, rfl, sim.commit h⟩

theorem run (calls : List Call) : (m.run calls).1 = (n.run calls).1 ∧
    (m.run calls).2.marks = (n.run calls).2.marks ∧
      R (m.run calls).2.marks (m.run calls).2.stream (n.run calls).2.stream := by
  induction calls generalizing m n with
  | nil => exact ⟨rfl, hmarks, h⟩
  | cons call calls ih =>
    obtain ⟨hanswer, hmarks', hstate⟩ := sim.serve hmarks h call
    obtain ⟨hanswers, hlast⟩ := ih hmarks' hstate
    refine ⟨?_, hlast⟩
    rw [Marked.run_cons, Marked.run_cons, hanswer, sim.cursor hstate, hanswers]

end Simulation

namespace Lexer

variable (source : Source) (options : LexerOptions) (calls : List Call)

/-- A lexer answers calls as the tape of its source does, also after errors. -/
theorem answers_eq_tape : TokenStream.answers (ofSource source options) calls =
    TokenStream.answers (⟨[], source.items options 0⟩ : Tape) calls :=
  (Lexer.simulation.run rfl (.ofSource source options) calls).1

theorem after_shows : Shows (TokenStream.after (ofSource source options) calls).marks
    (TokenStream.after (ofSource source options) calls).stream
    (TokenStream.after (⟨[], source.items options 0⟩ : Tape) calls).stream :=
  (Lexer.simulation.run rfl (.ofSource source options) calls).2.2

end Lexer

end ParseKit
