import ParseKit.Proofs.Calls

/-! What a lexer keeps of the tokens that were taken: those after the oldest outstanding checkpoint,
and none if no checkpoint is outstanding. Main statement: `Lexer.after_trimmed`, which holds after all
calls, so that the head of a lexer without checkpoints is the front of its buffer. -/

namespace ParseKit

/-- The position of the oldest checkpoint, the given one if there is none. -/
def Checkpoint.oldest (position : Nat) : List Checkpoint → Nat
  | [] => position
  | mark :: marks => oldest mark.position marks

namespace Lexer

/-- What was dropped is all that comes before the oldest checkpoint, or all that was taken. -/
structure Trimmed (marks : List Checkpoint) (lexer : Lexer) : Prop where
  pins : lexer.pins = marks.length
  discarded : lexer.discarded = Checkpoint.oldest lexer.cursor marks

structure Fills (lexer after : Lexer) : Prop where
  head : after.head = lexer.head
  discarded : after.discarded = lexer.discarded
  pins : after.pins = lexer.pins

theorem Fills.refl (lexer : Lexer) : Fills lexer lexer := ⟨rfl, rfl, rfl⟩

theorem Fills.trans {lexer middle after : Lexer} (h : Fills lexer middle) (h' : Fills middle after) :
    Fills lexer after :=
  ⟨h'.head.trans h.head, h'.discarded.trans h.discarded, h'.pins.trans h.pins⟩

theorem finish_fills (lexer : Lexer) : Fills lexer lexer.finish := by
  unfold Lexer.finish
  split <;> exact ⟨rfl, rfl, rfl⟩

theorem readLine_fills (line : PhysicalLine) (lexer : Lexer) : Fills lexer (readLine line lexer).2 := by
  cases line with
  | undecodable => exact .refl lexer
  | text chars =>
    rw [readLine]
    dsimp only
    split <;> exact ⟨rfl, rfl, rfl⟩

theorem fillFrom_fills (k : Nat) (lines : Source) (lexer : Lexer) : Fills lexer (lexer.fillFrom k lines).2 := by
  induction lines generalizing lexer with
  | nil =>
    unfold Lexer.fillFrom
    split
    · exact .refl lexer
    · exact lexer.finish_fills
  | cons line rest ih =>
    unfold Lexer.fillFrom
    split
    · exact .refl lexer
    · have hpending : Fills lexer { lexer with pending := rest } := ⟨rfl, rfl, rfl⟩
      have hline := hpending.trans (readLine_fills line _)
      dsimp only
      split <;> rename_i heq <;> rw [heq] at hline
      · exact hline
      · exact hline.trans (ih _)

theorem peek_fills (k : Nat) (lexer : Lexer) : Fills lexer (lexer.peek k).2 := by
  have hfill := lexer.fillFrom_fills k lexer.pending
  unfold Lexer.peek fill
  split <;> rename_i heq <;> rw [heq] at hfill <;> exact hfill

namespace Trimmed

variable {marks : List Checkpoint} {lexer after : Lexer}

theorem ofSource (source : Source) (options : LexerOptions) : Trimmed [] (Lexer.ofSource source options) :=
  ⟨rfl, rfl⟩

theorem head_eq_zero (h : Trimmed [] lexer) : lexer.head = 0 := by
  have hdiscarded : lexer.discarded = lexer.discarded + lexer.head := h.discarded
  omega

theorem fills (h : Trimmed marks lexer) (hfills : Fills lexer after) : Trimmed marks after where
  pins := hfills.pins.trans h.pins
  discarded := by
    rw [hfills.discarded, cursor, hfills.discarded, hfills.head]
    exact h.discarded

theorem compact (hpins : lexer.pins = marks.length)
    (h : marks ≠ [] → lexer.discarded = Checkpoint.oldest lexer.cursor marks) :
    Trimmed marks lexer.compact := by
  unfold Lexer.compact
  split
  · next hzero =>
    obtain rfl : marks = [] := List.eq_nil_of_length_eq_zero (hpins.symm.trans hzero)
    exact ⟨hpins, rfl⟩
  · next hne =>
    refine ⟨hpins, h ?_⟩
    rintro rfl
    exact hne hpins

theorem peek (h : Trimmed marks lexer) (k : Nat) : Trimmed marks (lexer.peek k).2 :=
  h.fills (lexer.peek_fills k)

theorem read (h : Trimmed marks lexer) : Trimmed marks lexer.read.2 := by
  have hfill := h.fills (lexer.fillFrom_fills 0 lexer.pending)
  unfold Lexer.read fill
  split <;> rename_i heq <;> rw [heq] at hfill
  · exact hfill
  · exact hfill
  · refine compact hfill.pins fun hne => ?_
    obtain ⟨mark, marks, rfl⟩ := List.exists_cons_of_ne_nil hne
    exact hfill.discarded

theorem checkpoint (h : Trimmed marks lexer) :
    Trimmed ((Lexer.checkpoint lexer).1 :: marks) (Lexer.checkpoint lexer).2 where
  pins := by simp [Lexer.checkpoint, h.pins]
  discarded := h.discarded

/-- The oldest checkpoint was made where nothing had been kept, so that going back to it leads there. -/
theorem rewind {mark : Checkpoint} (h : Trimmed (mark :: marks) lexer) :
    Trimmed marks (lexer.rewind mark) where
  pins := by simp [Lexer.rewind, Lexer.trace, Lexer.report, h.pins]
  discarded := by
    have hdiscarded := h.discarded
    cases marks with
    | nil =>
      show lexer.discarded = lexer.discarded + (mark.position - lexer.discarded)
      have hmark : lexer.discarded = mark.position := hdiscarded
      omega
    | cons other marks => exact hdiscarded

theorem commit {mark : Checkpoint} (h : Trimmed (mark :: marks) lexer) : Trimmed marks lexer.commit := by
  refine compact (by simp [h.pins]) fun hne => ?_
  obtain ⟨other, others, rfl⟩ := List.exists_cons_of_ne_nil hne
  exact h.discarded

theorem serve {m : Marked Lexer} (h : Trimmed m.marks m.stream) (call : Call) :
    Trimmed (m.serve call).2.marks (m.serve call).2.stream := by
  obtain ⟨lexer, marks⟩ := m
  cases call with
  | read => exact h.read
  | next => exact h.read
  | peek k => exact h.peek k
  | checkpoint => exact h.checkpoint
  | rewind =>
    cases marks with
    | nil => exact h
    | cons mark marks => exact h.rewind
  | commit =>
    cases marks with
    | nil => exact h
    | cons mark marks => exact h.commit

end Trimmed

theorem after_trimmed (source : Source) (options : LexerOptions) (calls : List Call) :
    Trimmed (TokenStream.after (ofSource source options) calls).marks
      (TokenStream.after (ofSource source options) calls).stream :=
  Marked.run_induction (fun m => Trimmed m.marks m.stream) (fun call _ h => h.serve call) calls _
    (.ofSource source options)

end Lexer

end ParseKit
