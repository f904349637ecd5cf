import ParseKit.Lexer
import ParseKit.Proofs.Simulation
import ParseKit.Proofs.Tape

/-! The lexer is a tape in disguise: its buffer holds the end of what was taken and the beginning of
what is ahead, and the lines it has not read yet hold the rest. Main statement: `Lexer.simulation`,
every operation of the lexer is that of the tape, whatever lines do not scan. -/

namespace ParseKit

namespace Tape

theorem look_map_ok (us : List Token) (k : Nat) (h : k < us.length) (items : List Item) :
    look k (us.map .ok ++ items) = (.ok us[k], us.map .ok ++ items) := by
  induction us generalizing k with
  | nil => simp at h
  | cons u us ih =>
    cases k with
    | zero => rfl
    | succ k => simp [look, ih k (by simpa using h)]

theorem look_past_tokens (us : List Token) (k : Nat) (h : us.length ≤ k) (items : List Item) :
    look k (us.map .ok ++ items) =
      ((look (k - us.length) items).1, us.map .ok ++ (look (k - us.length) items).2) := by
  induction us generalizing k with
  | nil => simp
  | cons u us ih =>
    cases k with
    | zero => simp at h
    | succ k => simp [look, ih k (by simpa using h)]

/-- Where no fault comes, looking ahead finds the token that stands there and changes nothing. -/
theorem peek_of_fault?_eq_none {tape : Tape} (h : tape.fault? = none) (k : Nat) :
    tape.peek k = (.ok (tape.reach.getD k .endOfInput), tape) := by
  have hahead : tape.ahead = tape.reach.map .ok ++ [] :=
    (Item.eq_map_ok_of_fault?_eq_none h).trans (List.append_nil _).symm
  by_cases hk : k < tape.reach.length
  · have hlook := look_map_ok tape.reach k hk []
    rw [← hahead] at hlook
    simp [peek, hlook, hk]
  · have hlook := look_past_tokens tape.reach k (Nat.le_of_not_lt hk) []
    simp only [look, ← hahead] at hlook
    simp [peek, hlook, hk]

theorem peek_zero_of_fault {tape : Tape} {fault : LexError} (h : (tape.peek 0).1 = .error fault) :
    tape.peek 0 = tape.read := by
  rcases tape with ⟨past, _ | ⟨_ | token, rest⟩⟩
  · cases h
  · rfl
  · cases h

theorem read_of_nil {tape : Tape} (h : tape.ahead = []) : tape.read = (.ok .endOfInput, tape) := by
  obtain ⟨past, ahead⟩ := tape
  cases h
  rfl

end Tape

namespace Lexer

theorem next?_eq (lexer : Lexer) : lexer.next? = lexer.read.map Item.next id := by
  rw [next?]
  rcases lexer.read with ⟨_ | _ | _, after⟩ <;> rfl

def pendingItems (lexer : Lexer) : List Item :=
  lexer.pending.items lexer.options lexer.lineNumber

/-- The items that are still to come: the rest of the buffer, and the lines after it. -/
def ahead (lexer : Lexer) : List Item :=
  (lexer.buffer.toList.drop lexer.head).map .ok ++ lexer.pendingItems

/-- The tokens that can be taken before a fault is met. -/
def reach (lexer : Lexer) : List Token :=
  Item.tokens lexer.ahead

/-- `lexer` becomes `lexer'` by taking the tokens `us`, and perhaps looking further. -/
structure Takes (lexer : Lexer) (us : List Token) (lexer' : Lexer) : Prop where
  ahead : lexer.ahead = us.map .ok ++ lexer'.ahead
  cursor : lexer'.cursor = lexer.cursor + us.length

/-- The lexer holds the tape: `kept` and `ahead` cut the buffer at the head. Under outstanding
checkpoints, newest first, nothing after the oldest of them was dropped. -/
structure Shows (marks : List Checkpoint) (lexer : Lexer) (tape : Tape) : Prop where
  cursor : lexer.cursor = tape.past.length
  kept : tape.past.drop lexer.discarded = lexer.buffer.toList.take lexer.head
  ahead : tape.ahead = lexer.ahead
  head_le : lexer.head ≤ lexer.buffer.size
  pins : lexer.pins = marks.length
  nested : (lexer.cursor :: marks.map (·.position)).Pairwise (· ≥ ·)
  discarded : ∀ mark ∈ marks, lexer.discarded ≤ mark.position

@[simp] theorem finish_buffer (lexer : Lexer) : lexer.finish.buffer = lexer.buffer := by
  unfold finish; split <;> rfl

@[simp] theorem finish_head (lexer : Lexer) : lexer.finish.head = lexer.head := by
  unfold finish; split <;> rfl

@[simp] theorem finish_pending (lexer : Lexer) : lexer.finish.pending = lexer.pending := by
  unfold finish; split <;> rfl

theorem toList_extract_size (buffer : Array Token) (head : Nat) :
    (buffer.extract head buffer.size).toList = buffer.toList.drop head := by
  rw [Array.toList_extract, List.extract_eq_take_drop, List.take_of_length_le (by simp)]

namespace Shows

variable {marks : List Checkpoint} {lexer : Lexer} {tape : Tape}

theorem ahead_eq (h : Shows marks lexer tape) :
    tape.ahead = (lexer.buffer.toList.drop lexer.head).map .ok ++ lexer.pendingItems :=
  h.ahead

theorem reach (h : Shows marks lexer tape) : tape.reach = lexer.reach := by
  rw [Tape.reach, h.ahead, Lexer.reach]

theorem takes {marks' : List Checkpoint} {lexer' : Lexer} {tape' : Tape} {us : List Token}
    (h : Shows marks lexer tape) (h' : Shows marks' lexer' tape') (hleads : tape.Leads us tape') :
    lexer.Takes us lexer' where
  ahead := by rw [← h.ahead, ← h'.ahead, hleads.ahead]
  cursor := by rw [h.cursor, h'.cursor, hleads.past, List.length_append]

theorem ofSource (source : Source) (options : LexerOptions) :
    Shows [] (Lexer.ofSource source options) ⟨[], source.items options 0⟩ where
  cursor := rfl
  kept := rfl
  ahead := rfl
  head_le := Nat.le_refl _
  pins := rfl
  nested := by simp
  discarded := by simp

theorem report (note : Note) (h : Shows marks lexer tape) :
    Shows marks (lexer.report note) tape :=
  ⟨h.cursor, h.kept, h.ahead, h.head_le, h.pins, h.nested, h.discarded⟩

theorem finish (h : Shows marks lexer tape) : Shows marks lexer.finish tape := by
  unfold Lexer.finish
  split
  · exact ⟨h.cursor, h.kept, h.ahead, h.head_le, h.pins, h.nested, h.discarded⟩
  · exact h

/-- A line that is read moves its tokens from the lines to the buffer, or drops its fault. -/
theorem readLine (line : PhysicalLine) (rest : Source) (h : Shows marks lexer tape)
    (hp : lexer.pending = line :: rest) :
    match Lexer.readLine line { lexer with pending := rest } with
    | (.ok (), lexer') =>
      Shows marks lexer' tape ∧ lexer'.pending = rest ∧ lexer'.head = lexer.head
    | (.error fault, lexer') => ∃ items,
      lexer.pendingItems = .error fault :: items ∧
        Shows marks lexer'
          { tape with ahead := (lexer.buffer.toList.drop lexer.head).map .ok ++ items } := by
  have hitems : lexer.pendingItems = Source.items lexer.options lexer.lineNumber (line :: rest) := by
    rw [pendingItems, hp]
  cases line with
  | undecodable =>
    refine ⟨_, hitems.trans rfl, h.cursor, h.kept, rfl, h.head_le, h.pins, h.nested, h.discarded⟩
  | text chars =>
    cases hscan : Scan.lexemes chars with
    | error fault =>
      simp only [Lexer.readLine, hscan]
      refine ⟨_, by rw [hitems, Source.items, hscan], ?_⟩
      exact ⟨h.cursor, h.kept, rfl, h.head_le, h.pins, h.nested, h.discarded⟩
    | ok lexemes =>
      simp only [Lexer.readLine, hscan]
      have hle : lexer.head ≤ lexer.buffer.toList.length := by simpa using h.head_le
      refine ⟨⟨h.cursor, ?_, ?_, ?_, h.pins, h.nested, h.discarded⟩, rfl, rfl⟩
      · simp only [Lexer.trace, Lexer.report, Array.toList_appendList]
        rw [List.take_append_of_le_length hle]
        exact h.kept
      · simp only [Lexer.trace, Lexer.report, Array.toList_appendList, Lexer.ahead, pendingItems]
        rw [List.drop_append_of_le_length hle, h.ahead_eq, hitems, Source.items, hscan]
        simp
      · rw [← Array.length_toList]
        simp only [Lexer.trace, Lexer.report, Array.toList_appendList, List.length_append]
        omega

/-- A token that is buffered is the one that the tape shows, and looking at it changes nothing. -/
theorem peek_of_lt {k : Nat} (h : Shows marks lexer tape) (hk : lexer.head + k < lexer.buffer.size) :
    tape.peek k = (.ok (lexer.buffered k), tape) := by
  have hlt : k < (lexer.buffer.toList.drop lexer.head).length := by simp; omega
  have hlook := Tape.look_map_ok _ k hlt lexer.pendingItems
  rw [← h.ahead_eq] at hlook
  simp [Tape.peek, hlook, Lexer.buffered, hk]

theorem peek_of_le {k : Nat} (h : Shows marks lexer tape) (hk : lexer.buffer.size ≤ lexer.head + k) :
    tape.peek k = ((Tape.look (k - (lexer.buffer.size - lexer.head)) lexer.pendingItems).1,
      { tape with ahead := (lexer.buffer.toList.drop lexer.head).map .ok ++
          (Tape.look (k - (lexer.buffer.size - lexer.head)) lexer.pendingItems).2 }) := by
  have hlook := Tape.look_past_tokens (lexer.buffer.toList.drop lexer.head) k (by simp; omega)
    lexer.pendingItems
  rw [← h.ahead_eq] at hlook
  simp only [List.length_drop, Array.length_toList] at hlook
  simp [Tape.peek, hlook]

/-- Filling the buffer reaches the token that is asked for, the end of the source, or the first
fault before it. -/
theorem fillFrom (k : Nat) (lines : Source) (h : Shows marks lexer tape)
    (hp : lexer.pending = lines) :
    match lexer.fillFrom k lines with
    | (.error fault, lexer') =>
      (tape.peek k).1 = .error fault ∧ Shows marks lexer' (tape.peek k).2
    | (.ok true, lexer') => lexer'.head + k < lexer'.buffer.size ∧ Shows marks lexer' tape
    | (.ok false, lexer') =>
      lexer'.buffer.size ≤ lexer'.head + k ∧ lexer'.pending = [] ∧ Shows marks lexer' tape := by
  induction lines generalizing lexer with
  | nil =>
    unfold Lexer.fillFrom
    by_cases hk : lexer.head + k < lexer.buffer.size
    · simp only [hk, ↓reduceIte, true_and]
      exact h
    · simp only [hk, ↓reduceIte]
      exact ⟨by simpa using Nat.le_of_not_lt hk, by simpa using hp, h.finish⟩
  | cons line rest ih =>
    unfold Lexer.fillFrom
    by_cases hk : lexer.head + k < lexer.buffer.size
    · simp only [hk, ↓reduceIte, true_and]
      exact h
    · simp only [hk, ↓reduceIte]
      have hline := h.readLine line rest hp
      rcases hread : Lexer.readLine line { lexer with pending := rest } with ⟨fault | _, lexer'⟩
      · rw [hread] at hline
        obtain ⟨items, hitems, hshows⟩ := hline
        have hpeek := h.peek_of_le (Nat.le_of_not_lt hk)
        rw [hitems] at hpeek
        simp only [Tape.look] at hpeek
        rw [hpeek]
        exact ⟨rfl, hshows⟩
      · rw [hread] at hline
        exact ih hline.1 hline.2.1

theorem compact (h : Shows marks lexer tape) : Shows marks lexer.compact tape := by
  unfold Lexer.compact
  split
  · next hpins =>
    have hcursor : lexer.discarded + lexer.head = tape.past.length := h.cursor
    refine ⟨hcursor, by simp [hcursor], ?_, by simp, h.pins, h.nested, ?_⟩
    · simp only [Lexer.ahead, toList_extract_size, List.drop_zero]
      exact h.ahead
    · intro mark hmark
      have := List.length_pos_of_mem hmark
      have := h.pins
      omega
  · exact h

theorem checkpoint (h : Shows marks lexer tape) :
    Shows ((Lexer.checkpoint lexer).1 :: marks) (Lexer.checkpoint lexer).2 tape where
  cursor := h.cursor
  kept := h.kept
  ahead := h.ahead
  head_le := h.head_le
  pins := by simp [Lexer.checkpoint, h.pins]
  nested := by
    have hnested := h.nested
    simp only [Lexer.checkpoint, List.map_cons, List.pairwise_cons, List.mem_cons] at hnested ⊢
    refine ⟨?_, hnested⟩
    rintro position (rfl | hmem)
    · exact Nat.le_refl _
    · exact hnested.1 position hmem
  discarded := by
    intro mark hmark
    rcases List.mem_cons.1 hmark with rfl | hmem
    · exact Nat.le_add_right _ _
    · exact h.discarded mark hmem

/-- The head goes back inside the buffer, since nothing after the checkpoint was dropped. -/
theorem rewind {mark : Checkpoint} (h : Shows (mark :: marks) lexer tape) :
    Shows marks (lexer.rewind mark) (tape.rewind mark) := by
  have hcursor : lexer.discarded + lexer.head = tape.past.length := h.cursor
  have hdiscarded := h.discarded mark (by simp)
  have hnested := h.nested
  simp only [List.map_cons, List.pairwise_cons, List.mem_cons, forall_eq_or_imp] at hnested
  have hle : mark.position ≤ lexer.discarded + lexer.head := hnested.1.1
  have hhead : mark.position - lexer.discarded ≤ lexer.head := by omega
  have hposition : lexer.discarded + (mark.position - lexer.discarded) = mark.position := by omega
  refine ⟨?_, ?_, ?_, Nat.le_trans hhead h.head_le, ?_, ?_, ?_⟩
  · simp only [Lexer.rewind, Lexer.trace, Lexer.report, Lexer.cursor, Tape.rewind, List.length_take]
    omega
  · simp only [Lexer.rewind, Lexer.trace, Lexer.report, Tape.rewind]
    rw [List.drop_take, h.kept, List.take_take, Nat.min_eq_left hhead]
  · have hbuffer : (lexer.buffer.toList.take lexer.head).drop (mark.position - lexer.discarded) ++
        lexer.buffer.toList.drop lexer.head =
          lexer.buffer.toList.drop (mark.position - lexer.discarded) := by
      rw [← List.drop_append_of_le_length (by simp; have := h.head_le; omega),
        List.take_append_drop]
    simp only [Lexer.rewind, Lexer.trace, Lexer.report, Tape.rewind]
    rw [← hposition, ← List.drop_drop, h.kept, h.ahead_eq, ← List.append_assoc, ← List.map_append,
      hposition, hbuffer]
    rfl
  · simp [Lexer.rewind, Lexer.trace, Lexer.report, h.pins]
  · simp only [Lexer.rewind, Lexer.trace, Lexer.report, Lexer.cursor, hposition]
    exact List.pairwise_cons.2 hnested.2
  · exact fun other hmem => h.discarded other (by simp [hmem])

theorem commit {mark : Checkpoint} (h : Shows (mark :: marks) lexer tape) :
    Shows marks lexer.commit tape := by
  refine compact ⟨h.cursor, h.kept, h.ahead, h.head_le, by simp [h.pins], ?_, ?_⟩
  · have hnested := h.nested
    simp only [List.map_cons, List.pairwise_cons, List.mem_cons, forall_eq_or_imp] at hnested
    exact List.pairwise_cons.2 ⟨hnested.1.2, hnested.2.2⟩
  · exact fun other hmem => h.discarded other (by simp [hmem])

theorem peek (k : Nat) (h : Shows marks lexer tape) :
    (lexer.peek k).1 = (tape.peek k).1 ∧ Shows marks (lexer.peek k).2 (tape.peek k).2 := by
  have hfill := h.fillFrom k lexer.pending rfl
  unfold Lexer.peek fill
  rcases hfrom : lexer.fillFrom k lexer.pending with ⟨fault | _ | _, lexer'⟩ <;> rw [hfrom] at hfill
  · exact ⟨hfill.1.symm, hfill.2⟩
  · obtain ⟨hle, hpending, hshows⟩ := hfill
    have hpeek := hshows.peek_of_le hle
    simp only [pendingItems, hpending, Source.items, Tape.look] at hpeek
    have hahead := hshows.ahead_eq
    simp only [pendingItems, hpending, Source.items] at hahead
    rw [hpeek, ← hahead]
    exact ⟨by simp [buffered, hle], hshows⟩
  · obtain ⟨hlt, hshows⟩ := hfill
    rw [hshows.peek_of_lt hlt]
    exact ⟨rfl, hshows⟩

theorem take (h : Shows marks lexer tape) (hlt : lexer.head < lexer.buffer.size) :
    tape.read.1 = .ok (lexer.buffered 0) ∧
      Shows marks { lexer with head := lexer.head + 1 } tape.read.2 := by
  have hcursor : lexer.discarded + lexer.head = tape.past.length := h.cursor
  have hahead := h.ahead_eq
  rw [List.drop_eq_getElem_cons (by simpa using hlt), List.map_cons, List.cons_append] at hahead
  obtain ⟨past, ahead⟩ := tape
  simp only at hahead hcursor
  subst hahead
  refine ⟨by simp [Tape.read, buffered, hlt], ?_, ?_, rfl, hlt, h.pins, ?_, h.discarded⟩
  · simp only [Tape.read, List.length_append, List.length_singleton, Lexer.cursor]
    omega
  · simp only [Tape.read]
    rw [List.drop_append_of_le_length (by omega), h.kept, List.take_append_getElem]
  · have hnested := h.nested
    simp only [List.pairwise_cons] at hnested ⊢
    exact ⟨fun position hmem => Nat.le_succ_of_le (hnested.1 position hmem), hnested.2⟩

theorem read (h : Shows marks lexer tape) :
    lexer.read.1 = tape.read.1 ∧ Shows marks lexer.read.2 tape.read.2 := by
  have hfill := h.fillFrom 0 lexer.pending rfl
  unfold Lexer.read fill
  rcases hfrom : lexer.fillFrom 0 lexer.pending with ⟨fault | _ | _, lexer'⟩ <;> rw [hfrom] at hfill
  · rw [← Tape.peek_zero_of_fault hfill.1]
    exact ⟨hfill.1.symm, hfill.2⟩
  · obtain ⟨hle, hpending, hshows⟩ := hfill
    have hahead := hshows.ahead_eq
    have hhead := hshows.head_le
    rw [pendingItems, hpending, List.drop_eq_nil_of_le (by simpa using hle)] at hahead
    rw [Tape.read_of_nil hahead]
    exact ⟨rfl, hshows⟩
  · obtain ⟨hlt, hshows⟩ := hfill
    obtain ⟨hresult, hstate⟩ := hshows.take hlt
    exact ⟨hresult.symm, hstate.compact⟩

end Shows

/-- The head stands in the buffer or right behind it, as it does after every operation. -/
def Sound (lexer : Lexer) : Prop :=
  lexer.head ≤ lexer.buffer.size

/-- A sound lexer shows a tape, whatever checkpoints it has given out: all of them may be taken to
mark the current position. -/
theorem Sound.exists_shows {lexer : Lexer} (h : lexer.Sound) : ∃ marks tape, Shows marks lexer tape := by
  let dropped := List.replicate lexer.discarded Token.endOfInput
  refine ⟨List.replicate lexer.pins ⟨lexer.cursor⟩,
    ⟨dropped ++ lexer.buffer.toList.take lexer.head,
      (lexer.buffer.toList.drop lexer.head).map .ok ++ lexer.pendingItems⟩,
    ?_, ?_, rfl, h, by simp, ?_, ?_⟩
  · have hlength : (lexer.buffer.toList.take lexer.head).length = lexer.head := by
      simpa using Nat.min_eq_left h
    rw [List.length_append, hlength, List.length_replicate]
    rfl
  · exact List.drop_left' (List.length_replicate ..)
  · rw [List.map_replicate, ← List.replicate_succ]
    exact List.pairwise_replicate.2 (.inr (Nat.le_refl _))
  · intro mark hmark
    rw [List.eq_of_mem_replicate hmark]
    exact Nat.le_add_right _ _

namespace Sound

variable {lexer : Lexer}

theorem ofSource (source : Source) (options : LexerOptions) :
    (Lexer.ofSource source options).Sound :=
  Nat.le_refl _

theorem peek (h : lexer.Sound) (k : Nat) : (lexer.peek k).2.Sound :=
  let ⟨_, _, hshows⟩ := h.exists_shows
  (hshows.peek k).2.head_le

theorem read (h : lexer.Sound) : lexer.read.2.Sound :=
  let ⟨_, _, hshows⟩ := h.exists_shows
  hshows.read.2.head_le

theorem checkpoint (h : lexer.Sound) : (Lexer.checkpoint lexer).2.Sound := h

theorem commit (h : lexer.Sound) : lexer.commit.Sound := by
  show (Lexer.compact _).head ≤ (Lexer.compact _).buffer.size
  unfold Lexer.compact
  split
  · exact Nat.zero_le _
  · exact h

theorem rewind {mark : Checkpoint} (h : mark.position ≤ lexer.discarded + lexer.buffer.size) :
    (lexer.rewind mark).Sound := by
  show mark.position - lexer.discarded ≤ lexer.buffer.size
  omega

end Sound

/-- The lexer answers every operation as the tape does, and goes on showing it. -/
theorem simulation : Simulation Shows where
  peek k h := h.peek k
  read h := h.read
  cursor h := h.cursor
  checkpoint h := ⟨congrArg Checkpoint.mk h.cursor, h.checkpoint⟩
  rewind h := h.rewind
  commit h := h.commit
  report note h := h.report note

end Lexer

end ParseKit
