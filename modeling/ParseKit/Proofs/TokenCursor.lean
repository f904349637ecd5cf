import Mathlib
import ParseKit.Proofs.Trimming

/-! A position in a fixed list of tokens. Nothing is read on demand, buffered or dropped: a token is
looked up where it stands, a checkpoint is a position, and past the last token every answer is the
same. Main statement: `Lexer.answers_eq_cursor`, a lexer answers as the position in the tokens of its
source does. -/

namespace ParseKit

/-- Tokens that are read by position. Past the last one stands the fault, the end of the input if
there is none. -/
structure TokenCursor where
  tokens : List Token
  fault? : Option LexError
  position : Nat := 0

namespace TokenCursor

def item (c : TokenCursor) (place : Nat) : Item :=
  match c.tokens[place]?, c.fault? with
  | some token, _ => .ok token
  | none, some fault => .error fault
  | none, none => .ok .endOfInput

def advance (c : TokenCursor) : TokenCursor :=
  if c.position < c.tokens.length then { c with position := c.position + 1 } else c

instance : TokenStream TokenCursor where
  peek k c := (c.item (c.position + k), c)
  read c := (c.item c.position, c.advance)
  cursor c := c.position
  checkpoint c := (⟨c.position⟩, c)
  rewind mark c := { c with position := mark.position }
  commit c := c
  report _ c := c
  unread c := c.tokens.length - c.position

/-- The start of a source: the tokens of its lines up to the first one that gives none, and the fault
of this line. -/
def ofSource (source : Source) (options : LexerOptions) : TokenCursor where
  tokens := source.tokens options
  fault? := source.fault?

@[simp] theorem advance_tokens (c : TokenCursor) : c.advance.tokens = c.tokens := by
  unfold advance; split <;> rfl

@[simp] theorem advance_fault? (c : TokenCursor) : c.advance.fault? = c.fault? := by
  unfold advance; split <;> rfl

theorem item_of_lt {c : TokenCursor} {place : Nat} (h : place < c.tokens.length) :
    c.item place = .ok c.tokens[place] := by
  simp [item, h]

theorem item_of_le {c : TokenCursor} {place : Nat} (h : c.tokens.length ≤ place) :
    c.item place = match c.fault? with
      | some fault => .error fault
      | none => .ok .endOfInput := by
  rw [item, List.getElem?_eq_none h]
  cases c.fault? <;> rfl

/-- What comes after the tokens: nothing, or the fault and what the later lines give. -/
inductive Ends : Option LexError → List Item → Prop
  | clean : Ends none []
  | faulted (fault : LexError) (later : List Item) : Ends (some fault) (.error fault :: later)

theorem ends_items (source : Source) (options : LexerOptions) : ∃ tail,
    Ends source.fault? tail ∧ source.items options 0 = (source.tokens options).map .ok ++ tail := by
  rw [Source.fault?, Source.fault?_items {} options, Source.tokens]
  induction source.items options 0 with
  | nil => exact ⟨[], .clean, rfl⟩
  | cons item items ih =>
    cases item with
    | error fault => exact ⟨_, .faulted fault items, rfl⟩
    | ok token =>
      obtain ⟨tail, hends, heq⟩ := ih
      exact ⟨tail, hends, congrArg (Except.ok token :: ·) heq⟩

/-- The tape that is at the same position, with other items after the tokens. -/
def tape (c : TokenCursor) (tail : List Item) : Tape where
  past := c.tokens.take c.position
  ahead := (c.tokens.drop c.position).map .ok ++ tail

/-- What comes after the tokens once an item was told: a fault is gone. -/
def told : Item → List Item → List Item
  | .error _, tail => tail.tail
  | .ok _, tail => tail

/-- The place can be told from the tokens and what comes after them. -/
def Sees (c : TokenCursor) (tail : List Item) (place : Nat) : Prop :=
  place < c.tokens.length ∨ Ends c.fault? tail

theorem peek_tape {c : TokenCursor} {tail : List Item} {k : Nat} (h : c.Sees tail (c.position + k)) :
    (c.tape tail).peek k =
      (c.item (c.position + k), c.tape (told (c.item (c.position + k)) tail)) := by
  by_cases hk : c.position + k < c.tokens.length
  · have hlook := Tape.look_map_ok (c.tokens.drop c.position) k (by simp; omega) tail
    rw [Tape.peek, item_of_lt hk]
    simp only [tape, hlook, List.getElem_drop, told]
  · have hends := h.resolve_left hk
    have hlook := Tape.look_past_tokens (c.tokens.drop c.position) k (by simp; omega) tail
    rw [Tape.peek, item_of_le (Nat.le_of_not_lt hk)]
    simp only [tape, hlook]
    generalize c.fault? = fault? at hends ⊢
    cases hends <;> simp [Tape.look, told]

theorem read_tape {c : TokenCursor} {tail : List Item} (hinside : c.position ≤ c.tokens.length)
    (h : c.Sees tail c.position) :
    (c.tape tail).read = (c.item c.position, c.advance.tape (told (c.item c.position) tail)) := by
  by_cases hlt : c.position < c.tokens.length
  · have hdrop := List.drop_eq_getElem_cons hlt
    rw [item_of_lt hlt, advance, if_pos hlt]
    simp only [tape, told]
    rw [hdrop, ← List.take_append_getElem hlt]
    rfl
  · have hends := h.resolve_left hlt
    have hposition : c.position = c.tokens.length := by omega
    rw [item_of_le (Nat.le_of_not_lt hlt), advance, if_neg hlt]
    generalize hfault : c.fault? = fault? at hends ⊢
    cases hends <;> simp [tape, told, hposition, Tape.read]

theorem rewind_tape {c : TokenCursor} {mark : Checkpoint} (hinside : c.position ≤ c.tokens.length)
    (h : mark.position ≤ c.position) (tail : List Item) :
    (c.tape tail).rewind mark = ({ c with position := mark.position } : TokenCursor).tape tail := by
  have hlength : mark.position ≤ (c.tokens.take c.position).length := by simp; omega
  have hcut : (c.tokens.take c.position).drop mark.position ++ c.tokens.drop c.position =
      c.tokens.drop mark.position := by
    rw [← List.drop_append_of_le_length hlength, List.take_append_drop]
  rw [Tape.rewind]
  simp only [tape]
  rw [List.take_take, Nat.min_eq_left h, ← List.append_assoc, ← List.map_append, hcut]

end TokenCursor

def Answer.isFault : Answer → Bool
  | .token (.error _) => true
  | .next (.error _) => true
  | _ => false

@[simp] theorem Answer.isFault_next (item : Item) :
    (Answer.next (Item.next item)).isFault = (Answer.token item).isFault := by
  rcases item with _ | _ | _ <;> rfl

namespace TokenCursor

/-- The tape is where the cursor is, and both gave out the same checkpoints. -/
structure Follows (tail : List Item) (n : Marked Tape) (c : Marked TokenCursor) : Prop where
  stream : n.stream = c.stream.tape tail
  marks : n.marks = c.marks
  inside : c.stream.position ≤ c.stream.tokens.length
  nested : (c.stream.position :: c.marks.map (·.position)).Pairwise (· ≥ ·)

variable {tail : List Item} {n : Marked Tape} {c : Marked TokenCursor}

/-- The call can be answered from the tokens and what comes after them. -/
def Answerable (tail : List Item) (c : Marked TokenCursor) (call : Call) : Prop :=
  Ends c.stream.fault? tail ∨
    c.stream.fault?.isSome = true ∧ (c.serve call).1.isFault = false

/-- A place past the tokens is not seen without an answer that is a fault. -/
theorem sees_of_answerable {place : Nat} (h : Ends c.stream.fault? tail ∨
    c.stream.fault?.isSome = true ∧ (Answer.token (c.stream.item place)).isFault = false) :
    c.stream.Sees tail place := by
  rcases h with hends | ⟨hsome, hfault⟩
  · exact .inr hends
  · refine .inl (Nat.lt_of_not_le fun hle => ?_)
    obtain ⟨fault, hfault?⟩ := Option.isSome_iff_exists.1 hsome
    rw [item_of_le hle, hfault?] at hfault
    cases hfault

theorem serve_tokens (c : Marked TokenCursor) (call : Call) :
    (c.serve call).2.stream.tokens = c.stream.tokens ∧
      (c.serve call).2.stream.fault? = c.stream.fault? := by
  obtain ⟨c, marks⟩ := c
  cases call with
  | read | next => exact ⟨c.advance_tokens, c.advance_fault?⟩
  | peek | checkpoint => exact ⟨rfl, rfl⟩
  | rewind | commit => cases marks <;> exact ⟨rfl, rfl⟩

theorem told_eq (item : Item) (tail : List Item) :
    told item tail = if (Answer.token item).isFault then tail.tail else tail := by
  cases item <;> rfl

theorem le_advance (c : TokenCursor) : c.position ≤ c.advance.position := by
  unfold advance
  split
  · exact Nat.le_succ _
  · exact Nat.le_refl _

theorem advance_le {c : TokenCursor} (h : c.position ≤ c.tokens.length) :
    c.advance.position ≤ c.tokens.length := by
  unfold advance
  split
  · next hlt => exact hlt
  · exact h

namespace Follows

theorem read (h : Follows tail n c) (hsees : c.stream.Sees tail c.stream.position) :
    (TokenStream.read n.stream).1 = c.stream.item c.stream.position ∧
      Follows (told (c.stream.item c.stream.position) tail)
        { n with stream := (TokenStream.read n.stream).2 } { c with stream := c.stream.advance } := by
  have hread : TokenStream.read n.stream = _ := (congrArg Tape.read h.stream).trans (read_tape h.inside hsees)
  rw [hread]
  refine ⟨rfl, rfl, h.marks, ?_, ?_⟩
  · rw [advance_tokens]
    exact advance_le h.inside
  · obtain ⟨hle, hnested⟩ := List.pairwise_cons.1 h.nested
    exact List.pairwise_cons.2 ⟨fun position hmem => Nat.le_trans (hle position hmem) c.stream.le_advance, hnested⟩

/-- One call gets the same answer. A fault that was told is gone from the tape. -/
theorem serve (h : Follows tail n c) (call : Call) (hcall : Answerable tail c call) :
    (n.serve call).1 = (c.serve call).1 ∧
      Follows (if (c.serve call).1.isFault then tail.tail else tail) (n.serve call).2 (c.serve call).2 := by
  have hmarks := h.marks
  have hnested := h.nested
  cases call with
  | read =>
    obtain ⟨hitem, hfollows⟩ := h.read (sees_of_answerable hcall)
    rw [told_eq] at hfollows
    exact ⟨congrArg Answer.token hitem, hfollows⟩
  | next =>
    have hfault := Answer.isFault_next (c.stream.item c.stream.position)
    have hsees : c.stream.Sees tail c.stream.position :=
      sees_of_answerable (hcall.imp_right (And.imp_right hfault.symm.trans))
    obtain ⟨hitem, hfollows⟩ := h.read hsees
    rw [told_eq, ← hfault] at hfollows
    exact ⟨congrArg (fun item => Answer.next (Item.next item)) hitem, hfollows⟩
  | peek k =>
    have hpeek : TokenStream.peek k n.stream = _ :=
      (congrArg (Tape.peek k) h.stream).trans (peek_tape (sees_of_answerable hcall))
    have hitem := congrArg Prod.fst hpeek
    have hstream := congrArg Prod.snd hpeek
    rw [told_eq] at hstream
    exact ⟨congrArg Answer.token hitem, hstream, hmarks, h.inside, hnested⟩
  | checkpoint =>
    have hlength : n.stream.past.length = c.stream.position := by
      rw [h.stream]
      exact List.length_take_of_le h.inside
    refine ⟨rfl, h.stream, ?_, h.inside, ?_⟩
    · show (⟨n.stream.past.length⟩ : Checkpoint) :: n.marks = ⟨c.stream.position⟩ :: c.marks
      rw [hlength, hmarks]
    · refine List.pairwise_cons.2 ⟨?_, hnested⟩
      rintro position (_ | ⟨_, hmem⟩)
      · exact Nat.le_refl _
      · exact (List.pairwise_cons.1 hnested).1 position hmem
  | rewind =>
    obtain ⟨n, marks⟩ := n
    obtain ⟨c, marks'⟩ := c
    obtain rfl : marks = marks' := hmarks
    cases marks with
    | nil => exact ⟨rfl, h⟩
    | cons mark marks =>
      simp only [List.map_cons, List.pairwise_cons, List.mem_cons, forall_eq_or_imp] at hnested
      have hle : mark.position ≤ c.position := hnested.1.1
      refine ⟨rfl, ?_, rfl, Nat.le_trans hle h.inside, List.pairwise_cons.2 hnested.2⟩
      exact (congrArg (Tape.rewind mark) h.stream).trans (rewind_tape h.inside hle tail)
  | commit =>
    obtain ⟨n, marks⟩ := n
    obtain ⟨c, marks'⟩ := c
    obtain rfl : marks = marks' := hmarks
    cases marks with
    | nil => exact ⟨rfl, h⟩
    | cons mark marks =>
      simp only [List.map_cons, List.pairwise_cons, List.mem_cons, forall_eq_or_imp] at hnested
      exact ⟨rfl, h.stream, rfl, h.inside, List.pairwise_cons.2 ⟨hnested.1.2, hnested.2.2⟩⟩

theorem cursor (h : Follows tail n c) : TokenStream.cursor n.stream = TokenStream.cursor c.stream := by
  show n.stream.past.length = c.stream.position
  rw [h.stream]
  exact List.length_take_of_le h.inside

end Follows

def faults (c : Marked TokenCursor) (calls : List Call) : Nat :=
  (c.run calls).1.countP (·.1.isFault)

theorem faults_cons (c : Marked TokenCursor) (call : Call) (calls : List Call) : faults c (call :: calls) =
    faults (c.serve call).2 calls + if (c.serve call).1.isFault then 1 else 0 := by
  simp [faults, List.countP_cons]

theorem isSome_of_isFault {call : Call} (h : (c.serve call).1.isFault = true) :
    c.stream.fault?.isSome = true := by
  have hitem : ∀ place, (Answer.token (c.stream.item place)).isFault = true →
      c.stream.fault?.isSome = true := by
    intro place hplace
    unfold item at hplace
    split at hplace
    · cases hplace
    · next hfault => rw [hfault]; rfl
    · cases hplace
  cases call with
  | read => exact hitem c.stream.position h
  | next => exact hitem c.stream.position ((Answer.isFault_next _).symm.trans h)
  | peek k => exact hitem (c.stream.position + k) h
  | checkpoint => cases h
  | rewind | commit =>
    obtain ⟨c, _ | _⟩ := c <;> cases h

/-- All calls get the same answers, as long as the fault is told once. -/
theorem Follows.run (calls : List Call) (h : Follows tail n c)
    (hfaults : Ends c.stream.fault? tail ∧ faults c calls ≤ 1 ∨
      c.stream.fault?.isSome = true ∧ faults c calls = 0) : (n.run calls).1 = (c.run calls).1 := by
  induction calls generalizing tail n c with
  | nil => rfl
  | cons call calls ih =>
    rw [faults_cons] at hfaults
    have hanswerable : Answerable tail c call := by
      refine hfaults.imp And.left (And.imp_right fun hzero => ?_)
      by_contra hfault
      rw [if_pos (by simpa using hfault)] at hzero
      omega
    obtain ⟨hanswer, hfollows⟩ := h.serve call hanswerable
    have hsame := (serve_tokens c call).2
    have hrest : ((n.serve call).2.run calls).1 = ((c.serve call).2.run calls).1 := by
      refine ih hfollows ?_
      rw [hsame]
      cases hfault : (c.serve call).1.isFault with
      | true =>
        rw [hfault] at hfaults
        exact .inr ⟨isSome_of_isFault hfault, by simp at hfaults; omega⟩
      | false =>
        rw [hfault] at hfaults
        simpa using hfaults
    rw [Marked.run_cons, Marked.run_cons, hanswer, hfollows.cursor, hrest]

end TokenCursor

/-- A lexer that reads its lines on demand answers as a position in the fixed tokens of its source
does: what is read is the token there, looking ahead changes nothing, and going back leads to the
position of the checkpoint. If every line scans, the end of the input stands at every later place.
Otherwise the fault stands there. It is told once, and all tokens can be read as before. No sum of
the head and a distance goes beyond 64 bits where the position and the distance do not, and where
no checkpoint is outstanding every distance is allowed. -/
theorem Lexer.answers_eq_cursor (source : Source) (options : LexerOptions) (calls : List Call)
    (hfaults : TokenCursor.faults ⟨.ofSource source options, []⟩ calls ≤ 1) :
    TokenStream.answers (Lexer.ofSource source options) calls =
        TokenStream.answers (TokenCursor.ofSource source options) calls ∧
      let m := TokenStream.after (Lexer.ofSource source options) calls
      ∀ k, (m.marks = [] ∧ k < 2 ^ 64 ∨ m.stream.cursor + k < 2 ^ 64) → m.stream.head + k < 2 ^ 64 := by
  constructor
  · obtain ⟨tail, hends, hitems⟩ := TokenCursor.ends_items source options
    rw [Lexer.answers_eq_tape, hitems]
    exact TokenCursor.Follows.run calls ⟨rfl, rfl, Nat.zero_le _, by simp⟩ (.inl ⟨hends, hfaults⟩)
  · have htrimmed := Lexer.after_trimmed source options calls
    intro m k hk
    have hcursor : m.stream.cursor = m.stream.discarded + m.stream.head := rfl
    rcases hk with ⟨hnone, hk⟩ | hk
    · have htrimmed : Trimmed m.marks m.stream := htrimmed
      rw [hnone] at htrimmed
      have := htrimmed.head_eq_zero
      omega
    · omega

/-- The third line does not scan. Looking at it tells its fault, and the tokens before it are read
after that, also those that were read before the checkpoint was rewound. -/
theorem Lexer.answers_eq_cursor_badLine :
    let source : Source := [.text ['a', ' ', '1'], .text [], .text ['`'], .text ['b']]
    let calls : List Call := [.read, .checkpoint, .peek 2, .peek 7, .checkpoint, .next, .commit, .read,
      .rewind, .read]
    TokenCursor.faults ⟨.ofSource source {}, []⟩ calls ≤ 1 ∧
      TokenStream.answers (Lexer.ofSource source {}) calls =
        [(.token (.ok (.scanned 1 (.identifier "a"))), 1), (.done, 1),
          (.token (.ok (.scanned 2 .endOfLine)), 1),
          (.token (.error ⟨3, .scan (.badToken 1 "`")⟩), 1), (.done, 1),
          (.next (.ok (some (.scanned 1 (.number 1)))), 2), (.done, 2),
          (.token (.ok (.scanned 1 .endOfLine)), 3), (.done, 1),
          (.token (.ok (.scanned 1 (.number 1))), 2)] := by
  intro source calls
  have hfaults : TokenCursor.faults ⟨.ofSource source {}, []⟩ calls = 1 := by cbv
  exact ⟨hfaults.le, (Lexer.answers_eq_cursor source {} calls hfaults.le).1.trans (by cbv)⟩

end ParseKit
