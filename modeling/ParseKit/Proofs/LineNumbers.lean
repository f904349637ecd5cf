import Mathlib
import ParseKit.Proofs.Calls
import ParseKit.Proofs.WrittenSource

/-! Where the physical lines of a source start, and the numbers that they get. A line that is not
text is not counted, so that every line after it gets a number that is too low. Main statements:
`Source.cut_eq`, cutting gives the line at each start, and `Lexer.answers_numbered`, what a lexer
gives carries the number of its line, less the lines before it that are not text. -/

namespace ParseKit

namespace Source

section Starts

variable {α : Type} [DecidableEq α]

/-- A line starts in front and after each terminator, as long as something follows. -/
def starts (lf : α) (text : List α) : List Nat :=
  (List.range text.length).filter fun start => start = 0 ∨ text[start - 1]? = some lf

/-- The line that starts at an offset. The terminator is dropped, together with one carriage return
before it. -/
def lineFrom (lf cr : α) (text : List α) (start : Nat) : List α :=
  let line := (text.drop start).takeWhile (· ≠ lf)
  if lf ∈ text.drop start ∧ line.getLast? = some cr then line.dropLast else line

variable {lf cr : α}

theorem lines_induction (lf : α) {motive : List α → Prop} (last : ∀ last, lf ∉ last → motive last)
    (cons : ∀ first rest, lf ∉ first → motive rest → motive (first ++ lf :: rest)) (text : List α) :
    motive text := by
  induction hlength : text.length using Nat.strongRecOn generalizing text with
  | ind n ih =>
    by_cases hmem : lf ∈ text
    · obtain ⟨first, rest, rfl, hfirst⟩ := List.eq_append_cons_of_mem hmem
      exact cons first rest hfirst (ih rest.length (by simp at hlength; omega) rest rfl)
    · exact last text hmem

theorem filter_starts_inside {text : List α} {n : Nat} (h : ∀ place < n, text[place]? ≠ some lf) :
    ((List.range n).map Nat.succ).filter (fun start => start = 0 ∨ text[start - 1]? = some lf) = [] := by
  rw [List.filter_eq_nil_iff]
  intro start hstart
  obtain ⟨place, hplace, rfl⟩ := List.mem_map.1 hstart
  simpa using h place (List.mem_range.1 hplace)

theorem starts_last {last : List α} (h : lf ∉ last) : starts lf last = if last = [] then [] else [0] := by
  cases last with
  | nil => rfl
  | cons a last =>
    have hinside : ∀ place < last.length, (a :: last)[place]? ≠ some lf :=
      fun place _ heq => h (List.mem_of_getElem? heq)
    rw [starts, List.length_cons, List.range_succ_eq_map, List.filter_cons_of_pos (by simp),
      filter_starts_inside hinside]
    rfl

theorem starts_cons {first : List α} (h : lf ∉ first) (rest : List α) :
    starts lf (first ++ lf :: rest) = 0 :: (starts lf rest).map (first.length + 1 + ·) := by
  have hinside : ∀ place < first.length, (first ++ lf :: rest)[place]? ≠ some lf := by
    intro place hplace heq
    rw [List.getElem?_append_left hplace] at heq
    exact h (List.mem_of_getElem? heq)
  have hlater : ∀ start, (first.length + 1 + start = 0 ∨
      (first ++ lf :: rest)[first.length + 1 + start - 1]? = some lf) ↔
        (start = 0 ∨ rest[start - 1]? = some lf) := by
    intro start
    cases start with
    | zero => simp
    | succ start =>
      have hplace : first.length + 1 + (start + 1) - 1 = first.length + (start + 1) := by omega
      simp [hplace, List.getElem?_append_right]
  have hlength : (first ++ lf :: rest).length = first.length + 1 + rest.length := by simp; omega
  rw [starts, hlength, List.range_add, List.filter_append, List.range_succ_eq_map,
    List.filter_cons_of_pos (by simp), filter_starts_inside hinside, List.filter_map, starts]
  simp only [Function.comp_def, hlater]
  rfl

theorem lineFrom_last {last : List α} (h : lf ∉ last) : lineFrom lf cr last 0 = last := by
  have hall : ∀ a ∈ last, ¬ a = lf := fun _ ha heq => h (heq ▸ ha)
  simpa [lineFrom, h] using hall

theorem lineFrom_zero {first : List α} (h : lf ∉ first) (rest : List α) :
    lineFrom lf cr (first ++ lf :: rest) 0 = unterminate cr first.reverse := by
  have hall : ∀ a ∈ first, ¬ a = lf := fun _ ha heq => h (heq ▸ ha)
  have htake : (first ++ lf :: rest).takeWhile (· ≠ lf) = first := by
    rw [List.takeWhile_append_of_pos (by simpa using hall)]
    simp
  simp only [lineFrom, List.drop_zero, htake]
  rcases hreverse : first.reverse with _ | ⟨a, before⟩
  · rw [List.reverse_eq_nil_iff.1 hreverse]
    simp [unterminate]
  · obtain rfl := List.reverse_eq_cons_iff.1 hreverse
    simp [unterminate]

theorem lineFrom_add (first rest : List α) (start : Nat) :
    lineFrom lf cr (first ++ lf :: rest) (first.length + 1 + start) = lineFrom lf cr rest start := by
  have hdrop : (first ++ lf :: rest).drop (first.length + 1 + start) = rest.drop start := by
    rw [Nat.add_assoc, List.drop_length_add_append, Nat.add_comm, List.drop_succ_cons]
  simp only [lineFrom, hdrop]

theorem cut_last {last : List α} (h : lf ∉ last) (reversed : List α) :
    cut lf cr reversed last = if reversed = [] ∧ last = [] then [] else [reversed.reverse ++ last] := by
  induction last generalizing reversed with
  | nil => cases reversed <;> simp [cut]
  | cons a last ih =>
    obtain ⟨ha, hlast⟩ := not_or.1 (mt List.mem_cons.2 h)
    rw [cut, if_neg (Ne.symm ha), ih hlast]
    simp

theorem cut_eq (text : List α) : cut lf cr [] text = (starts lf text).map (lineFrom lf cr text) := by
  induction text using lines_induction lf with
  | last last h =>
    rw [cut_last h, starts_last h]
    by_cases hnil : last = [] <;> simp [hnil, lineFrom_last h]
  | cons first rest h ih =>
    rw [cut_append h, List.append_nil, starts_cons h, ih, List.map_cons, lineFrom_zero h, List.map_map]
    simp only [Function.comp_def, lineFrom_add]

end Starts

def lineAt (bytes : List UInt8) (start : Nat) : PhysicalLine :=
  decodeLine (lineFrom 10 13 bytes start)

/-- The number of the line that starts at an offset: one more than the newlines before it. -/
def lineNumber (bytes : List UInt8) (start : Nat) : Nat :=
  1 + (bytes.take start).count 10

def unreadable (bytes : List UInt8) (start : Nat) : Nat :=
  (starts 10 bytes).countP fun other => other < start ∧ lineAt bytes other = .undecodable

def lineItems (options : LexerOptions) (number : Nat) : PhysicalLine → List Item
  | .undecodable => [.error ⟨number, .unreadable notUtf8⟩]
  | .text chars =>
    match Scan.lexemes chars with
    | .error fault => [.error ⟨number, .scan fault⟩]
    | .ok lexemes => (lineTokens options number lexemes).map .ok

theorem items_cons (options : LexerOptions) (line : Nat) (physical : PhysicalLine) (rest : Source) :
    items options line (physical :: rest) = lineItems options (line + 1) physical ++
      items options (if physical = .undecodable then line else line + 1) rest := by
  cases physical with
  | undecodable => rfl
  | text chars =>
    cases hscan : Scan.lexemes chars <;> simp [items, lineItems, hscan]

section Rest

variable {first : List UInt8} (h : 10 ∉ first) (rest : List UInt8)
include h

theorem lineNumber_add (start : Nat) : lineNumber (first ++ 10 :: rest) (first.length + 1 + start) =
    1 + lineNumber rest start := by
  have htake : (first ++ 10 :: rest).take (first.length + 1 + start) = first ++ 10 :: rest.take start := by
    rw [Nat.add_assoc, List.take_length_add_append, Nat.add_comm 1, List.take_succ_cons]
  simp only [lineNumber, htake, List.count_append, List.count_cons_self, List.count_eq_zero_of_not_mem h]
  omega

theorem unreadable_add (start : Nat) : unreadable (first ++ 10 :: rest) (first.length + 1 + start) =
    (if lineAt (first ++ 10 :: rest) 0 = .undecodable then 1 else 0) + unreadable rest start := by
  have hlater : ∀ other, lineAt (first ++ 10 :: rest) (first.length + 1 + other) = lineAt rest other :=
    fun other => congrArg decodeLine (lineFrom_add first rest other)
  simp only [unreadable, starts_cons h, List.countP_cons, List.countP_map, Function.comp_def, hlater,
    Nat.add_lt_add_iff_left]
  have hpos : 0 < first.length + 1 + start := by omega
  simp only [hpos, true_and, decide_eq_true_eq]
  omega

end Rest

/-- What the lines of a sequence of bytes give, each under its number less the lines before it that
are not text. -/
theorem items_ofBytes (options : LexerOptions) (line : Nat) (bytes : List UInt8) :
    (ofBytes bytes).items options line = (starts 10 bytes).flatMap fun start =>
      lineItems options (line + lineNumber bytes start - unreadable bytes start) (lineAt bytes start) := by
  induction bytes using lines_induction (10 : UInt8) generalizing line with
  | last last h =>
    rw [ofBytes, cut_eq, starts_last h]
    by_cases hnil : last = []
    · simp [hnil, items]
    · have hfirst : unreadable last 0 = 0 := by simp [unreadable]
      simp [hnil, items_cons, items, hfirst, lineNumber, lineAt]
  | cons first rest h ih =>
    have hfirst : unreadable (first ++ 10 :: rest) 0 = 0 := by simp [unreadable]
    have hsource : ofBytes (first ++ 10 :: rest) = lineAt (first ++ 10 :: rest) 0 :: ofBytes rest := by
      rw [ofBytes, cut_append h, List.append_nil, List.map_cons, lineAt, lineFrom_zero h]
      rfl
    have hlater : ∀ start, lineAt (first ++ 10 :: rest) (first.length + 1 + start) = lineAt rest start :=
      fun start => congrArg decodeLine (lineFrom_add first rest start)
    rw [hsource, items_cons, ih, starts_cons h, List.flatMap_cons, List.flatMap_map]
    congr 1
    · simp [hfirst, lineNumber]
    · refine List.flatMap_congr fun start _ => ?_
      rw [lineNumber_add h, unreadable_add h, hlater]
      congr 1
      split <;> omega

end Source

/-- The line that an item tells. The end of the input is on none. -/
def Item.line? : Item → Option Nat
  | .ok token => token.line?
  | .error fault => some fault.line

def Answer.line? : Answer → Option Nat
  | .token item => Item.line? item
  | .next (.ok token?) => token?.bind Token.line?
  | .next (.error fault) => some fault.line
  | .done => none

@[simp] theorem Answer.line?_next (item : Item) : (Answer.next (Item.next item)).line? = Item.line? item := by
  rcases item with _ | _ | _ <;> rfl

theorem Source.line?_of_mem_lineItems {options : LexerOptions} {number : Nat} {physical : PhysicalLine}
    {item : Item} (h : item ∈ lineItems options number physical) : Item.line? item = some number := by
  unfold lineItems at h
  split at h
  · rw [List.mem_singleton.1 h]
    rfl
  · split at h
    · rw [List.mem_singleton.1 h]
      rfl
    · obtain ⟨token, htoken, rfl⟩ := List.mem_map.1 h
      obtain ⟨lexeme, -, rfl⟩ := List.mem_map.1 htoken
      rfl

namespace Tape

def Within (items : List Item) (tape : Tape) : Prop :=
  tape.past.map .ok ⊆ items ∧ tape.ahead ⊆ items

variable {items : List Item} {tape : Tape}

def Tells (items : List Item) (line? : Option Nat) : Prop :=
  ∀ number, line? = some number → ∃ item ∈ items, Item.line? item = some number

theorem tells_none : Tells items none := by
  rintro number ⟨⟩

theorem tells_of_mem {item : Item} (h : item ∈ items) : Tells items (Item.line? item) :=
  fun _ hline => ⟨item, h, hline⟩

theorem look_within (k : Nat) {ahead : List Item} (h : ahead ⊆ items) :
    Tells items (Item.line? (look k ahead).1) ∧ (look k ahead).2 ⊆ items := by
  induction ahead generalizing k with
  | nil => simpa [look, Item.line?, Token.line?] using tells_none
  | cons item ahead ih =>
    obtain ⟨hitem, hahead⟩ := List.cons_subset.1 h
    rcases item with fault | token
    · simp only [look]
      exact ⟨tells_of_mem hitem, hahead⟩
    cases k with
    | zero => exact ⟨tells_of_mem hitem, h⟩
    | succ k => exact ⟨(ih k hahead).1, List.cons_subset.2 ⟨hitem, (ih k hahead).2⟩⟩

theorem Within.read (h : tape.Within items) :
    Tells items (Item.line? tape.read.1) ∧ tape.read.2.Within items := by
  obtain ⟨hpast, hahead⟩ := h
  rcases tape with ⟨past, _ | ⟨fault | token, rest⟩⟩
  · exact ⟨tells_none, hpast, hahead⟩
  · obtain ⟨hitem, hrest⟩ := List.cons_subset.1 hahead
    exact ⟨tells_of_mem hitem, hpast, hrest⟩
  · obtain ⟨hitem, hrest⟩ := List.cons_subset.1 hahead
    refine ⟨tells_of_mem hitem, ?_, hrest⟩
    simp only [Tape.read, List.map_append]
    exact List.append_subset.2 ⟨hpast, List.cons_subset.2 ⟨hitem, List.nil_subset _⟩⟩

theorem Within.rewind (h : tape.Within items) (mark : Checkpoint) : (tape.rewind mark).Within items := by
  obtain ⟨hpast, hahead⟩ := h
  constructor
  · exact fun item hmem => hpast (List.map_subset _ (List.take_subset ..) hmem)
  · refine List.append_subset.2 ⟨fun item hmem => ?_, hahead⟩
    exact hpast (List.map_subset _ (List.drop_subset ..) hmem)

theorem Within.serve {m : Marked Tape} (h : m.stream.Within items) (call : Call) :
    Tells items (m.serve call).1.line? ∧ (m.serve call).2.stream.Within items := by
  cases call with
  | read => exact h.read
  | next =>
    obtain ⟨htells, hafter⟩ := h.read
    refine ⟨?_, hafter⟩
    exact (Answer.line?_next _).symm ▸ htells
  | peek k =>
    obtain ⟨htells, hafter⟩ := look_within k h.2
    exact ⟨htells, h.1, hafter⟩
  | checkpoint => exact ⟨tells_none, h⟩
  | rewind =>
    obtain ⟨tape, _ | ⟨mark, marks⟩⟩ := m
    · exact ⟨tells_none, h⟩
    · exact ⟨tells_none, Within.rewind h mark⟩
  | commit =>
    obtain ⟨tape, _ | ⟨mark, marks⟩⟩ := m <;> exact ⟨tells_none, h⟩

/-- Whatever is told in answer to calls is on the line of one of the items. -/
theorem Within.run {m : Marked Tape} (h : m.stream.Within items) (calls : List Call) :
    ∀ entry ∈ (m.run calls).1, Tells items entry.1.line? := by
  induction calls generalizing m with
  | nil => simp
  | cons call calls ih =>
    obtain ⟨htells, hafter⟩ := h.serve call
    exact List.forall_mem_cons.2 ⟨htells, ih hafter⟩

end Tape

/-- A lexer answers as the tape on which the physical lines of its bytes stand one after the other, each
under its number less the lines before it that are not text. So every token and every error that is
told carries such a number, which is that of its line if no line before it was lost. -/
theorem Lexer.answers_numbered (bytes : List UInt8) (options : LexerOptions) (calls : List Call) :
    let number := fun start => Source.lineNumber bytes start - Source.unreadable bytes start
    let items := (Source.starts 10 bytes).flatMap fun start =>
      Source.lineItems options (number start) (Source.lineAt bytes start)
    let answers := TokenStream.answers (Lexer.ofSource (.ofBytes bytes) options) calls
    answers = TokenStream.answers (⟨[], items⟩ : Tape) calls ∧
      ∀ entry ∈ answers, ∀ line, entry.1.line? = some line →
        ∃ start ∈ Source.starts 10 bytes, line = number start := by
  intro number items answers
  have htape : answers = TokenStream.answers (⟨[], items⟩ : Tape) calls := by
    have hitems := Source.items_ofBytes options 0 bytes
    simp only [Nat.zero_add] at hitems
    exact (Lexer.answers_eq_tape _ options calls).trans (by rw [hitems])
  refine ⟨htape, fun entry hentry line hline => ?_⟩
  rw [htape] at hentry
  have hwithin : (⟨[], items⟩ : Tape).Within items := ⟨List.nil_subset _, List.Subset.refl _⟩
  obtain ⟨item, hitem, htold⟩ := Tape.Within.run (m := ⟨_, []⟩) hwithin calls entry hentry line hline
  obtain ⟨start, hstart, hmem⟩ := List.mem_flatMap.1 hitem
  rw [Source.line?_of_mem_lineItems hmem] at htold
  exact ⟨start, hstart, (Option.some.inj htold).symm⟩

/-- The first of two lines is not text, and the token of the second one is given the number one. -/
theorem Lexer.answers_uncounted :
    let bytes : List UInt8 := [0xFF, 10, 97]
    TokenStream.answers (Lexer.ofSource (.ofBytes bytes) {}) [.read, .read] =
        [(.token (.error ⟨1, .unreadable notUtf8⟩), 0), (.token (.ok (.scanned 1 (.identifier "a"))), 1)] ∧
      Source.starts 10 bytes = [0, 2] ∧ Source.lineAt bytes 2 = .text ['a'] ∧
      Source.lineNumber bytes 2 = 2 := by
  refine ⟨?_, ?_, ?_, ?_⟩ <;> cbv

end ParseKit
