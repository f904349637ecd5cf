import Mathlib
import ParseKit.Proofs.Calls

/-! Looking ahead. As long as no line is at fault it cannot be noticed. A line at fault is read when
someone looks at it, and its fault is told to them and to nobody after them. Main statement:
`Lexer.peek_keeps_reads`, and `Lexer.peek_loses_fault` on a fault that a reader misses. -/

namespace ParseKit

def Item.eraseFault : List Item → List Item
  | .ok token :: rest => .ok token :: eraseFault rest
  | .error _ :: rest => rest
  | [] => []

theorem Item.eraseFault_map_ok_append (us : List Token) (fault : LexError) (items : List Item) :
    eraseFault (us.map .ok ++ .error fault :: items) = us.map .ok ++ items := by
  induction us with
  | nil => rfl
  | cons u us ih => simp [eraseFault, ih]

def TokenStream.reads {σ : Type} [TokenStream σ] : Nat → σ → List Item
  | 0, _ => []
  | n + 1, s => (read s).1 :: reads n (read s).2

theorem Simulation.reads {σ τ : Type} [TokenStream σ] [TokenStream τ] {R : List Checkpoint → σ → τ → Prop}
    (sim : Simulation R) {marks : List Checkpoint} {s : σ} {t : τ} (h : R marks s t) (n : Nat) :
    TokenStream.reads n s = TokenStream.reads n t := by
  induction n generalizing s t with
  | zero => rfl
  | succ n ih =>
    obtain ⟨hitem, hstate⟩ := sim.read h
    rw [TokenStream.reads, TokenStream.reads, hitem, ih hstate]

namespace Tape

theorem take_append_replicate {items : List Item} {n m : Nat} (h : n ≤ items.length + m) (item : Item) :
    (items ++ List.replicate (m + 1) item).take n = (items ++ List.replicate m item).take n := by
  rw [List.replicate_succ', ← List.append_assoc, List.take_append_of_le_length (by simpa using h)]

/-- Reading gives the items ahead, and the end of the input after them. -/
theorem reads_eq (n : Nat) (tape : Tape) : TokenStream.reads n tape =
    (tape.ahead ++ List.replicate n (Except.ok Token.endOfInput)).take n := by
  induction n generalizing tape with
  | zero => simp [TokenStream.reads]
  | succ n ih =>
    rw [TokenStream.reads, ih]
    rcases tape with ⟨past, _ | ⟨_ | token, rest⟩⟩
    · simp [TokenStream.read, read, List.replicate_succ]
    · simp [TokenStream.read, read, take_append_replicate (Nat.le_add_left n rest.length)]
    · simp [TokenStream.read, read, take_append_replicate (Nat.le_add_left n rest.length)]

/-- Looking ahead changes nothing unless a fault is met, and this fault is dropped. -/
theorem look_cases (k : Nat) (items : List Item) :
    match look k items with
    | (.ok _, items') => items' = items
    | (.error fault, items') => ∃ (us : List Token) (later : List Item), us.length ≤ k ∧
      items = us.map .ok ++ .error fault :: later ∧ items' = us.map .ok ++ later := by
  induction items generalizing k with
  | nil => simp [look]
  | cons item items ih =>
    rcases item with fault | token
    · simp only [look]
      exact ⟨[], items, Nat.zero_le _, rfl, rfl⟩
    cases k with
    | zero => simp [look]
    | succ k =>
      have hrest := ih k
      rw [look]
      rcases hlook : look k items with ⟨fault | other, items'⟩ <;> rw [hlook] at hrest
      · obtain ⟨us, later, hle, hitems, hitems'⟩ := hrest
        exact ⟨token :: us, later, Nat.succ_le_succ hle, congrArg _ hitems, congrArg _ hitems'⟩
      · exact congrArg _ hrest

/-- A fault that was looked at is the first one that reading would give, and is not given again. -/
theorem reads_of_drops {past : List Token} {us : List Token} {fault : LexError} {later : List Item}
    {k n : Nat} (hlength : us.length ≤ k) (hk : k ≤ n) :
    let tape : Tape := ⟨past, us.map .ok ++ .error fault :: later⟩
    Item.fault? (TokenStream.reads (k + 1) tape) = some fault ∧
      TokenStream.reads n (⟨past, us.map .ok ++ later⟩ : Tape) =
        Item.eraseFault (TokenStream.reads (n + 1) tape) := by
  have hreads : ∀ m, us.length ≤ m →
      TokenStream.reads (m + 1) (⟨past, us.map .ok ++ .error fault :: later⟩ : Tape) =
        us.map .ok ++ .error fault ::
          (later ++ List.replicate (m + 1) (Except.ok Token.endOfInput)).take (m - us.length) := by
    intro m hm
    rw [reads_eq, List.append_assoc, List.cons_append, List.take_append,
      List.take_of_length_le (by simp; omega), List.length_map, Nat.succ_sub hm, List.take_succ_cons]
  constructor
  · rw [hreads k hlength, Item.fault?_map_ok_append]
    rfl
  · rw [hreads n (Nat.le_trans hlength hk), Item.eraseFault_map_ok_append, reads_eq, List.append_assoc,
      List.take_append, List.take_of_length_le (by simp; omega), List.length_map,
      take_append_replicate (by omega)]

end Tape

/-- A token that was looked at is looked at again, and whatever is asked later gets the same answers
as if nobody had looked. A fault that was looked at is the first one that the next reads would have
given, and later reads give what they would have given without it. -/
theorem Lexer.peek_keeps_reads (source : Source) (options : LexerOptions) (calls : List Call) (k : Nat) :
    let m := TokenStream.after (ofSource source options) calls
    match m.stream.peek k with
    | (.ok token, after) => (after.peek k).1 = .ok token ∧
      ∀ later, ((⟨after, m.marks⟩ : Marked Lexer).run later).1 = (m.run later).1
    | (.error fault, after) => Item.fault? (TokenStream.reads (k + 1) m.stream) = some fault ∧
      ∀ n, k ≤ n → TokenStream.reads n after = Item.eraseFault (TokenStream.reads (n + 1) m.stream) := by
  intro m
  have hshows : Shows m.marks m.stream (TokenStream.after (⟨[], source.items options 0⟩ : Tape) calls).stream :=
    after_shows source options calls
  generalize (TokenStream.after (⟨[], source.items options 0⟩ : Tape) calls).stream = tape at hshows
  obtain ⟨past, ahead⟩ := tape
  obtain ⟨hresult, hafter⟩ := hshows.peek k
  have hlook := Tape.look_cases k ahead
  rcases hpeek : m.stream.peek k with ⟨fault | token, after⟩ <;> rw [hpeek] at hresult hafter
  · rcases hahead : Tape.look k ahead with ⟨_ | _, items'⟩ <;> simp only [Tape.peek, hahead] at hresult hafter hlook
    · cases hresult
      obtain ⟨us, later, hle, rfl, rfl⟩ := hlook
      rw [simulation.reads hshows]
      refine ⟨(Tape.reads_of_drops hle (Nat.le_refl k)).1, fun n hn => ?_⟩
      rw [simulation.reads hafter, simulation.reads hshows]
      exact (Tape.reads_of_drops hle hn).2
    · cases hresult
  · rcases hahead : Tape.look k ahead with ⟨_ | _, items'⟩ <;> simp only [Tape.peek, hahead] at hresult hafter hlook
    · cases hresult
    · subst hlook
      refine ⟨?_, fun later => ?_⟩
      · rw [(hafter.peek k).1, Tape.peek, hahead, hresult]
      · let tape : Marked Tape := ⟨⟨past, items'⟩, m.marks⟩
        have hlater : ((⟨after, m.marks⟩ : Marked Lexer).run later).1 = (tape.run later).1 :=
          (simulation.run rfl hafter later).1
        exact hlater.trans (simulation.run rfl hshows later).1.symm

/-- A fault that was looked at is not told again, neither to those who look nor to those who read. -/
theorem Lexer.peek_loses_fault :
    let lexer := ofSource [.text ['`'], .text ['a']] {}
    (lexer.peek 0).1 = .error ⟨1, .scan (.badToken 1 "`")⟩ ∧
      ((lexer.peek 0).2.peek 0).1 = .ok (.scanned 2 (.identifier "a")) ∧
      TokenStream.reads 2 lexer =
        [.error ⟨1, .scan (.badToken 1 "`")⟩, .ok (.scanned 2 (.identifier "a"))] ∧
      TokenStream.reads 2 (lexer.peek 0).2 =
        [.ok (.scanned 2 (.identifier "a")), .ok (.scanned 2 .endOfLine)] := by
  refine ⟨?_, ?_, ?_, ?_⟩ <;> cbv

end ParseKit
