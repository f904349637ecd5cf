import ParseKit.Proofs.LineNumbers
import ParseKit.Script

/-! How lines end. A line ends in a line feed, with or without a carriage return before it, and the last
one may end without. Whatever is chosen for each line, the source has the same physical lines. End-of-line
tokens mark them and are nothing else: without the markers the other tokens stay. Main statement:
`Source.terminators_do_not_matter`. -/

namespace ParseKit

inductive Terminator where
  | lineFeed
  | carriageReturnLineFeed
  deriving DecidableEq, Repr

/-- A text as lines, each with what ends it. The last line may go without. -/
structure Document (α : Type) where
  lines : List (List α × Terminator)
  last : List α
  final? : Option Terminator

namespace Document

variable {α : Type}

def contents (document : Document α) : List (List α) :=
  document.lines.map Prod.fst ++ [document.last]

section Text

variable (lf cr : α)

def ending : Terminator → List α
  | .lineFeed => [lf]
  | .carriageReturnLineFeed => [cr, lf]

def text (document : Document α) : List α :=
  document.lines.flatMap (fun (line, terminator) => line ++ ending lf cr terminator) ++
    (document.last ++ (document.final?.map (ending lf cr)).getD [])

/-- No line has a line feed or ends in a carriage return, and the last one is not empty. -/
structure Proper (document : Document α) : Prop where
  lineFeed : ∀ line ∈ document.contents, lf ∉ line
  carriageReturn : ∀ line ∈ document.contents, line.getLast? ≠ some cr
  last : document.last ≠ []

end Text

variable {lf cr : α} {document other : Document α}

theorem Proper.of_contents (h : document.Proper lf cr) (hcontents : other.contents = document.contents) :
    other.Proper lf cr where
  lineFeed := hcontents ▸ h.lineFeed
  carriageReturn := hcontents ▸ h.carriageReturn
  last := by
    have hlast := congrArg List.getLast? hcontents
    simp only [contents, List.getLast?_concat, Option.some.injEq] at hlast
    exact hlast ▸ h.last

end Document

namespace Source

section Cut

variable {α : Type} [DecidableEq α] {lf cr : α} (hdiffer : lf ≠ cr)
include hdiffer

/-- A line is cut off at what ends it, whichever that is. -/
theorem cut_ending {line : List α} (hline : lf ∉ line) (hlast : line.getLast? ≠ some cr)
    (terminator : Terminator) (rest : List α) :
    cut lf cr [] (line ++ (Document.ending lf cr terminator ++ rest)) = line :: cut lf cr [] rest := by
  cases terminator with
  | lineFeed =>
    change cut lf cr [] (line ++ lf :: rest) = _
    rw [cut_append hline, List.append_nil, unterminate_reverse hlast]
  | carriageReturnLineFeed =>
    have hreturn : lf ∉ line ++ [cr] := by simp [hline, hdiffer]
    have hsplit : line ++ (Document.ending lf cr .carriageReturnLineFeed ++ rest) =
        (line ++ [cr]) ++ lf :: rest := by simp [Document.ending]
    rw [hsplit, cut_append hreturn]
    simp [unterminate]

theorem cut_text {document : Document α} (h : document.Proper lf cr) :
    cut lf cr [] (document.text lf cr) = document.contents := by
  obtain ⟨lines, last, final?⟩ := document
  obtain ⟨hfeed, hreturn, hlast⟩ := h
  have hend : cut lf cr [] (last ++ (final?.map (Document.ending lf cr)).getD []) = [last] := by
    have hlastFeed : lf ∉ last := hfeed last (by simp [Document.contents])
    cases final? with
    | none => simp [cut_last hlastFeed, hlast]
    | some terminator =>
      have hcut := cut_ending hdiffer hlastFeed (hreturn last (by simp [Document.contents])) terminator []
      rwa [List.append_nil] at hcut
  simp only [Document.text, Document.contents] at hfeed hreturn ⊢
  clear hlast
  induction lines with
  | nil => simpa using hend
  | cons line lines ih =>
    obtain ⟨content, terminator⟩ := line
    simp only [List.map_cons, List.cons_append, List.forall_mem_cons] at hfeed hreturn
    have hrest := ih hfeed.2 hreturn.2
    have hcut := cut_ending hdiffer hfeed.1 hreturn.1 terminator
    simp only [List.flatMap_cons, List.append_assoc, hcut, List.map_cons, List.cons_append] at hrest ⊢
    rw [hrest]

end Cut

theorem ofChars_text {document : Document Char} (h : document.Proper '\n' '\r') :
    ofChars (document.text '\n' '\r') = document.contents.map .text := by
  rw [ofChars, cut_text (by decide) h]

theorem ofBytes_text {document : Document UInt8} (h : document.Proper 10 13) :
    ofBytes (document.text 10 13) = document.contents.map decodeLine := by
  rw [ofBytes, cut_text (by decide) h]

section Markers

/-- Scanned lexemes are no markers, so dropping the markers drops what is added for them. -/
theorem lineTokens_unmarked {chars : List Char} {lexemes : List Lexeme} (h : Scan.lexemes chars = .ok lexemes)
    (line : Nat) : lineTokens ⟨false⟩ line lexemes = (lineTokens ⟨true⟩ line lexemes).filter (!·.isEndOfLine) := by
  have hscanned : ∀ lexeme ∈ lexemes, (!(Token.scanned line lexeme).isEndOfLine) = true := by
    intro lexeme hmem
    have hscannable := (Scan.scannable_of_lexemes h).1 lexeme hmem
    cases lexeme with
    | endOfLine => cases hscannable
    | number | string | identifier | operator => rfl
  simp only [lineTokens, List.map_append, List.filter_append]
  rw [List.filter_eq_self.2 (by simpa using hscanned)]
  rfl

theorem items_unmarked (source : Source) (line : Nat) : Item.tokens (source.items ⟨false⟩ line) =
    (Item.tokens (source.items ⟨true⟩ line)).filter (!·.isEndOfLine) := by
  induction source generalizing line with
  | nil => rfl
  | cons physical rest ih =>
    cases physical with
    | undecodable => rfl
    | text chars =>
      cases hlexemes : Scan.lexemes chars with
      | error fault => simp [items, hlexemes, Item.tokens]
      | ok lexemes =>
        simp only [items, hlexemes, Item.tokens_map_ok_append, List.filter_append, ih,
          lineTokens_unmarked hlexemes]

end Markers

/-- How lines end does not matter. Two texts, of characters or of bytes, whose lines are the same up to
what ends them give the same tokens or the same error, and the same program or the same error, lines,
columns and excerpts included. And where all lines scan, the tokens without end-of-line tokens are those
with them, less these. -/
theorem terminators_do_not_matter :
    (∀ document other : Document Char, document.Proper '\n' '\r' → other.contents = document.contents →
      let source := ofString (String.ofList (document.text '\n' '\r'))
      let source' := ofString (String.ofList (other.text '\n' '\r'))
      ∀ options, tokenize source' options = tokenize source options ∧
        Script.parseProgram source' options = Script.parseProgram source options) ∧
    (∀ document other : Document UInt8, document.Proper 10 13 → other.contents = document.contents →
      let source := ofBytes (document.text 10 13)
      let source' := ofBytes (other.text 10 13)
      ∀ options, tokenize source' options = tokenize source options ∧
        Script.parseProgram source' options = Script.parseProgram source options) ∧
    ∀ source tokens, tokenize source ⟨true⟩ = .ok tokens →
      tokenize source ⟨false⟩ = .ok (tokens.filter (!·.isEndOfLine)) := by
  refine ⟨fun document other h hcontents => ?_, fun document other h hcontents => ?_, fun source tokens h => ?_⟩
  · intro source source' options
    have hsame : source' = source := by
      simp only [source, source', ofString, String.toList_ofList]
      rw [ofChars_text h, ofChars_text (h.of_contents hcontents), hcontents]
    rw [hsame]
    exact ⟨rfl, rfl⟩
  · intro source source' options
    have hsame : source' = source := by
      simp only [source, source']
      rw [ofBytes_text h, ofBytes_text (h.of_contents hcontents), hcontents]
    rw [hsame]
    exact ⟨rfl, rfl⟩
  · rw [tokenize_eq] at h ⊢
    cases hfault : source.fault? with
    | some fault => simp [hfault] at h
    | none =>
      simp only [hfault, Except.ok.injEq] at h ⊢
      rw [← h]
      exact items_unmarked source 0

/-- A carriage return inside a line, an empty line and a string that is not closed; bytes that are no
text; and a number with its marker. -/
theorem terminators_do_not_matter_samples :
    let document : Document Char :=
      ⟨[(['a', '\r', 'b'], .lineFeed), ([], .carriageReturnLineFeed)], ['\"', 'c'], none⟩
    let other : Document Char := ⟨[(['a', '\r', 'b'], .carriageReturnLineFeed), ([], .lineFeed)], ['\"', 'c'],
      some .carriageReturnLineFeed⟩
    let bytes : Document UInt8 := ⟨[([255], .lineFeed)], [49], some .lineFeed⟩
    let bytes' : Document UInt8 := ⟨[([255], .carriageReturnLineFeed)], [49], none⟩
    let tokens : List Token := [.scanned 1 (.number 7), .scanned 1 .endOfLine]
    document.Proper '\n' '\r' ∧ other.contents = document.contents ∧
      tokenize (ofString (String.ofList (other.text '\n' '\r'))) {} =
        tokenize (ofString (String.ofList (document.text '\n' '\r'))) {} ∧
      bytes.Proper 10 13 ∧ bytes'.contents = bytes.contents ∧
      Script.parseProgram (ofBytes (bytes'.text 10 13)) {} = Script.parseProgram (ofBytes (bytes.text 10 13)) {} ∧
      tokenize [.text ['7']] ⟨true⟩ = .ok tokens ∧
      tokenize [.text ['7']] ⟨false⟩ = .ok (tokens.filter (!·.isEndOfLine)) := by
  intro document other bytes bytes' tokens
  have hproper : document.Proper '\n' '\r' := ⟨by decide, by decide, by decide⟩
  have hbytes : bytes.Proper 10 13 := ⟨by decide, by decide, by decide⟩
  have htokens : tokenize [.text ['7']] ⟨true⟩ = .ok tokens := by cbv
  obtain ⟨hchars, hraw, hmarkers⟩ := terminators_do_not_matter
  exact ⟨hproper, rfl, (hchars document other hproper rfl {}).1, hbytes, rfl, (hraw bytes bytes' hbytes rfl {}).2,
    htokens, hmarkers _ _ htokens⟩

end Source

end ParseKit
