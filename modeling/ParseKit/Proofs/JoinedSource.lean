import ParseKit.ParseError
import ParseKit.Proofs.LineNumbers

/-! Two sources one after the other. The lines of the second one keep what they scan to and get later
numbers, so that everything with the number of a line in it can be renumbered. Main statements:
`Source.ofString_append`, a text that ends a line is cut off there, and `Source.tokens_append` with
`Source.fault?_append`. -/

namespace ParseKit

section Renumbering

variable (f : Nat → Nat)

/-- The token on the line that is renumbered by `f`. -/
def Token.mapLine : Token → Token
  | scanned line lexeme => scanned (f line) lexeme
  | endOfInput => endOfInput

def LexError.mapLine (error : LexError) : LexError :=
  { error with line := f error.line }

def ParseError.mapLine : ParseError → ParseError
  | lex error => lex (error.mapLine f)
  | unexpected found => unexpected (found.mapLine f)
  | invalidArgument kind line? reason => invalidArgument kind (line?.map f) reason
  | grammar error => grammar error

def Item.mapLine : Item → Item
  | .ok token => .ok (token.mapLine f)
  | .error fault => .error (fault.mapLine f)

namespace Node

mutual

def mapLines : Node → Node
  | leaf kind token => leaf kind (token.mapLine f)
  | list kind children => list kind (mapLinesAmong children)

def mapLinesAmong : List Node → List Node
  | [] => []
  | node :: rest => node.mapLines :: mapLinesAmong rest

end

@[simp] theorem mapLines_leaf (kind : NodeKind) (token : Token) :
    (leaf kind token).mapLines f = leaf kind (token.mapLine f) := by
  rw [mapLines]

@[simp] theorem mapLinesAmong_eq (nodes : List Node) : mapLinesAmong f nodes = nodes.map (mapLines f) := by
  induction nodes with
  | nil => rw [mapLinesAmong, List.map_nil]
  | cons node rest ih => rw [mapLinesAmong, ih, List.map_cons]

@[simp] theorem mapLines_list (kind : NodeKind) (children : List Node) :
    (list kind children).mapLines f = list kind (children.map (mapLines f)) := by
  rw [mapLines, mapLinesAmong_eq]

end Node

@[simp] theorem Token.mapLine_scanned (line : Nat) (lexeme : Lexeme) :
    (scanned line lexeme).mapLine f = scanned (f line) lexeme := rfl

@[simp] theorem Token.line?_mapLine (token : Token) : (token.mapLine f).line? = token.line?.map f := by
  cases token <;> rfl

/-- Renumbering moves an error to the renumbered line, when it has one. -/
@[simp] theorem ParseError.line?_mapLine (error : ParseError) :
    (error.mapLine f).line? = error.line?.map f := by
  cases error <;> simp [mapLine, line?, LexError.mapLine]

theorem Token.mapLine_mapLine {f g : Nat → Nat} (h : ∀ line, g (f line) = line) (token : Token) :
    (token.mapLine f).mapLine g = token := by
  cases token <;> simp [mapLine, h]

namespace Item

theorem tokens_map_mapLine (items : List Item) :
    tokens (items.map (mapLine f)) = (tokens items).map (Token.mapLine f) := by
  induction items with
  | nil => rfl
  | cons item items ih => cases item <;> simp [tokens, mapLine, ih]

theorem fault?_map_mapLine (items : List Item) :
    fault? (items.map (mapLine f)) = (fault? items).map (LexError.mapLine f) := by
  induction items with
  | nil => rfl
  | cons item items ih => cases item <;> simp [fault?, mapLine, ih]

end Item

end Renumbering

namespace Source

theorem lineTokens_add (options : LexerOptions) (line n : Nat) (lexemes : List Lexeme) :
    lineTokens options (line + n) lexemes =
      (lineTokens options line lexemes).map (Token.mapLine (· + n)) := by
  rw [lineTokens, lineTokens, List.map_map]
  rfl

theorem lineItems_add (options : LexerOptions) (line n : Nat) (physical : PhysicalLine) :
    lineItems options (line + n) physical = (lineItems options line physical).map (Item.mapLine (· + n)) := by
  cases physical with
  | undecodable => rfl
  | text chars =>
    cases hscan : Scan.lexemes chars with
    | error fault => simp [lineItems, hscan, Item.mapLine, LexError.mapLine]
    | ok lexemes => simp [lineItems, hscan, lineTokens_add, Item.mapLine, Function.comp_def]

theorem items_add (options : LexerOptions) (line n : Nat) (source : Source) :
    source.items options (line + n) = (source.items options line).map (Item.mapLine (· + n)) := by
  induction source generalizing line with
  | nil => rfl
  | cons physical rest ih =>
    have hrest := ih (if physical = .undecodable then line else line + 1)
    rw [items_cons, items_cons, Nat.add_right_comm, lineItems_add, List.map_append, ← hrest]
    split <;> simp [Nat.add_right_comm]

theorem fault?_items_cons {options : LexerOptions} {line : Nat} {physical : PhysicalLine} {rest : Source}
    (h : Item.fault? (items options line (physical :: rest)) = none) :
    physical ≠ .undecodable ∧ Item.fault? (rest.items options (line + 1)) = none := by
  cases physical with
  | undecodable => simp [items, Item.fault?] at h
  | text chars =>
    cases hscan : Scan.lexemes chars with
    | error fault => simp [items, hscan, Item.fault?] at h
    | ok lexemes =>
      refine ⟨by simp, ?_⟩
      simpa [items, hscan] using h

theorem items_append {options : LexerOptions} {line : Nat} {first : Source}
    (h : Item.fault? (first.items options line) = none) (second : Source) :
    (first ++ second).items options line =
      first.items options line ++ second.items options (line + first.length) := by
  induction first generalizing line with
  | nil => rfl
  | cons physical rest ih =>
    obtain ⟨htext, hrest⟩ := fault?_items_cons h
    have hlength : line + (rest.length + 1) = line + 1 + rest.length := by omega
    rw [List.cons_append, items_cons, items_cons, if_neg htext, ih hrest, List.append_assoc,
      List.length_cons, hlength]

section Append

variable {first : Source} (h : first.fault? = none) (second : Source)
include h

theorem items_append_eq (options : LexerOptions) : (first ++ second).items options 0 =
    (first.tokens options).map .ok ++ (second.items options 0).map (Item.mapLine (· + first.length)) := by
  rw [fault?, fault?_items {} options] at h
  rw [items_append h, items_add, tokens, ← Item.eq_map_ok_of_fault?_eq_none h]

theorem tokens_append (options : LexerOptions) : (first ++ second).tokens options =
    first.tokens options ++ (second.tokens options).map (Token.mapLine (· + first.length)) := by
  rw [tokens, items_append_eq h, Item.tokens_map_ok_append, Item.tokens_map_mapLine, ← tokens]

/-- The fault of the second source is that of both, on a later line. -/
theorem fault?_append : (first ++ second).fault? =
    second.fault?.map (LexError.mapLine (· + first.length)) := by
  rw [fault?, items_append_eq h, Item.fault?_map_ok_append, Item.fault?_map_mapLine, ← fault?]

end Append

section Cut

variable {α : Type} {lf cr : α}

theorem ended_last {last : List α} (h : last = [] ∨ last.getLast? = some lf) (hlast : lf ∉ last) :
    last = [] :=
  h.resolve_right fun hend => hlast (List.mem_of_getLast? hend)

theorem ended_rest {line rest : List α}
    (h : line ++ lf :: rest = [] ∨ (line ++ lf :: rest).getLast? = some lf) :
    rest = [] ∨ rest.getLast? = some lf := by
  by_cases hnil : rest = []
  · exact .inl hnil
  · have hend : (line ++ lf :: rest).getLast? = some lf := h.resolve_left (by simp)
    refine .inr ?_
    rwa [List.getLast?_append_of_ne_nil _ (by simp), List.getLast?_cons_of_ne_nil hnil] at hend

variable [DecidableEq α]

/-- A text that is empty or ends with a terminator is cut off there. -/
theorem cut_append_of_ended {first : List α} (h : first = [] ∨ first.getLast? = some lf)
    (second : List α) : cut lf cr [] (first ++ second) = cut lf cr [] first ++ cut lf cr [] second := by
  induction first using lines_induction lf with
  | last last hlast =>
    rw [ended_last h hlast]
    rfl
  | cons line rest hline ih =>
    rw [List.append_assoc, List.cons_append, cut_append hline, cut_append hline, ih (ended_rest h),
      List.cons_append]

theorem length_cut_of_ended {text : List α} (h : text = [] ∨ text.getLast? = some lf) :
    (cut lf cr [] text).length = text.count lf := by
  induction text using lines_induction lf with
  | last last hlast =>
    rw [ended_last h hlast]
    rfl
  | cons line rest hline ih =>
    rw [cut_append hline, List.length_cons, ih (ended_rest h), List.count_append, List.count_cons_self,
      List.count_eq_zero_of_not_mem hline, Nat.zero_add]

end Cut

section Ended

variable {first : String} (h : first = "" ∨ first.toList.getLast? = some '\n')
include h

theorem ended_toList : first.toList = [] ∨ first.toList.getLast? = some '\n' :=
  h.imp_left (by simp)

/-- A text that is empty or ends with a line feed ends with a line. -/
theorem ofString_append (second : String) :
    ofString (first ++ second) = ofString first ++ ofString second := by
  rw [ofString, String.toList_append, ofChars, cut_append_of_ended (ended_toList h), List.map_append]
  rfl

theorem length_ofString : (ofString first).length = first.toList.count '\n' := by
  rw [ofString, ofChars, List.length_map, length_cut_of_ended (ended_toList h)]

end Ended

end Source

end ParseKit
