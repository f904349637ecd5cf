import Mathlib
import ParseKit.Format.Drawing
import ParseKit.Format.Parenthesised
import ParseKit.Proofs.Leaves
import ParseKit.Proofs.WrittenLine
import ParseKit.Proofs.Script.WellFormed

/-! How many lines the formats write that mean to give a line to each statement or to each node. Texts
are put on a line as they are, and a line feed in one of them begins another line. Main statement:
`Script.outputs_break_at_line_feeds`, with `Script.outputs_break_string` for a string that takes two
lines. -/

namespace ParseKit

def Text.lineCount (text : String) : Nat :=
  text.toList.count '\n'

namespace Text

@[simp] theorem lineCount_append (first second : String) :
    lineCount (first ++ second) = lineCount first + lineCount second := by
  simp [lineCount]

theorem lineCount_eq_zero_iff {text : String} : lineCount text = 0 ↔ '\n' ∉ text.toList :=
  List.count_eq_zero

end Text

open Text

namespace Node

mutual

def subtrees : Node → List Node
  | leaf kind token => [leaf kind token]
  | list kind children => list kind children :: subtreesAmong children

def subtreesAmong : List Node → List Node
  | [] => []
  | node :: rest => node.subtrees ++ subtreesAmong rest

end

@[simp] theorem subtrees_leaf (kind : NodeKind) (token : Token) :
    (leaf kind token).subtrees = [leaf kind token] := by
  rw [subtrees]

@[simp] theorem subtrees_list (kind : NodeKind) (children : List Node) :
    (list kind children).subtrees = list kind children :: subtreesAmong children := by
  rw [subtrees]

@[simp] theorem subtreesAmong_nil : subtreesAmong [] = [] := by
  rw [subtreesAmong]

@[simp] theorem subtreesAmong_cons (node : Node) (rest : List Node) :
    subtreesAmong (node :: rest) = node.subtrees ++ subtreesAmong rest := by
  rw [subtreesAmong]

section All

variable {P : Node → Prop} {node : Node} {nodes : List Node}

theorem forall_subtreesAmong_cons (h : ∀ n ∈ subtreesAmong [node], P n) (hrest : ∀ n ∈ subtreesAmong nodes, P n) :
    ∀ n ∈ subtreesAmong (node :: nodes), P n := by
  intro n hmem
  rcases List.mem_append.1 (subtreesAmong_cons node nodes ▸ hmem) with hmem | hmem
  · exact h n (by simpa using hmem)
  · exact hrest n hmem

theorem forall_subtreesAmong_list {kind : NodeKind} (h : P (list kind nodes))
    (hnodes : ∀ n ∈ subtreesAmong nodes, P n) : ∀ n ∈ subtreesAmong [list kind nodes], P n := by
  intro n hmem
  rcases List.mem_cons.1 (by simpa using hmem) with rfl | hmem
  · exact h
  · exact hnodes n hmem

end All

mutual

theorem mem_leaves_iff {token : Token} :
    ∀ node : Node, token ∈ node.leaves ↔ ∃ kind, leaf kind token ∈ node.subtrees
  | leaf kind other => by simp [eq_comm]
  | list kind children => by simp [mem_leavesAmong_iff children]

theorem mem_leavesAmong_iff {token : Token} :
    ∀ nodes : List Node, token ∈ leavesAmong nodes ↔ ∃ kind, leaf kind token ∈ subtreesAmong nodes
  | [] => by simp
  | node :: rest => by simp [mem_leaves_iff node, mem_leavesAmong_iff rest, exists_or]

end

mutual

theorem leaves_subset {n : Node} : ∀ {node : Node}, n ∈ node.subtrees → n.leaves ⊆ node.leaves
  | leaf kind token, h => by simp_all
  | list kind children, h => by
    rw [subtrees_list, List.mem_cons] at h
    rcases h with rfl | h
    · exact List.Subset.refl _
    · rw [leaves_list]
      exact leavesAmong_subset h

theorem leavesAmong_subset {n : Node} :
    ∀ {nodes : List Node}, n ∈ subtreesAmong nodes → n.leaves ⊆ leavesAmong nodes
  | [], h => by simp at h
  | node :: rest, h => by
    rw [subtreesAmong_cons, List.mem_append] at h
    rw [leavesAmong_cons]
    rcases h with h | h
    · exact List.Subset.trans (leaves_subset h) (List.subset_append_left _ _)
    · exact List.Subset.trans (leavesAmong_subset h) (List.subset_append_right _ _)

end

theorem renderAll_cons_cons (node next : Node) (rest : List Node) :
    renderAll (node :: next :: rest) = node.render ++ " " ++ renderAll (next :: rest) := by
  rw [renderAll]
  simp

mutual

theorem lineCount_render : ∀ node : Node,
    lineCount node.render = (node.leaves.flatMap (·.text.toList)).count '\n'
  | leaf kind token => by simp [render, lineCount]
  | list kind children => by
    have hopen : lineCount "(" = 0 := by decide
    have hclose : lineCount ")" = 0 := by decide
    simp [render, lineCount_renderAll children, hopen, hclose]

theorem lineCount_renderAll : ∀ nodes : List Node,
    lineCount (renderAll nodes) = ((leavesAmong nodes).flatMap (·.text.toList)).count '\n'
  | [] => by simp [renderAll, lineCount]
  | [node] => by simp [renderAll, lineCount_render node]
  | node :: next :: rest => by
    have hspace : lineCount " " = 0 := by decide
    rw [renderAll_cons_cons, lineCount_append, lineCount_append, lineCount_render node,
      lineCount_renderAll (next :: rest), hspace, leavesAmong_cons node, List.flatMap_append,
      List.count_append, Nat.add_zero]

end

section Cut

variable {c : Char}

theorem mem_take_of_le {text : List Char} {n m : Nat} (h : c ∈ text.take n) (hle : n ≤ m) :
    c ∈ text.take m :=
  (List.take_prefix_take_left hle).mem h

mutual

/-- What stands within the first characters of a rendering stands as early in a leaf, unless it is a
space or a parenthesis. -/
theorem exists_leaf_of_mem_render (hopen : c ≠ '(') (hclose : c ≠ ')') (hspace : c ≠ ' ') {n : Nat} :
    ∀ {node : Node}, c ∈ node.render.toList.take n → ∃ token ∈ node.leaves, c ∈ token.text.toList.take n
  | leaf kind token, h => ⟨token, by simp, h⟩
  | list kind children, h => by
    cases n with
    | zero => simp at h
    | succ n =>
      have hinner : c ∈ (renderAll children).toList.take n := by
        have hparts : c ∈ (renderAll children).toList.take n ∨
            c ∈ [')'].take (n - (renderAll children).toList.length) := by
          simpa [render, hopen, List.take_append] using h
        exact hparts.resolve_right fun hmem => hclose (by simpa using List.mem_of_mem_take hmem)
      obtain ⟨token, hmem, htoken⟩ := exists_leaf_of_mem_renderAll hopen hclose hspace hinner
      exact ⟨token, by simpa using hmem, mem_take_of_le htoken n.le_succ⟩

theorem exists_leaf_of_mem_renderAll (hopen : c ≠ '(') (hclose : c ≠ ')') (hspace : c ≠ ' ') {n : Nat} :
    ∀ {nodes : List Node}, c ∈ (renderAll nodes).toList.take n →
      ∃ token ∈ leavesAmong nodes, c ∈ token.text.toList.take n
  | [], h => by simp [renderAll] at h
  | [node], h => by
    rw [renderAll] at h
    simpa using exists_leaf_of_mem_render hopen hclose hspace h
  | node :: next :: rest, h => by
    rw [renderAll_cons_cons, String.toList_append, String.toList_append, List.append_assoc, List.take_append,
      List.mem_append] at h
    rw [leavesAmong_cons]
    rcases h with h | h
    · obtain ⟨token, hmem, htoken⟩ := exists_leaf_of_mem_render hopen hclose hspace h
      exact ⟨token, List.mem_append_left _ hmem, htoken⟩
    · rw [List.take_append, List.mem_append] at h
      have hlater := h.resolve_left fun hmem => hspace (by simpa using List.mem_of_mem_take hmem)
      obtain ⟨token, hmem, htoken⟩ := exists_leaf_of_mem_renderAll hopen hclose hspace hlater
      exact ⟨token, List.mem_append_right _ hmem, mem_take_of_le htoken (by omega)⟩

end

end Cut

end Node

namespace Parenthesised

theorem lineCount_margin (location? : Option Nat) : lineCount (margin location?) = 0 := by
  cases location? with
  | none => decide
  | some line =>
    have hdigits : '\n' ∉ (toString line).toList := by
      intro hmem
      have htext : (toString line).toList = Nat.toDigits 10 line := Nat.toList_repr
      rw [htext] at hmem
      exact absurd (Nat.isDigit_of_mem_toDigits (by decide) (by decide) hmem) (by decide)
    have hbar : lineCount " | " = 0 := by decide
    have hspaces (n : Nat) : lineCount (spaces n) = 0 := by
      simp [lineCount, spaces, List.count_replicate]
    rw [margin, padLeft, lineCount_append, lineCount_append, hspaces, hbar, lineCount_eq_zero_iff.2 hdigits]

/-- Every statement ends a line, and so does every line feed in a leaf. -/
theorem lineCount_write (showLines : Bool) (nodes : List Node) : lineCount (write showLines nodes) =
    nodes.length + ((Node.leavesAmong nodes).flatMap (·.text.toList)).count '\n' := by
  induction nodes with
  | nil => simp [write, lineCount]
  | cons node nodes ih =>
    have hbreak : lineCount "\n" = 1 := by decide
    have hline : lineCount (line showLines node) = lineCount node.render + 1 := by
      cases showLines <;> simp [line, lineCount_margin, hbreak]
    rw [write, List.map_cons, String.join_cons, lineCount_append, hline, Node.lineCount_render, ← write, ih,
      Node.leavesAmong_cons, List.flatMap_append, List.count_append, List.length_cons]
    omega

end Parenthesised

namespace Drawing

theorem lineCount_clip (limit : Nat) (text : String) :
    lineCount (clip limit text) = (text.toList.take limit).count '\n' := by
  have hdots : lineCount "..." = 0 := by decide
  unfold clip
  split
  · rw [lineCount_append, hdots, lineCount, String.toList_ofList, Nat.add_zero]
  · next hle =>
    rw [lineCount, List.take_of_length_le]
    rw [String.length_toList]
    omega

/-- What a node adds to the line feeds of a drawing, besides the end of its line. -/
def captionFeeds (node : Node) : Nat :=
  lineCount node.kind.name + (node.render.toList.take 30).count '\n'

theorem lineCount_connector (isLast : Bool) : lineCount (connector isLast) = 0 := by
  cases isLast <;> decide

theorem lineCount_continuation (isLast : Bool) : lineCount (continuation isLast) = 0 := by
  cases isLast <;> decide

theorem lineCount_head {margin : String} (hmargin : lineCount margin = 0) (isLast : Bool) (node : Node) :
    lineCount (margin ++ connector isLast ++ caption node ++ "\n") = captionFeeds node + 1 := by
  have hcolon : lineCount ": " = 0 := by decide
  have hbreak : lineCount "\n" = 1 := by decide
  simp [hmargin, lineCount_connector, caption, captionFeeds, lineCount_clip, hcolon, hbreak]

mutual

theorem lineCount_drawNode {margin : String} (hmargin : lineCount margin = 0) (isLast : Bool) :
    ∀ node : Node, lineCount (drawNode margin isLast node) =
      node.subtrees.length + (node.subtrees.map captionFeeds).sum
  | .leaf kind token => by
    rw [drawNode, lineCount_head hmargin]
    simp [Nat.add_comm]
  | .list kind children => by
    have hinner : lineCount (margin ++ continuation isLast) = 0 := by
      rw [lineCount_append, hmargin, lineCount_continuation]
    rw [drawNode, lineCount_append, lineCount_head hmargin, lineCount_drawAll hinner children]
    simp
    omega

/-- Every node ends a line, and so does every line feed in a caption. -/
theorem lineCount_drawAll {margin : String} (hmargin : lineCount margin = 0) :
    ∀ nodes : List Node, lineCount (drawAll margin nodes) =
      (Node.subtreesAmong nodes).length + ((Node.subtreesAmong nodes).map captionFeeds).sum
  | [] => by simp [drawAll, lineCount]
  | node :: rest => by
    rw [drawAll, lineCount_append, lineCount_drawNode hmargin _ node, lineCount_drawAll hmargin rest]
    simp
    omega

end

end Drawing

/-- The kind of the node is written on one line, and so is its token unless it is a string. -/
structure Node.IsPlain (node : Node) : Prop where
  kind : '\n' ∉ node.kind.name.toList
  token : ∀ token, node.token? = some token → '\n' ∈ token.text.toList →
    ∃ line text, token = .scanned line (.string text)

/-- A token of a source is written on one line unless it is a string. -/
theorem Token.Scannable.exists_string {token : Token} (h : token.Scannable)
    (hmem : '\n' ∈ token.text.toList) : ∃ line text, token = .scanned line (.string text) := by
  rcases token with ⟨line, lexeme⟩ | _
  · cases lexeme with
    | string text => exact ⟨line, text, rfl⟩
    | endOfLine =>
      have hfree : '\n' ∉ endOfLineText.toList := by decide
      exact absurd hmem hfree
    | number | identifier | operator =>
      exact absurd hmem (Scan.FitsLine.written (h.resolve_right (by simp))).newline
  · exact absurd hmem (by decide)

namespace Script

section Plain

def AllPlain (nodes : List Node) : Prop :=
  ∀ node ∈ Node.subtreesAmong nodes, node.IsPlain

theorem AllPlain.nil : AllPlain [] := by simp [AllPlain]

theorem AllPlain.cons {node : Node} {nodes : List Node} (h : AllPlain [node]) (hrest : AllPlain nodes) :
    AllPlain (node :: nodes) :=
  Node.forall_subtreesAmong_cons h hrest

theorem AllPlain.list {kind : NodeKind} {children : List Node} (hkind : '\n' ∉ kind.name.toList)
    (h : AllPlain children) : AllPlain [.list kind children] := by
  apply Node.forall_subtreesAmong_list _ h
  exact ⟨hkind, fun token htoken => by cases htoken⟩

theorem AllPlain.leaf {kind : NodeKind} {token : Token} (hkind : '\n' ∉ kind.name.toList)
    (h : token.Scannable) : AllPlain [.leaf kind token] := by
  intro n hmem
  obtain rfl : n = .leaf kind token := by simpa using hmem
  refine ⟨hkind, fun other hother => ?_⟩
  cases hother
  exact h.exists_string

theorem IsExpression.plain {node : Node} (h : IsExpression node) : AllPlain [node] := by
  induction h with
  | number line hlower hupper => exact .leaf (by decide) (.inl ⟨hlower, hupper⟩)
  | name line h => exact .leaf (by decide) (.inl h)
  | string line text => exact .leaf (by decide) (.inl trivial)
  | negative _ ih => exact .list (by decide) ih
  | binary _ hoperator _ ihl ihr =>
    exact .list (by decide) (ihl.cons ((AllPlain.leaf (by decide) (isOperator_iff.1 hoperator).2).cons ihr))

mutual

theorem IsBlock.plain {node : Node} : IsBlock node → AllPlain [node]
  | .intro h => .list (by decide) h.plain

theorem IsBody.plain {nodes : List Node} : IsBody nodes → AllPlain nodes
  | .nil => .nil
  | .cons h hrest => h.plain.cons hrest.plain

theorem IsStatement.plain {node : Node} : IsStatement node → AllPlain [node]
  | .expression h => h.plain
  | .ifThen hcondition hbody => .list (by decide) (hcondition.plain.cons hbody.plain)
  | .ifElse hcondition hbody hotherwise =>
    .list (by decide) (hcondition.plain.cons (hbody.plain.cons hotherwise.plain))
  | .whileLoop hcondition hbody => .list (by decide) (hcondition.plain.cons hbody.plain)

end

theorem IsProgram.plain {nodes : List Node} (h : IsProgram nodes) : AllPlain nodes := by
  induction h with
  | nil => exact .nil
  | statement h _ ih => exact h.plain.cons ih
  | null _ ih => exact (AllPlain.list (by decide) .nil).cons ih

theorem AllPlain.sum_captionFeeds {nodes : List Node} (h : AllPlain nodes) :
    ((Node.subtreesAmong nodes).map Drawing.captionFeeds).sum =
      ((Node.subtreesAmong nodes).flatMap (·.render.toList.take 30)).count '\n' := by
  rw [List.count_flatMap]
  congr 1
  refine List.map_congr_left fun node hmem => ?_
  rw [Drawing.captionFeeds, lineCount_eq_zero_iff.2 (h node hmem).kind, Nat.zero_add, Function.comp_apply]

theorem AllPlain.exists_string {nodes : List Node} (h : AllPlain nodes) {token : Token}
    (hleaf : token ∈ Node.leavesAmong nodes) (hmem : '\n' ∈ token.text.toList) :
    ∃ line text, token = .scanned line (.string text) := by
  obtain ⟨kind, hnode⟩ := (Node.mem_leavesAmong_iff nodes).1 hleaf
  exact (h _ hnode).token token rfl hmem

theorem AllPlain.count_leaves_eq_zero_iff {nodes : List Node} (h : AllPlain nodes) :
    ((Node.leavesAmong nodes).flatMap (·.text.toList)).count '\n' = 0 ↔
      ∀ line text, .scanned line (.string text) ∈ Node.leavesAmong nodes → '\n' ∉ text.toList := by
  rw [List.count_eq_zero, List.mem_flatMap]
  constructor
  · exact fun hnone line text hleaf hmem => hnone ⟨_, hleaf, hmem⟩
  · rintro hnone ⟨token, hleaf, hmem⟩
    obtain ⟨line, text, rfl⟩ := h.exists_string hleaf hmem
    exact hnone line text hleaf hmem

theorem AllPlain.count_captions_eq_zero_iff {nodes : List Node} (h : AllPlain nodes) :
    ((Node.subtreesAmong nodes).flatMap (·.render.toList.take 30)).count '\n' = 0 ↔
      ∀ line text, .scanned line (.string text) ∈ Node.leavesAmong nodes → '\n' ∉ text.toList.take 30 := by
  rw [List.count_eq_zero, List.mem_flatMap]
  constructor
  · intro hnone line text hleaf hmem
    obtain ⟨kind, hnode⟩ := (Node.mem_leavesAmong_iff nodes).1 hleaf
    exact hnone ⟨_, hnode, hmem⟩
  · rintro hnone ⟨node, hnode, hmem⟩
    -- cut off in a caption or not, a line feed is one of a leaf, and early enough in it
    obtain ⟨token, hbelow, htoken⟩ :=
      Node.exists_leaf_of_mem_render (by decide) (by decide) (by decide) hmem
    have hleaf := Node.leavesAmong_subset hnode hbelow
    obtain ⟨line, text, rfl⟩ := h.exists_string hleaf (List.mem_of_mem_take htoken)
    exact hnone line text hleaf htoken

end Plain

/-- The parenthesised format has a line for every statement and one more for every line feed in a
leaf, and the drawing has a line for every node and one more for every line feed that its caption
shows. The leaves with line feeds are strings, so that the lines are as many as the statements or the
nodes just when no string holds one, or none early enough to be shown. -/
theorem outputs_break_at_line_feeds {source : Source} {options : LexerOptions} {nodes : List Node}
    (h : parseProgram source options = .ok nodes) :
    (∀ showLines, lineCount (Parenthesised.write showLines nodes) =
      nodes.length + ((Node.leavesAmong nodes).flatMap (·.text.toList)).count '\n') ∧
    lineCount (Drawing.write nodes) = (Node.subtreesAmong nodes).length +
      ((Node.subtreesAmong nodes).flatMap (·.render.toList.take 30)).count '\n' ∧
    (∀ showLines, lineCount (Parenthesised.write showLines nodes) = nodes.length ↔
      ∀ line text, .scanned line (.string text) ∈ Node.leavesAmong nodes → '\n' ∉ text.toList) ∧
    (lineCount (Drawing.write nodes) = (Node.subtreesAmong nodes).length ↔
      ∀ line text, .scanned line (.string text) ∈ Node.leavesAmong nodes →
        '\n' ∉ text.toList.take 30) := by
  have hplain : AllPlain nodes := (isProgram_of_parseProgram h).plain
  have hdrawing : lineCount (Drawing.write nodes) = (Node.subtreesAmong nodes).length +
      ((Node.subtreesAmong nodes).flatMap (·.render.toList.take 30)).count '\n' := by
    have hmargin : lineCount "" = 0 := by decide
    rw [Drawing.write, Drawing.lineCount_drawAll hmargin, hplain.sum_captionFeeds]
  refine ⟨fun showLines => Parenthesised.lineCount_write showLines nodes, hdrawing, fun showLines => ?_, ?_⟩
  · rw [Parenthesised.lineCount_write, Nat.add_eq_left, hplain.count_leaves_eq_zero_iff]
  · rw [hdrawing, Nat.add_eq_left, hplain.count_captions_eq_zero_iff]

/-- A line feed that two captions show. -/
theorem outputs_break_at_line_feeds_negative :
    let nodes : List Node := [.list negativeKind [.leaf stringKind (.scanned 1 (.string "\n"))]]
    parseProgram (Source.ofString "-\"\\n\"\n") {} = .ok nodes ∧
      lineCount (Parenthesised.write true nodes) = 2 ∧ lineCount (Drawing.write nodes) = 4 := by
  intro nodes
  have htokens : Source.tokens {} (Source.ofString "-\"\\n\"\n") =
      [.scanned 1 (.operator "-"), .scanned 1 (.string "\n"), .scanned 1 .endOfLine] := by cbv
  have hexpr : Expr [.scanned 1 (.operator "-"), .scanned 1 (.string "\n")]
      (.list negativeKind [.leaf stringKind (.scanned 1 (.string "\n"))]) :=
    @Expr.grouped _ _ [] (.operand _) (.factor (.negative ⟨1, rfl⟩ (.string 1 _))) ⟨rfl, rfl, trivial⟩
  have hphrases : Phrases Program (Source.tokens {} (Source.ofString "-\"\\n\"\n")) nodes := by
    rw [htokens]
    exact .cons (Program.statement (.simple hexpr) (.inr ⟨1, rfl⟩)) .nil
  have hparse := (parseProgram_eq_ok_iff _ _).2 ⟨by cbv, hphrases⟩
  obtain ⟨hstatements, hdrawn, -, -⟩ := outputs_break_at_line_feeds hparse
  have hlines : lineCount (Parenthesised.write true nodes) = 2 :=
    (hstatements true).trans (by simp [nodes]; decide)
  exact ⟨hparse, hlines, hdrawn.trans (by simp [nodes]; decide)⟩

/-- One statement of one node takes two lines. -/
theorem outputs_break_string :
    let nodes : List Node := [.leaf stringKind (.scanned 1 (.string "a\nb"))]
    parseProgram (Source.ofString "\"a\\nb\"\n") {} = .ok nodes ∧
      lineCount (Parenthesised.write false nodes) = 2 ∧ nodes.length = 1 ∧
      lineCount (Drawing.write nodes) = 2 ∧ (Node.subtreesAmong nodes).length = 1 := by
  intro nodes
  have htokens : Source.tokens {} (Source.ofString "\"a\\nb\"\n") =
      [.scanned 1 (.string "a\nb"), .scanned 1 .endOfLine] := by cbv
  have hexpr : Expr [.scanned 1 (.string "a\nb")] (.leaf stringKind (.scanned 1 (.string "a\nb"))) :=
    @Expr.grouped _ _ [] (.operand _) (.factor (.primary (.string 1 _))) ⟨rfl, rfl, trivial⟩
  have hphrases : Phrases Program (Source.tokens {} (Source.ofString "\"a\\nb\"\n")) nodes := by
    rw [htokens]
    exact .cons (Program.statement (.simple hexpr) (.inr ⟨1, rfl⟩)) .nil
  have hparse := (parseProgram_eq_ok_iff _ _).2 ⟨by cbv, hphrases⟩
  exact ⟨hparse, by cbv, rfl, by cbv, by simp [nodes]⟩

end Script

end ParseKit
