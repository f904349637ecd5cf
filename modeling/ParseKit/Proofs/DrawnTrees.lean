import Mathlib
import ParseKit.Proofs.OutputLines

/-! What a drawing tells about the trees it draws. Every node has a line of its own, and the columns
in front of the connectors tell how deep the nodes stand, whatever the captions hold. Main statement:
`Drawing.write_determines`. -/

namespace ParseKit

inductive Branching where
  | mk (children : List Branching)

namespace Node

mutual

def branching : Node → Branching
  | leaf _ _ => .mk []
  | list _ children => .mk (branchings children)

def branchings : List Node → List Branching
  | [] => []
  | node :: rest => node.branching :: branchings rest

end

theorem branching_eq (node : Node) : node.branching = .mk (branchings node.children) := by
  cases node <;> simp [branching, branchings, children]

theorem subtrees_eq (node : Node) : node.subtrees = node :: subtreesAmong node.children := by
  cases node <;> simp [children]

/-- The kind of the node is written on one line, and so is its token. -/
def IsOnOneLine (node : Node) : Prop :=
  '\n' ∉ node.kind.name.toList ∧ ∀ token ∈ node.token?, '\n' ∉ token.text.toList

end Node

/-- A text that consists of lines, each of which is ended. -/
def Text.ofLines (lines : List String) : String :=
  String.join (lines.map (· ++ "\n"))

theorem Text.ofLines_cons (line : String) (lines : List String) :
    ofLines (line :: lines) = line ++ "\n" ++ ofLines lines := by
  rw [ofLines, List.map_cons, String.join_cons, ofLines]

theorem Text.ofLines_append (first second : List String) :
    ofLines (first ++ second) = ofLines first ++ ofLines second := by
  induction first with
  | nil => simp [ofLines]
  | cons line lines ih => simp [ofLines_cons, ih, String.append_assoc]

namespace Drawing

open Text

def captions (nodes : List Node) : List String :=
  (Node.subtreesAmong nodes).map caption

@[simp] theorem captions_nil : captions [] = [] := by simp [captions]

@[simp] theorem captions_cons (node : Node) (rest : List Node) :
    captions (node :: rest) = caption node :: (captions node.children ++ captions rest) := by
  simp [captions, Node.subtrees_eq]

theorem drawNode_eq (margin : String) (isLast : Bool) (node : Node) :
    drawNode margin isLast node = margin ++ connector isLast ++ caption node ++ "\n" ++
      drawAll (margin ++ continuation isLast) node.children := by
  cases node <;> simp [drawNode, drawAll, Node.children]

section Margins

def EndsBefore (margin : String) (text : List Char) : Prop :=
  ∀ c, ¬ margin.toList ++ [c] <+: text

variable {margin : String} {text : List Char}

theorem exists_connector (isLast : Bool) :
    ∃ c, (c = '└' ∨ c = '├') ∧ (connector isLast).toList = c :: ['─', ' '] := by
  cases isLast
  · exact ⟨'├', .inr rfl, rfl⟩
  · exact ⟨'└', .inl rfl, rfl⟩

theorem exists_continuation (isLast : Bool) :
    ∃ c, (c = ' ' ∨ c = '│') ∧ (continuation isLast).toList = c :: [' '] := by
  cases isLast
  · exact ⟨'│', .inr rfl, rfl⟩
  · exact ⟨' ', .inl rfl, rfl⟩

theorem connector_injective {isLast isLast' : Bool} (h : connector isLast = connector isLast') :
    isLast = isLast' := by
  cases isLast <;> cases isLast' <;> first | rfl | exact absurd h (by decide)

theorem endsBefore_nil : EndsBefore margin [] := by
  intro c h
  simp at h

theorem exists_drawAll (margin : String) (node : Node) (rest : List Node) :
    ∃ c tail, (c = '└' ∨ c = '├') ∧ (drawAll margin (node :: rest)).toList = margin.toList ++ c :: tail := by
  obtain ⟨c, hc, hconnector⟩ := exists_connector rest.isEmpty
  rw [drawAll, drawNode_eq]
  simp only [String.toList_append, hconnector, List.append_assoc, List.cons_append, List.nil_append]
  exact ⟨c, _, hc, rfl⟩

theorem EndsBefore.eq_nil {nodes : List Node} {tail : List Char}
    (h : EndsBefore margin ((drawAll margin nodes).toList ++ tail)) : nodes = [] := by
  cases nodes with
  | nil => rfl
  | cons node rest =>
    obtain ⟨c, others, -, hdrawn⟩ := exists_drawAll margin node rest
    refine absurd ⟨others ++ tail, ?_⟩ (h c)
    simp [hdrawn]

/-- What follows the lines of the children does not go on after their margin. -/
theorem EndsBefore.inside (h : EndsBefore margin text) (isLast : Bool) (nodes : List Node) :
    EndsBefore (margin ++ continuation isLast) ((drawAll margin nodes).toList ++ text) := by
  obtain ⟨blank, hblank, hcontinuation⟩ := exists_continuation isLast
  rintro c ⟨tail, htail⟩
  cases nodes with
  | nil =>
    refine h blank ⟨' ' :: c :: tail, ?_⟩
    simpa [drawAll, hcontinuation] using htail
  | cons node rest =>
    obtain ⟨mark, others, hmark, hdrawn⟩ := exists_drawAll margin node rest
    have heq : blank = mark := by
      simp only [String.toList_append, hcontinuation, hdrawn, List.append_assoc, List.cons_append,
        List.append_cancel_left_eq, List.cons.injEq] at htail
      exact htail.1
    rcases hblank with rfl | rfl <;> rcases hmark with rfl | rfl <;> exact absurd heq (by decide)

end Margins

theorem line_inj {line line' rest rest' : List Char} (hline : '\n' ∉ line) (hline' : '\n' ∉ line')
    (h : line ++ '\n' :: rest = line' ++ '\n' :: rest') : line = line' ∧ rest = rest' := by
  have hrun : ∀ {l r : List Char}, '\n' ∉ l → Scan.Run (· != '\n') l ('\n' :: r) := fun hl =>
    ⟨fun c hc => by simpa using ne_of_mem_of_not_mem hc hl, by simp⟩
  have htaken := congrArg (List.takeWhile (· != '\n')) h
  have hleft := congrArg (List.dropWhile (· != '\n')) h
  rw [(hrun hline).takeWhile_eq, (hrun hline').takeWhile_eq] at htaken
  rw [(hrun hline).dropWhile_eq, (hrun hline').dropWhile_eq] at hleft
  exact ⟨htaken, (List.cons.inj hleft).2⟩

/-- The line of a node is known where the margin and the end of the line are. -/
theorem head_inj {margin : String} {isLast isLast' : Bool} {x y : Node} {text text' : List Char}
    (hx : '\n' ∉ (caption x).toList) (hy : '\n' ∉ (caption y).toList)
    (h : (drawNode margin isLast x).toList ++ text = (drawNode margin isLast' y).toList ++ text') :
    isLast = isLast' ∧ caption x = caption y ∧
      (drawAll (margin ++ continuation isLast) x.children).toList ++ text =
        (drawAll (margin ++ continuation isLast') y.children).toList ++ text' := by
  have hbreak : "\n".toList = ['\n'] := by decide
  have hlength : (connector isLast).toList.length = (connector isLast').toList.length := by
    obtain ⟨_, -, hconnector⟩ := exists_connector isLast
    obtain ⟨_, -, hconnector'⟩ := exists_connector isLast'
    rw [hconnector, hconnector']
    rfl
  simp only [drawNode_eq, String.toList_append, hbreak, List.append_assoc, List.append_cancel_left_eq] at h
  obtain ⟨hconnector, hline⟩ := List.append_inj h hlength
  obtain ⟨hcaption, hrest⟩ := line_inj hx hy hline
  refine ⟨connector_injective (String.toList_inj.1 hconnector), String.toList_inj.1 hcaption, ?_⟩
  exact hrest

mutual

/-- Where the lines of two nodes say the same, so do the captions, and the lines of the children. -/
theorem drawNode_inj {margin : String} {isLast : Bool} {text text' : List Char}
    (htext : EndsBefore (margin ++ continuation isLast) text)
    (htext' : EndsBefore (margin ++ continuation isLast) text') :
    ∀ {x y : Node}, (∀ c ∈ captions x.children, '\n' ∉ c.toList) →
      (∀ c ∈ captions y.children, '\n' ∉ c.toList) →
      (drawAll (margin ++ continuation isLast) x.children).toList ++ text =
        (drawAll (margin ++ continuation isLast) y.children).toList ++ text' →
      Node.branchings x.children = Node.branchings y.children ∧
        captions x.children = captions y.children ∧ text = text'
  | .leaf kind token, y, hx, hy, h => by
    have hdrawn : text = (drawAll (margin ++ continuation isLast) y.children).toList ++ text' := by
      simpa [drawAll, Node.children] using h
    have hnil : y.children = [] := EndsBefore.eq_nil (hdrawn ▸ htext)
    rw [hnil] at hdrawn ⊢
    exact ⟨rfl, rfl, by simpa [drawAll] using hdrawn⟩
  | .list kind children, y, hx, hy, h => drawAll_inj htext htext' hx hy h

theorem drawAll_inj {margin : String} {text text' : List Char} (htext : EndsBefore margin text)
    (htext' : EndsBefore margin text') : ∀ {xs ys : List Node}, (∀ c ∈ captions xs, '\n' ∉ c.toList) →
      (∀ c ∈ captions ys, '\n' ∉ c.toList) →
      (drawAll margin xs).toList ++ text = (drawAll margin ys).toList ++ text' →
      Node.branchings xs = Node.branchings ys ∧ captions xs = captions ys ∧ text = text'
  | [], ys, _, _, h => by
    have hdrawn : text = (drawAll margin ys).toList ++ text' := by simpa [drawAll] using h
    obtain rfl : ys = [] := EndsBefore.eq_nil (hdrawn ▸ htext)
    exact ⟨rfl, rfl, by simpa [drawAll] using hdrawn⟩
  | x :: xs, [], _, _, h => by
    have hdrawn : (drawAll margin (x :: xs)).toList ++ text = text' := by simpa [drawAll] using h
    exact absurd (EndsBefore.eq_nil (hdrawn ▸ htext')) (List.cons_ne_nil x xs)
  | x :: xs, y :: ys, hx, hy, h => by
    simp only [captions_cons, List.forall_mem_cons, List.forall_mem_append] at hx hy
    rw [drawAll, drawAll, String.toList_append, String.toList_append, List.append_assoc, List.append_assoc] at h
    obtain ⟨hlast, hcaption, hlines⟩ := head_inj hx.1 hy.1 h
    rw [← hlast] at hlines
    obtain ⟨hbelow, hsaid, hlater⟩ := drawNode_inj (htext.inside _ xs) (htext'.inside _ ys) hx.2.1 hy.2.1 hlines
    obtain ⟨hrest, hothers, htexts⟩ := drawAll_inj htext htext' hx.2.2 hy.2.2 hlater
    refine ⟨?_, ?_, htexts⟩
    · rw [Node.branchings, Node.branchings, Node.branching_eq, Node.branching_eq y, hbelow, hrest]
    · rw [captions_cons, captions_cons, hcaption, hsaid, hothers]

end

section Rows

/-- A line of a drawing that belongs to a node: blanks and bars, a connector, and the caption. -/
def IsRow (line : String) (node : Node) : Prop :=
  ∃ margin isLast, (∀ c ∈ margin.toList, c = ' ' ∨ c = '│') ∧
    line = margin ++ connector isLast ++ caption node

theorem isBlankOrBar_continuation {margin : String} (h : ∀ c ∈ margin.toList, c = ' ' ∨ c = '│') (isLast : Bool) :
    ∀ c ∈ (margin ++ continuation isLast).toList, c = ' ' ∨ c = '│' := by
  obtain ⟨d, hd, hcontinuation⟩ := exists_continuation isLast
  simpa [hcontinuation, or_imp, forall_and] using ⟨h, hd⟩

theorem newline_notMem_of_isRow {line : String} {node : Node} (h : IsRow line node)
    (hcaption : '\n' ∉ (caption node).toList) : '\n' ∉ line.toList := by
  obtain ⟨margin, isLast, hmargin, rfl⟩ := h
  obtain ⟨c, hc, hconnector⟩ := exists_connector isLast
  have hmark : '\n' ∉ (connector isLast).toList := by
    rw [hconnector]
    rcases hc with rfl | rfl <;> decide
  have hblank : '\n' ∉ margin.toList := fun hmem => by simpa using hmargin _ hmem
  simp [hblank, hmark, hcaption]

mutual

theorem drawNode_rows {margin : String} (hmargin : ∀ c ∈ margin.toList, c = ' ' ∨ c = '│') (isLast : Bool) :
    ∀ node : Node, ∃ lines, drawNode margin isLast node = ofLines lines ∧
      List.Forall₂ IsRow lines node.subtrees
  | .leaf kind token => by
    refine ⟨[margin ++ connector isLast ++ caption (.leaf kind token)], ?_, ?_⟩
    · simp [drawNode, ofLines]
    · simpa using ⟨margin, isLast, hmargin, rfl⟩
  | .list kind children => by
    obtain ⟨lines, hdrawn, hrows⟩ := drawAll_rows (isBlankOrBar_continuation hmargin isLast) children
    refine ⟨(margin ++ connector isLast ++ caption (.list kind children)) :: lines, ?_, ?_⟩
    · rw [drawNode, hdrawn, ofLines_cons]
    · rw [Node.subtrees_list]
      exact .cons ⟨margin, isLast, hmargin, rfl⟩ hrows

/-- Every node has a line of its own, in depth-first order. -/
theorem drawAll_rows {margin : String} (hmargin : ∀ c ∈ margin.toList, c = ' ' ∨ c = '│') :
    ∀ nodes : List Node, ∃ lines, drawAll margin nodes = ofLines lines ∧
      List.Forall₂ IsRow lines (Node.subtreesAmong nodes)
  | [] => ⟨[], by simp [drawAll, ofLines], by simp⟩
  | node :: rest => by
    obtain ⟨first, hfirst, hnode⟩ := drawNode_rows hmargin rest.isEmpty node
    obtain ⟨others, hothers, hrest⟩ := drawAll_rows hmargin rest
    refine ⟨first ++ others, ?_, ?_⟩
    · rw [drawAll, hfirst, hothers, ofLines_append]
    · rw [Node.subtreesAmong_cons]
      exact List.rel_append hnode hrest

end

end Rows

theorem newline_notMem_caption {nodes : List Node} (h : ∀ node ∈ Node.subtreesAmong nodes, node.IsOnOneLine)
    {node : Node} (hnode : node ∈ Node.subtreesAmong nodes) : '\n' ∉ (caption node).toList := by
  have hclip : '\n' ∉ (clip 30 node.render).toList := by
    rw [← lineCount_eq_zero_iff, lineCount_clip, List.count_eq_zero]
    intro hmem
    obtain ⟨token, htoken, htext⟩ :=
      Node.exists_leaf_of_mem_render (by decide) (by decide) (by decide) hmem
    obtain ⟨kind, hleaf⟩ := (Node.mem_leavesAmong_iff nodes).1 (Node.leavesAmong_subset hnode htoken)
    exact (h _ hleaf).2 token rfl (List.mem_of_mem_take htext)
  simpa [caption, hclip] using (h node hnode).1

/-- Where no kind and no token holds a line feed, each line of a drawing belongs to one node, in
depth-first order, and two drawings are the same only of trees that branch alike and whose lines say
the same. -/
theorem write_determines {a b : List Node} (ha : ∀ node ∈ Node.subtreesAmong a, node.IsOnOneLine)
    (hb : ∀ node ∈ Node.subtreesAmong b, node.IsOnOneLine) :
    (∃ lines, write a = ofLines lines ∧ (∀ line ∈ lines, '\n' ∉ line.toList) ∧
      List.Forall₂ IsRow lines (Node.subtreesAmong a)) ∧
    (write a = write b → Node.branchings a = Node.branchings b ∧
      (Node.subtreesAmong a).map caption = (Node.subtreesAmong b).map caption) := by
  have hcaptions : ∀ {nodes}, (∀ node ∈ Node.subtreesAmong nodes, node.IsOnOneLine) →
      ∀ c ∈ captions nodes, '\n' ∉ c.toList := fun h =>
    List.forall_mem_map.2 fun node hnode => newline_notMem_caption h hnode
  constructor
  · have hmargin : ∀ c ∈ "".toList, c = ' ' ∨ c = '│' := by simp
    obtain ⟨lines, hdrawn, hrows⟩ := drawAll_rows hmargin a
    refine ⟨lines, hdrawn, fun line hline => ?_, hrows⟩
    obtain ⟨i, hi, rfl⟩ := List.getElem_of_mem hline
    have hlength : i < (Node.subtreesAmong a).length := hrows.length_eq ▸ hi
    exact newline_notMem_of_isRow (hrows.get hi hlength) (newline_notMem_caption ha (List.getElem_mem hlength))
  · intro h
    have hdrawn : (drawAll "" a).toList ++ [] = (drawAll "" b).toList ++ [] := by
      simpa [write] using congrArg String.toList h
    obtain ⟨hbranches, hsaid, -⟩ := drawAll_inj endsBefore_nil endsBefore_nil (hcaptions ha) (hcaptions hb) hdrawn
    exact ⟨hbranches, hsaid⟩

/-- The kind of a leaf reads like a caption and the line of a node below it: the drawing is not that of
the tree it imitates. -/
theorem write_determines_bars :
    let imitating : List Node := [.list ⟨"a"⟩ [.leaf ⟨"b: c│ └─ d"⟩ (.scanned 1 (.string "│ "))]]
    let imitated : List Node :=
      [.list ⟨"a"⟩ [.list ⟨"b"⟩ [.leaf ⟨"d"⟩ (.scanned 1 (.string "│ "))]]]
    (∀ node ∈ Node.subtreesAmong imitating, node.IsOnOneLine) ∧
      (∃ lines, write imitating = ofLines lines ∧ (∀ line ∈ lines, '\n' ∉ line.toList) ∧
        List.Forall₂ IsRow lines (Node.subtreesAmong imitating)) ∧
      write imitating ≠ write imitated := by
  intro imitating imitated
  have himitating : ∀ node ∈ Node.subtreesAmong imitating, node.IsOnOneLine := by
    simp [imitating, Node.IsOnOneLine, Node.kind, Node.token?, Token.text, Lexeme.text]
  have himitated : ∀ node ∈ Node.subtreesAmong imitated, node.IsOnOneLine := by
    simp [imitated, Node.IsOnOneLine, Node.kind, Node.token?, Token.text, Lexeme.text]
  obtain ⟨hlines, hsame⟩ := write_determines himitating himitated
  refine ⟨himitating, hlines, fun h => ?_⟩
  have hbranches := (hsame h).1
  simp [imitating, imitated, Node.branchings, Node.branching] at hbranches

end Drawing

end ParseKit
