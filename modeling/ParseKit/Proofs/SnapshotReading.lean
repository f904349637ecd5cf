import Mathlib
import ParseKit.Proofs.JsonLaws
import ParseKit.Proofs.Leaves

/-! Snapshots are read back as they were written, through any library that keeps its laws. What is
left out when a snapshot is written is what the reader takes for granted, at every level. Main
statements: `Snapshot.written_snapshots_read_back`, and `Snapshot.ofText?_eq_none` on what is nested
too deep. -/

namespace ParseKit.Snapshot

/-- Every line fits 64 bits. -/
inductive Fits : Snapshot → Prop
  | mk {nodeType label : String} {line? : Option Nat} {children : List Snapshot}
      (hline : ∀ line ∈ line?, line < lineLimit) (hchildren : ∀ child ∈ children, Fits child) :
      Fits (.mk nodeType label line? children)

theorem natural?_repr (n : Nat) : natural? n.repr = some n := by
  have hvalue : Text.natOfDigits (Nat.toDigits 10 n) = n := Nat.ofDigitChars_ten_toDigits
  have hdigits : (Nat.toDigits 10 n).all Char.isDigit = true :=
    List.all_eq_true.2 fun c hc => Nat.isDigit_of_mem_toDigits (by decide) (by decide) hc
  rw [natural?, Nat.toList_repr, if_pos hdigits, hvalue]

theorem lineOf?_map {line? : Option Nat} (h : ∀ line ∈ line?, line < lineLimit) :
    (line?.map fun line => lineOf? (.ofNat line)).getD (some none) = some line? := by
  cases line? with
  | none => rfl
  | some line => simp [lineOf?, Json.ofNat, natural?_repr, h line rfl, guard]

section Fields

variable (encodeAll : List Snapshot → Json) (children? : Json → Option (List Snapshot)) (nodeType label : String)
  (line? : Option Nat) (children : List Snapshot)

theorem member?_members : let members := (mk nodeType label line? children).members encodeAll
    member? members "node_type" = some (some (.ofString nodeType)) ∧
      member? members "label" = some (some (.ofString label)) ∧
      member? members "line" = some (line?.map .ofNat) ∧
      member? members "children" = some (if children = [] then none else some (encodeAll children)) := by
  cases line? <;> cases children <;> simp [member?, members, lineMember, childrenMember]

/-- A field that is left out is read as what it was left out for. -/
theorem ofMembers?_members : ofMembers? children? ((mk nodeType label line? children).members encodeAll) =
    ((line?.map fun line => lineOf? (.ofNat line)).getD (some none)).bind fun line? =>
      (if children = [] then some [] else children? (encodeAll children)).bind fun children =>
        some (mk nodeType label line? children) := by
  obtain ⟨hnodeType, hlabel, hline, hchildren⟩ := member?_members encodeAll nodeType label line? children
  simp only [ofMembers?, hnodeType, hlabel, hline, hchildren]
  by_cases hnil : children = [] <;> simp [hnil, text?, Json.ofString, Function.comp_def]

end Fields

theorem mem_members_children {encodeAll : List Snapshot → Json} {nodeType label : String} {line? : Option Nat}
    {children : List Snapshot} (h : children ≠ []) :
    ("children", encodeAll children) ∈ (mk nodeType label line? children).members encodeAll := by
  cases children with
  | nil => contradiction
  | cons child rest => simp [members, childrenMember]

section Library

variable {library : JsonLibrary} (h : library.Laws)

include h

theorem plain_encodeAll {snapshots : List Snapshot}
    (hplain : ∀ snapshot ∈ snapshots, (library.encode snapshot).Plain) : (library.encodeAll snapshots).Plain := by
  rw [h.encodeAll_eq]
  exact .array (by simpa using hplain)

theorem plain_encode {snapshot : Snapshot} (hfits : snapshot.Fits) : (library.encode snapshot).Plain := by
  induction hfits with
  | @mk nodeType label line? children hline _ ih =>
    rw [h.encode_eq]
    refine .object ?_
    simp only [members, List.forall_mem_append, List.forall_mem_cons]
    refine ⟨⟨⟨.string nodeType, .string label, by simp⟩, ?_⟩, ?_⟩
    · cases line? with
      | none => simp [lineMember]
      | some line => simpa [lineMember] using Json.Plain.number (hline line rfl)
    · cases children with
      | nil => simp [childrenMember]
      | cons child rest => simpa [childrenMember] using plain_encodeAll h ih

theorem decodeAll?_encodeAll {snapshots : List Snapshot}
    (hplain : ∀ snapshot ∈ snapshots, (library.encode snapshot).Plain)
    (hread : ∀ snapshot ∈ snapshots, (library.encode snapshot).nesting ≤ maxDepth →
      library.decode? (library.encode snapshot) = some snapshot)
    (hdepth : (library.encodeAll snapshots).nesting ≤ maxDepth) :
    library.decodeAll? (library.encodeAll snapshots) = some snapshots := by
  have hall := plain_encodeAll h hplain
  rw [h.encodeAll_eq] at hdepth hall ⊢
  rw [h.decodeAll?_array _ hall hdepth, List.mapM_map]
  have hitems : ∀ snapshot ∈ snapshots, (library.decode? ∘ library.encode) snapshot = pure (id snapshot) := by
    intro snapshot hmem
    have hbelow := Json.nesting_lt_array (List.mem_map_of_mem (f := library.encode) hmem)
    exact hread snapshot hmem (hbelow.le.trans hdepth)
  rw [mapM_congr hitems, List.mapM_pure, List.map_id]
  rfl

theorem decode?_encode {snapshot : Snapshot} (hfits : snapshot.Fits)
    (hdepth : (library.encode snapshot).nesting ≤ maxDepth) :
    library.decode? (library.encode snapshot) = some snapshot := by
  -- The children are not nested deeper than the snapshot is, so that the limit passes down to them.
  induction hfits with
  | @mk nodeType label line? children hline hchildren ih =>
    have hplain := plain_encode h (.mk hline hchildren : (mk nodeType label line? children).Fits)
    rw [h.encode_eq] at hdepth hplain ⊢
    have hread : children ≠ [] → library.decodeAll? (library.encodeAll children) = some children := by
      intro hne
      have hbelow := (Json.nesting_lt_ofMembers (mem_members_children hne)).le.trans hdepth
      exact decodeAll?_encodeAll h (fun child hmem => plain_encode h (hchildren child hmem)) ih hbelow
    rw [h.decode?_ofMembers _ hplain hdepth, ofMembers?_members, lineOf?_map hline]
    by_cases hnil : children = []
    · rw [if_pos hnil, hnil]
      rfl
    · rw [if_neg hnil, hread hnil]
      rfl

theorem readAll?_encodeAll {snapshots : List Snapshot} (hfits : ∀ snapshot ∈ snapshots, snapshot.Fits)
    (hdepth : (library.encodeAll snapshots).nesting ≤ maxDepth) :
    library.readAll? (library.compact (library.encodeAll snapshots)) = some snapshots ∧
      library.readAll? (library.pretty (library.encodeAll snapshots)) = some snapshots := by
  have hplain : ∀ snapshot ∈ snapshots, (library.encode snapshot).Plain :=
    fun snapshot hmem => plain_encode h (hfits snapshot hmem)
  have hall := plain_encodeAll h hplain
  have hread : library.decodeAll? (library.encodeAll snapshots) = some snapshots :=
    decodeAll?_encodeAll h hplain (fun snapshot hmem => decode?_encode h (hfits snapshot hmem)) hdepth
  rw [JsonLibrary.readAll?, JsonLibrary.readAll?, h.parse?_compact _ hall hdepth, h.parse?_pretty _ hall hdepth]
  exact ⟨hread, hread⟩

end Library

section Nodes

mutual

theorem fits_ofNode : ∀ {node : Node}, (∀ token ∈ node.leaves, ∀ line ∈ token.line?, line < lineLimit) →
    (ofNode node).Fits
  | .leaf kind token, h => by
    rw [ofNode]
    exact .mk (h token (by simp)) (by simp)
  | .list kind children, h => by
    rw [Node.leaves_list] at h
    rw [ofNode]
    refine .mk (fun line hline => ?_) (fits_ofNodes h)
    rw [Node.locationAmong_eq] at hline
    obtain ⟨token, hmem, htoken⟩ := List.exists_of_findSome?_eq_some hline
    exact h token hmem line htoken

theorem fits_ofNodes : ∀ {nodes : List Node},
    (∀ token ∈ Node.leavesAmong nodes, ∀ line ∈ token.line?, line < lineLimit) →
      ∀ snapshot ∈ ofNodes nodes, snapshot.Fits
  | [], _ => by simp [ofNodes]
  | node :: rest, h => by
    simp only [Node.leavesAmong_cons, List.forall_mem_append] at h
    simpa [ofNodes] using ⟨fits_ofNode h.1, fits_ofNodes h.2⟩

end

end Nodes

/-- Snapshots are read back from what is written of them, on one line and indented, alone and in a
list. So are the snapshots of a program from what is written of the program. -/
theorem written_snapshots_read_back (library : JsonLibrary) (h : library.Laws) :
    (∀ snapshot : Snapshot, snapshot.Fits → (library.encode snapshot).nesting ≤ maxDepth →
      library.read? (library.compact (library.encode snapshot)) = some snapshot ∧
      library.read? (library.pretty (library.encode snapshot)) = some snapshot) ∧
    (∀ snapshots : List Snapshot, (∀ snapshot ∈ snapshots, snapshot.Fits) →
      (library.encodeAll snapshots).nesting ≤ maxDepth →
      library.readAll? (library.compact (library.encodeAll snapshots)) = some snapshots ∧
      library.readAll? (library.pretty (library.encodeAll snapshots)) = some snapshots) ∧
    ∀ nodes : List Node, (∀ token ∈ Node.leavesAmong nodes, ∀ line ∈ token.line?, line < lineLimit) →
      (library.encodeAll (ofNodes nodes)).nesting ≤ maxDepth →
      library.readAll? (writeJson library nodes) = some (ofNodes nodes) := by
  refine ⟨fun snapshot hfits hdepth => ?_, fun snapshots hfits hdepth => readAll?_encodeAll h hfits hdepth,
    fun nodes hlines hdepth => (readAll?_encodeAll h (fits_ofNodes hlines) hdepth).2⟩
  have hplain := plain_encode h hfits
  have hread := decode?_encode h hfits hdepth
  rw [JsonLibrary.read?, JsonLibrary.read?, h.parse?_compact _ hplain hdepth, h.parse?_pretty _ hplain hdepth]
  exact ⟨hread, hread⟩

/-- Quotes, backslashes, control characters and a character beyond U+FFFF, in a list that has a line
and in a leaf that has none. -/
theorem written_snapshots_read_back_escapes :
    let library := JsonLibrary.standard
    let leaf := mk "\"" "a\\\x01\n😀" none []
    let snapshot := mk "list" "" (some 3) [leaf, leaf]
    let nodes : List Node := [.list .list [.leaf .leaf (.scanned 1 (.string "\\\""))], .list .list []]
    library.Laws ∧ snapshot.Fits ∧
      library.read? (library.compact (library.encode snapshot)) = some snapshot ∧
      library.read? (library.pretty (library.encode snapshot)) = some snapshot ∧
      library.readAll? (library.pretty (library.encodeAll [leaf, snapshot])) = some [leaf, snapshot] ∧
      library.readAll? (writeJson library nodes) = some (ofNodes nodes) := by
  intro library leaf snapshot nodes
  have hlaws : library.Laws := JsonLibrary.standard_laws
  have hleaf : leaf.Fits := .mk (by simp) (by simp)
  have hsnapshot : snapshot.Fits := .mk (by simp [lineLimit, UInt64.size]) (by simp [hleaf])
  obtain ⟨hone, hlist, hnodes⟩ := written_snapshots_read_back library hlaws
  obtain ⟨hcompact, hpretty⟩ := hone snapshot hsnapshot (by decide)
  have hall := hlist [leaf, snapshot] (by simp [hleaf, hsnapshot]) (by decide)
  have hprogram := hnodes nodes (by simp [nodes, lineLimit, Token.line?, UInt64.size]) (by decide)
  exact ⟨hlaws, hsnapshot, hcompact, hpretty, hall.2, hprogram⟩

section Refusal

variable {nodeType label : String} {line? : Option Nat} {children : List Snapshot}

theorem ofMembers?_members_eq_none {encodeAll : List Snapshot → Json} {children? : Json → Option (List Snapshot)}
    (hne : children ≠ []) (hread : children? (encodeAll children) = none) :
    ofMembers? children? ((mk nodeType label line? children).members encodeAll) = none := by
  rw [ofMembers?_members, if_neg hne, hread]
  exact Option.bind_fun_none _

theorem exists_of_lt_nestingItems {depth : Nat} {snapshots : List Snapshot}
    (h : depth < Json.nestingItems (toJsonAll snapshots)) :
    ∃ snapshot ∈ snapshots, depth < snapshot.toJson.nesting := by
  induction snapshots with
  | nil => cases h
  | cons snapshot rest ih =>
    rw [toJsonAll, Json.nestingItems, lt_max_iff] at h
    rw [List.exists_mem_cons_iff]
    exact h.imp_right ih

theorem nesting_toJson (h : children ≠ []) :
    (mk nodeType label line? children).toJson.nesting = Json.nestingItems (toJsonAll children) + 2 := by
  cases children with
  | nil => contradiction
  | cons child rest =>
    cases line? <;>
      simp [toJson, Json.ofMembers, Json.ofString, Json.ofNat, Json.nesting, Json.nestingMembers, lineMember]

theorem ne_nil_of_one_lt_nesting (h : 1 < (mk nodeType label line? children).toJson.nesting) : children ≠ [] := by
  rintro rfl
  cases line? <;>
    simp [toJson, Json.ofMembers, Json.ofString, Json.ofNat, Json.nesting, Json.nestingMembers, lineMember] at h

theorem mapM_eq_none {α β : Type} {f : α → Option β} {items : List α} {item : α} (hmem : item ∈ items)
    (h : f item = none) : items.mapM f = none := by
  induction items with
  | nil => cases hmem
  | cons first rest ih =>
    rw [List.mapM_cons]
    rcases List.mem_cons.1 hmem with rfl | hrest
    · rw [h]
      rfl
    · rw [ih hrest]
      cases f first <;> rfl

theorem ofJsonWithin?_toJson_eq_none {depth : Nat} {snapshot : Snapshot} (h : depth < snapshot.toJson.nesting) :
    ofJsonWithin? depth snapshot.toJson = none := by
  -- A child takes two levels of the depth, its array and itself.
  induction depth using Nat.twoStepInduction generalizing snapshot with
  | zero => rfl
  | one =>
    obtain ⟨nodeType, label, line?, children⟩ := snapshot
    rw [toJson_eq, Json.ofMembers, ofJsonWithin?, ofParts?, named?_map, Option.bind_some]
    exact ofMembers?_members_eq_none (ne_nil_of_one_lt_nesting h) rfl
  | more depth ih _ =>
    obtain ⟨nodeType, label, line?, children⟩ := snapshot
    have hne : children ≠ [] := ne_nil_of_one_lt_nesting (lt_trans (by omega) h)
    rw [nesting_toJson hne] at h
    obtain ⟨child, hmem, hdeep⟩ := exists_of_lt_nestingItems (Nat.lt_of_add_lt_add_right h)
    rw [toJson_eq, Json.ofMembers, ofJsonWithin?, ofParts?, named?_map, Option.bind_some]
    refine ofMembers?_members_eq_none hne ?_
    rw [childrenWith?, toJsonAll_eq]
    exact mapM_eq_none (List.mem_map_of_mem hmem) (ih hdeep)

/-- The standard library refuses what is nested deeper, however it is written. -/
theorem ofText?_eq_none {snapshot : Snapshot} (h : maxDepth < snapshot.toJson.nesting) {text : String}
    (hwrites : snapshot.toJson.Writes text.toList) : ofText? text = none := by
  have hparse : JsonLibrary.standard.parse? text = some snapshot.toJson := hwrites.ofChars?_eq
  rw [ofText?, JsonLibrary.read?, hparse]
  exact ofJsonWithin?_toJson_eq_none h

end Refusal

end ParseKit.Snapshot
