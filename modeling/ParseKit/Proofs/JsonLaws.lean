import Mathlib
import ParseKit.Proofs.WrittenJson
import ParseKit.Snapshot.Library

/-! What a library owes that writes and reads snapshots. Texts give back the values they were made
from, and encoder and decoder go by the fields of a snapshot. Main statement:
`JsonLibrary.standard_laws`, the standard library keeps these laws. -/

namespace ParseKit

namespace Json

mutual

/-- How many objects and arrays stand inside each other. -/
def nesting : Json → Nat
  | array items => nestingItems items + 1
  | object members => nestingMembers members + 1
  | _ => 0

def nestingItems : List Json → Nat
  | [] => 0
  | item :: rest => max item.nesting (nestingItems rest)

def nestingMembers : List (Option String × Json) → Nat
  | [] => 0
  | (_, value) :: rest => max value.nesting (nestingMembers rest)

end

theorem nestingMembers_eq (members : List (Option String × Json)) :
    nestingMembers members = nestingItems (members.map Prod.snd) := by
  induction members with
  | nil => rfl
  | cons member rest ih => rw [nestingMembers, List.map_cons, nestingItems, ih]

theorem nesting_le_nestingItems {item : Json} {items : List Json} (h : item ∈ items) :
    item.nesting ≤ nestingItems items := by
  induction items with
  | nil => cases h
  | cons first rest ih =>
    rw [nestingItems, le_max_iff]
    exact (List.mem_cons.1 h).imp (fun heq => by rw [heq]) ih

theorem nesting_lt_array {item : Json} {items : List Json} (h : item ∈ items) :
    item.nesting < (array items).nesting := by
  rw [nesting]
  exact Nat.lt_succ_of_le (nesting_le_nestingItems h)

theorem nesting_lt_object {member : Option String × Json} {members : List (Option String × Json)}
    (h : member ∈ members) : member.2.nesting < (object members).nesting := by
  rw [nesting, nestingMembers_eq]
  exact Nat.lt_succ_of_le (nesting_le_nestingItems (List.mem_map_of_mem h))

theorem nesting_lt_ofMembers {member : String × Json} {members : List (String × Json)} (h : member ∈ members) :
    member.2.nesting < (ofMembers members).nesting := by
  have hmem : (some member.1, member.2) ∈ members.map fun member => (some member.1, member.2) :=
    List.mem_map_of_mem h
  exact nesting_lt_object hmem

end Json

namespace Snapshot

/-- The member for the children, which is left out where there are none. -/
def childrenMember (encodeAll : List Snapshot → Json) : List Snapshot → List (String × Json)
  | [] => []
  | child :: rest => [("children", encodeAll (child :: rest))]

def members (encodeAll : List Snapshot → Json) : Snapshot → List (String × Json)
  | mk nodeType label line? children =>
    [("node_type", .ofString nodeType), ("label", .ofString label)] ++ lineMember line? ++
      childrenMember encodeAll children

end Snapshot

namespace JsonLibrary

open Snapshot (maxDepth)

/-- What the library promises. A value comes back from its texts if its numbers fit 64 bits and it is
not nested too deep. A snapshot is encoded field by field, without a line if it has none and without
children if there are none. It is decoded from members in any order: these two may be missing and the
others may not, none may be there twice, and members of other names are passed over. -/
structure Laws (library : JsonLibrary) : Prop where
  parse?_compact : ∀ value : Json, value.Plain → value.nesting ≤ maxDepth →
    library.parse? (library.compact value) = some value
  parse?_pretty : ∀ value : Json, value.Plain → value.nesting ≤ maxDepth →
    library.parse? (library.pretty value) = some value
  encode_eq : ∀ snapshot, library.encode snapshot = .ofMembers (snapshot.members library.encodeAll)
  encodeAll_eq : ∀ snapshots, library.encodeAll snapshots = .array (snapshots.map library.encode)
  decode?_ofMembers : ∀ members, (Json.ofMembers members).Plain → (Json.ofMembers members).nesting ≤ maxDepth →
    library.decode? (.ofMembers members) = Snapshot.ofMembers? library.decodeAll? members
  decodeAll?_array : ∀ items, (Json.array items).Plain → (Json.array items).nesting ≤ maxDepth →
    library.decodeAll? (.array items) = items.mapM library.decode?

end JsonLibrary

namespace Snapshot

theorem toJsonAll_eq (snapshots : List Snapshot) : toJsonAll snapshots = snapshots.map toJson := by
  induction snapshots with
  | nil => rw [toJsonAll, List.map_nil]
  | cons snapshot rest ih => rw [toJsonAll, ih, List.map_cons]

theorem toJson_eq (snapshot : Snapshot) :
    snapshot.toJson = .ofMembers (snapshot.members fun snapshots => .array (toJsonAll snapshots)) := by
  obtain ⟨nodeType, label, line?, children⟩ := snapshot
  cases children with
  | nil => rw [toJson, members, childrenMember, List.append_nil]
  | cons child rest => rw [toJson, members, childrenMember]

theorem named?_map (members : List (String × Json)) :
    named? (members.map fun (name, value) => (some name, value)) = some members := by
  induction members with
  | nil => rfl
  | cons member rest ih =>
    rw [named?] at ih ⊢
    rw [List.map_cons, List.mapM_cons, ih]
    rfl

theorem eq_map_of_named? {members : List (Option String × Json)} {named : List (String × Json)}
    (h : named? members = some named) : members = named.map fun (name, value) => (some name, value) := by
  rw [named?] at h
  induction members generalizing named with
  | nil =>
    obtain rfl : [] = named := by simpa using h
    rfl
  | cons member rest ih =>
    obtain ⟨name?, value⟩ := member
    simp only [List.mapM_cons, Option.bind_eq_bind, Option.bind_eq_some_iff, Option.pure_def, Option.some.injEq,
      Option.map_eq_map, Option.map_eq_some_iff] at h
    obtain ⟨_, ⟨name, rfl, rfl⟩, named, hrest, rfl⟩ := h
    rw [List.map_cons, ← ih hrest]

theorem mapM_congr {α β : Type} {f g : α → Option β} {items : List α} (h : ∀ item ∈ items, f item = g item) :
    items.mapM f = items.mapM g := by
  induction items with
  | nil => rfl
  | cons item rest ih =>
    obtain ⟨hitem, hrest⟩ := List.forall_mem_cons.1 h
    rw [List.mapM_cons, List.mapM_cons, hitem, ih hrest]

section Depth

variable {children? children'? : Json → Option (List Snapshot)}

theorem mem_of_member? {members : List (String × Json)} {name : String} {value : Json}
    (h : member? members name = some (some value)) : ∃ member ∈ members, member.2 = value := by
  unfold member? at h
  split at h
  · simp at h
  · next found heq =>
    have hmem : (_, found) ∈ members.filter (·.1 = name) := heq ▸ List.mem_singleton_self _
    exact ⟨_, (List.mem_filter.1 hmem).1, by simpa using h⟩
  · simp at h

theorem ofMembers?_congr {members : List (String × Json)}
    (h : ∀ member ∈ members, children? member.2 = children'? member.2) :
    ofMembers? children? members = ofMembers? children'? members := by
  have hchildren : ∀ value?, member? members "children" = some value? →
      value?.map children? = value?.map children'? := by
    intro value? hmember
    cases value? with
    | none => rfl
    | some value =>
      obtain ⟨member, hmem, rfl⟩ := mem_of_member? hmember
      rw [Option.map_some, Option.map_some, h member hmem]
  unfold ofMembers?
  cases hmember : member? members "children" with
  | none => rfl
  | some value? => simp only [Option.bind_eq_bind, Option.bind_some, hchildren value? hmember]

theorem ofItems?_congr {items : List Json} (h : ∀ item ∈ items, children? item = children'? item) :
    ofItems? children? items = ofItems? children'? items := by
  rcases items with _ | ⟨nodeType, _ | ⟨label, _ | ⟨line, _ | ⟨children, _ | ⟨more, rest⟩⟩⟩⟩⟩
  case cons.cons.cons.cons.nil =>
    simp only [ofItems?, h children (by simp)]
  all_goals rfl

theorem ofParts?_congr {value : Json} {depth : Nat} (hdepth : value.nesting ≤ depth + 1)
    (h : ∀ part : Json, part.nesting ≤ depth → children? part = children'? part) :
    ofParts? children? value = ofParts? children'? value := by
  cases value with
  | array items =>
    rw [ofParts?, ofParts?]
    exact ofItems?_congr fun item hmem => h item (Nat.le_of_lt_succ ((Json.nesting_lt_array hmem).trans_le hdepth))
  | object members =>
    rw [ofParts?, ofParts?]
    refine Option.bind_congr fun named hnamed => ofMembers?_congr fun member hmem => ?_
    rw [eq_map_of_named? hnamed] at hdepth
    exact h member.2 (Nat.le_of_lt_succ ((Json.nesting_lt_ofMembers hmem).trans_le hdepth))
  | _ => rfl

theorem childrenWith?_congr {read? read'? : Json → Option Snapshot} {part : Json} {depth : Nat}
    (hdepth : part.nesting ≤ depth + 1) (h : ∀ item : Json, item.nesting ≤ depth → read? item = read'? item) :
    childrenWith? read? part = childrenWith? read'? part := by
  cases part with
  | array items =>
    exact mapM_congr fun item hmem => h item (Nat.le_of_lt_succ ((Json.nesting_lt_array hmem).trans_le hdepth))
  | _ => rfl

/-- A value that is not nested too deep is read the same through more depth. -/
theorem ofJsonWithin?_succ {depth : Nat} {value : Json} (h : value.nesting ≤ depth) :
    ofJsonWithin? depth value = ofJsonWithin? (depth + 1) value := by
  induction depth using Nat.twoStepInduction generalizing value with
  | zero => cases value <;> first | rfl | simp [Json.nesting] at h
  | one =>
    rw [ofJsonWithin?, ofJsonWithin?]
    refine ofParts?_congr h fun part hpart => ?_
    cases part <;> first | rfl | simp [Json.nesting] at hpart
  | more depth ih _ =>
    rw [ofJsonWithin?, ofJsonWithin?]
    exact ofParts?_congr h fun part hpart => childrenWith?_congr hpart fun item hitem => ih hitem

theorem ofJson?_ofMembers {members : List (String × Json)}
    (h : (Json.ofMembers members).nesting ≤ maxDepth) :
    ofJson? (.ofMembers members) = ofMembers? allOfJson? members := by
  rw [Json.ofMembers, ofJson?, maxDepth, ofJsonWithin?, ofParts?, named?_map, Option.bind_some]
  refine ofMembers?_congr fun member hmem => childrenWith?_congr ?_ fun item hitem => ofJsonWithin?_succ hitem
  exact Nat.le_of_lt_succ ((Json.nesting_lt_ofMembers hmem).trans_le h)

theorem allOfJson?_array {items : List Json} (h : (Json.array items).nesting ≤ maxDepth) :
    allOfJson? (.array items) = items.mapM ofJson? :=
  mapM_congr fun _ hmem =>
    ofJsonWithin?_succ (Nat.le_of_lt_succ ((Json.nesting_lt_array hmem).trans_le h))

end Depth

end Snapshot

theorem JsonLibrary.standard_laws : JsonLibrary.standard.Laws where
  parse?_compact _ hplain _ := (Json.writes_compact hplain).ofChars?_eq
  parse?_pretty _ hplain _ := (Json.writes_prettyAt hplain 0).ofChars?_eq
  encode_eq := Snapshot.toJson_eq
  encodeAll_eq snapshots := congrArg Json.array (Snapshot.toJsonAll_eq snapshots)
  decode?_ofMembers _ _ hdepth := Snapshot.ofJson?_ofMembers hdepth
  decodeAll?_array _ _ hdepth := Snapshot.allOfJson?_array hdepth

end ParseKit
