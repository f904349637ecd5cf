import Mathlib

/-! Patterns, and the ways in which backtracking matches them at the front of a text, the preferred
one first. Repetition prefers more rounds to fewer, and an alternative is tried when all that was
preferred to it has failed. Main statements: the first way for each form of pattern, in particular
`Pattern.first?_star_seq` for a repetition that is followed by something. -/

namespace ParseKit

inductive Pattern (ι : Type) where
  | empty
  /-- One character of a class. -/
  | char (accepts : Char → Bool)
  | seq (first second : Pattern ι)
  | alt (first second : Pattern ι)
  | star (body : Pattern ι)
  /-- What the body takes is kept under the label. -/
  | group (label : ι) (body : Pattern ι)

namespace Pattern

variable {ι : Type}

structure Way (ι : Type) where
  groups : List (ι × List Char) := []
  taken : List Char
  after : List Char

def Way.prepend (first second : Way ι) : Way ι where
  groups := first.groups ++ second.groups
  taken := first.taken ++ second.taken
  after := second.after

/-- What a labelled part has taken, the last time if it was there more than once. -/
def Way.group? [DecidableEq ι] (way : Way ι) (label : ι) : Option (List Char) :=
  (way.groups.reverse.find? (·.1 = label)).map (·.2)

/-- All ways to go on, and to stop after them. A round that takes nothing is not made. -/
def rounds (step : List Char → List (Way ι)) : Nat → List Char → List (Way ι)
  | 0, text => [⟨[], [], text⟩]
  | bound + 1, text =>
    ((step text).flatMap fun way =>
      if way.after.length < text.length then (rounds step bound way.after).map way.prepend else []) ++
      [⟨[], [], text⟩]

/-- All ways to match at the front of a text, in the order in which backtracking finds them. -/
def ways : Pattern ι → List Char → List (Way ι)
  | .empty, text => [⟨[], [], text⟩]
  | .char _, [] => []
  | .char accepts, c :: rest => if accepts c then [⟨[], [c], rest⟩] else []
  | .seq first second, text =>
    (first.ways text).flatMap fun way => (second.ways way.after).map way.prepend
  | .alt first second, text => first.ways text ++ second.ways text
  | .star body, text => rounds body.ways text.length text
  | .group label body, text =>
    (body.ways text).map fun way => { way with groups := way.groups ++ [(label, way.taken)] }

def first? (p : Pattern ι) (text : List Char) : Option (Way ι) :=
  (p.ways text).head?

def literal (c : Char) : Pattern ι :=
  .char (· == c)

def word : List Char → Pattern ι
  | [] => .empty
  | c :: rest => .seq (literal c) (word rest)

def inside (ranges : List (Char × Char)) (c : Char) : Bool :=
  ranges.any fun range => range.1 ≤ c && c ≤ range.2

def oneOf (ranges : List (Char × Char)) : Pattern ι :=
  .char (inside ranges)

def plus (p : Pattern ι) : Pattern ι :=
  .seq p (.star p)

def optional (p : Pattern ι) : Pattern ι :=
  .alt p .empty

section Equations

variable (p q : Pattern ι) (text : List Char)

theorem ways_char_cons (accepts : Char → Bool) (c : Char) (rest : List Char) :
    (char accepts : Pattern ι).ways (c :: rest) = if accepts c then [⟨[], [c], rest⟩] else [] := rfl

theorem ways_seq : (seq p q).ways text =
    (p.ways text).flatMap fun way => (q.ways way.after).map way.prepend := rfl

theorem ways_alt : (alt p q).ways text = p.ways text ++ q.ways text := rfl

theorem ways_star_eq_rounds : (star p).ways text = rounds p.ways text.length text := rfl

theorem ways_group (label : ι) : (group label p).ways text =
    (p.ways text).map fun way => { way with groups := way.groups ++ [(label, way.taken)] } := rfl

theorem first?_eq : p.first? text = (p.ways text).head? := rfl

theorem rounds_zero (step : List Char → List (Way ι)) : rounds step 0 text = [⟨[], [], text⟩] := rfl

theorem rounds_succ (step : List Char → List (Way ι)) (bound : Nat) : rounds step (bound + 1) text =
    ((step text).flatMap fun way =>
      if way.after.length < text.length then (rounds step bound way.after).map way.prepend else []) ++
      [⟨[], [], text⟩] := rfl

end Equations

theorem Way.prepend_assoc (first second third : Way ι) :
    (first.prepend second).prepend third = first.prepend (second.prepend third) := by
  simp [Way.prepend]

theorem rounds_of_le (step : List Char → List (Way ι)) {text : List Char} {bound : Nat}
    (h : text.length ≤ bound) : rounds step bound text = rounds step text.length text := by
  induction bound using Nat.strongRecOn generalizing text with
  | ind bound ih =>
    cases bound with
    | zero => rw [Nat.le_zero.1 h]
    | succ bound =>
      cases htext : text.length with
      | zero =>
        have hnone : ∀ way : Way ι, ¬ way.after.length < text.length := by
          intro way
          omega
        simp [rounds_zero, rounds_succ, hnone]
      | succ n =>
        rw [rounds_succ, rounds_succ]
        congr 1
        refine List.flatMap_congr fun way _ => ?_
        split
        · next hlt =>
          rw [ih bound (Nat.lt_succ_self bound) (by omega), ih n (by omega) (by omega)]
        · rfl

theorem ways_star (body : Pattern ι) (text : List Char) : (star body).ways text =
    ((body.ways text).flatMap fun way =>
      if way.after.length < text.length then ((star body).ways way.after).map way.prepend else []) ++
      [⟨[], [], text⟩] := by
  simp only [ways_star_eq_rounds]
  cases htext : text.length with
  | zero =>
    have hnone : ∀ way : Way ι, ¬ way.after.length < 0 := fun way => Nat.not_lt_zero _
    simp [rounds_zero, hnone]
  | succ n =>
    rw [rounds_succ]
    congr 1
    refine List.flatMap_congr fun way _ => ?_
    rw [← htext]
    split
    · next hlt => rw [rounds_of_le _ (by omega)]
    · rfl

theorem taken_append_after {p : Pattern ι} {text : List Char} {way : Way ι} (h : way ∈ p.ways text) :
    way.taken ++ way.after = text := by
  induction p generalizing text way with
  | empty =>
    rw [List.mem_singleton.1 h]
    rfl
  | char accepts =>
    cases text with
    | nil => cases h
    | cons c rest =>
      rw [ways_char_cons] at h
      split at h
      · rw [List.mem_singleton.1 h]
        rfl
      · cases h
  | seq first second ihFirst ihSecond =>
    obtain ⟨one, hone, hmem⟩ := List.mem_flatMap.1 h
    obtain ⟨other, hother, rfl⟩ := List.mem_map.1 hmem
    rw [Way.prepend, List.append_assoc, ihSecond hother, ihFirst hone]
  | alt first second ihFirst ihSecond =>
    exact (List.mem_append.1 h).elim (fun hmem => ihFirst hmem) (fun hmem => ihSecond hmem)
  | star body ih =>
    induction hlength : text.length using Nat.strongRecOn generalizing text way with
    | ind n ihRounds =>
      rw [ways_star] at h
      rcases List.mem_append.1 h with hround | hstop
      · obtain ⟨one, hone, hmem⟩ := List.mem_flatMap.1 hround
        split at hmem
        · next hlt =>
          obtain ⟨other, hother, rfl⟩ := List.mem_map.1 hmem
          rw [Way.prepend, List.append_assoc, ihRounds _ (hlength ▸ hlt) hother rfl, ih hone]
        · cases hmem
      · rw [List.mem_singleton.1 hstop]
        rfl
  | group label body ih =>
    obtain ⟨one, hone, rfl⟩ := List.mem_map.1 h
    show one.taken ++ one.after = text
    exact ih hone

theorem taken_append_after_of_first? {p : Pattern ι} {text : List Char} {way : Way ι}
    (h : p.first? text = some way) : way.taken ++ way.after = text :=
  taken_append_after (List.mem_of_head? h)

section First

variable (p q : Pattern ι) (text : List Char)

@[simp] theorem first?_empty : (empty : Pattern ι).first? text = some ⟨[], [], text⟩ := rfl

@[simp] theorem first?_char_seq_nil (accepts : Char → Bool) : (seq (char accepts) q).first? [] = none := rfl

@[simp] theorem first?_char_cons (accepts : Char → Bool) (c : Char) (rest : List Char) :
    (char accepts : Pattern ι).first? (c :: rest) = if accepts c then some ⟨[], [c], rest⟩ else none := by
  rw [first?_eq, ways_char_cons]
  split <;> rfl

theorem first?_alt : (alt p q).first? text = (p.first? text).or (q.first? text) := by
  rw [first?_eq, ways_alt, List.head?_append]
  rfl

theorem first?_group (label : ι) : (group label p).first? text =
    (p.first? text).map fun way => { way with groups := way.groups ++ [(label, way.taken)] } := by
  rw [first?_eq, ways_group, List.head?_map]
  rfl

theorem first?_optional : (optional p).first? text = some ((p.first? text).getD ⟨[], [], text⟩) := by
  rw [optional, first?_alt, first?_empty]
  cases p.first? text <;> rfl

theorem first?_seq : (seq p q).first? text =
    (p.ways text).findSome? fun way => (q.first? way.after).map way.prepend := by
  simp only [first?_eq, ways_seq, List.head?_flatMap, List.head?_map]

variable {p q text}

theorem first?_seq_of_first? {first second : Way ι} (hp : p.first? text = some first)
    (hq : q.first? first.after = some second) : (seq p q).first? text = some (first.prepend second) := by
  obtain ⟨others, hways⟩ := List.head?_eq_some_iff.1 hp
  rw [first?_seq, hways, List.findSome?_cons, hq]
  rfl

theorem first?_char_seq (accepts : Char → Bool) (c : Char) (rest : List Char) :
    (seq (char accepts) q).first? (c :: rest) =
      if accepts c then (q.first? rest).map (Way.prepend ⟨[], [c], rest⟩) else none := by
  rw [first?_seq, ways_char_cons]
  split
  · rw [List.findSome?_singleton]
  · rfl

theorem first?_star_char (accepts : Char → Bool) (text : List Char) :
    (star (char accepts) : Pattern ι).first? text =
      some ⟨[], text.takeWhile accepts, text.dropWhile accepts⟩ := by
  induction text with
  | nil => rfl
  | cons c rest ih =>
    rw [first?_eq, ways_star, ways_char_cons]
    by_cases hc : accepts c = true
    · obtain ⟨others, hways⟩ := List.head?_eq_some_iff.1 ih
      simp [hc, hways, Way.prepend]
    · simp [hc]

/-- A repetition that is followed by something goes on as long as that leads to a match. -/
theorem first?_star_seq (body q : Pattern ι) (text : List Char) : (seq (star body) q).first? text =
    ((body.ways text).findSome? fun way =>
      if way.after.length < text.length then ((seq (star body) q).first? way.after).map way.prepend
      else none).or (q.first? text) := by
  have hround : ∀ way : Way ι, (((star body).ways way.after).map way.prepend).findSome?
      (fun round => (q.first? round.after).map round.prepend) =
        ((seq (star body) q).first? way.after).map way.prepend := by
    intro way
    rw [first?_seq, List.findSome?_map, List.map_findSome?]
    congr 1
    funext round
    simp only [Function.comp_apply, Option.map_map]
    congr 1
    funext other
    exact Way.prepend_assoc way round other
  rw [first?_seq, ways_star, List.findSome?_append, List.findSome?_singleton]
  congr 1
  · induction body.ways text with
    | nil => rfl
    | cons way others ih =>
      rw [List.flatMap_cons, List.findSome?_append, List.findSome?_cons, ih]
      split
      · rw [hround way]
        cases (seq (star body) q).first? way.after <;> rfl
      · rfl
  · cases q.first? text <;> rfl

end First

end Pattern

end ParseKit
