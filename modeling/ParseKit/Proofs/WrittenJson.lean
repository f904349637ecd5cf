import Mathlib
import ParseKit.Json.Read
import ParseKit.Json.Write
import ParseKit.Proofs.LineFront

/-! Texts that write a value, whatever blanks they have between its parts. Main statements:
`Json.Writes.ofChars?_eq`, such a text is read back as the value, and `Json.writes_compact` and
`Json.writes_prettyAt`, values are written that way on one line and indented. -/

namespace ParseKit.Json

section Strings

theorem unit?_hexByte : ∀ n < 0x20,
    unit? '0' '0' (Nat.digitChar (n / 16 % 16)) (Nat.digitChar (n % 16)) = some n := by
  decide

theorem pieces?_plain {c : Char} (hquote : c ≠ '"') (hbackslash : c ≠ '\\') (hcontrol : ¬ c.toNat < 0x20)
    (tail : List Char) :
    pieces? (c :: tail) = (pieces? tail).map fun (pieces, after) => (.whole c :: pieces, after) := by
  rw [pieces?]
  · have hplain : 0x20 ≤ c.toNat ∧ c ≠ '\\' := ⟨Nat.le_of_not_lt hcontrol, hbackslash⟩
    cases pieces? tail <;> simp [hplain, guard]
  · exact hquote
  · rintro _ _ _ _ _ rfl
    contradiction
  · rintro _ _ rfl
    contradiction

theorem pieces?_control {c : Char} (hcontrol : c.toNat < 0x20) (tail : List Char) :
    pieces? ('\\' :: 'u' :: '0' :: '0' :: (hexByte c.toNat ++ tail)) =
      (pieces? tail).map fun (pieces, after) => (.whole c :: pieces, after) := by
  have hunit : Piece.ofUnit c.toNat = .whole c := by
    have hwhole : ¬ (0xD800 ≤ c.toNat ∧ c.toNat < 0xE000) := by omega
    rw [Piece.ofUnit, if_neg hwhole, Char.ofNat_toNat]
  rw [hexByte, List.cons_append, List.cons_append, List.nil_append, pieces?, unit?_hexByte _ hcontrol]
  cases pieces? tail <;> simp [hunit]

theorem pieces?_pair {letter c : Char} (hunit : letter ≠ 'u') (h : escaped? letter = some c) (tail : List Char) :
    pieces? ('\\' :: letter :: tail) =
      (pieces? tail).map fun (pieces, after) => (.whole c :: pieces, after) := by
  rw [pieces?, h]
  · cases pieces? tail <;> simp
  · rintro _ _ _ _ _ rfl
    contradiction

theorem pieces?_escapeChar (c : Char) (tail : List Char) :
    pieces? (escapeChar c ++ tail) =
      (pieces? tail).map fun (pieces, after) => (.whole c :: pieces, after) := by
  unfold escapeChar
  split
  case h_8 hquote hbackslash _ _ _ _ _ =>
    split
    · next hcontrol => exact pieces?_control hcontrol tail
    · next hcontrol => exact pieces?_plain hquote hbackslash hcontrol tail
  all_goals exact pieces?_pair (by decide) rfl tail

theorem pieces?_escaped (text after : List Char) :
    pieces? (text.flatMap escapeChar ++ '"' :: after) = some (text.map .whole, after) := by
  induction text with
  | nil => simp [pieces?]
  | cons c text ih => simp [pieces?_escapeChar, ih]

theorem joinPieces?_whole (text : List Char) : joinPieces? (text.map .whole) = some text := by
  induction text with
  | nil => simp [joinPieces?]
  | cons c text ih => simp [joinPieces?, ih]

theorem string?_escaped (text : String) (after : List Char) :
    string? (text.toList.flatMap escapeChar ++ '"' :: after) = some (some text, after) := by
  simp [string?, pieces?_escaped, joinPieces?_whole]

theorem toList_quote (text : String) : (quote text).toList = '"' :: (text.toList.flatMap escapeChar ++ ['"']) := by
  simp [quote]

end Strings

section Numbers

def Ends (after : List Char) : Prop :=
  ∀ c ∈ after.head?, c.isDigit = false ∧ c ≠ '.' ∧ c ≠ 'e' ∧ c ≠ 'E'

theorem digits?_run {c : Char} {digits after : List Char} (h : Scan.Run Char.isDigit (c :: digits) after) :
    digits? (c :: digits ++ after) = some (c :: digits, after) := by
  unfold digits?
  rw [List.span_eq_takeWhile_dropWhile, h.takeWhile_eq, h.dropWhile_eq]

theorem exists_toDigits_cons (n : Nat) :
    ∃ c digits, Nat.toDigits 10 n = c :: digits ∧ c.isDigit = true := by
  obtain ⟨c, digits, hcons⟩ := List.exists_cons_of_ne_nil (@Nat.toDigits_ne_nil n 10)
  have hmem : c ∈ Nat.toDigits 10 n := hcons ▸ List.mem_cons_self
  exact ⟨c, digits, hcons, Nat.isDigit_of_mem_toDigits (by decide) (by decide) hmem⟩

theorem toDigits_leading_zero {n : Nat} {digits : List Char} (h : Nat.toDigits 10 n = '0' :: digits) :
    digits = [] := by
  induction n using Nat.strongRecOn generalizing digits with
  | ind n ih =>
    by_cases hn : n < 10
    · rw [Nat.toDigits_of_lt_base hn] at h
      exact (List.cons.inj h).2.symm
    · rw [Nat.toDigits_of_base_le (by decide) (Nat.le_of_not_lt hn)] at h
      obtain ⟨c, front, hfront, -⟩ := exists_toDigits_cons (n / 10)
      rw [hfront] at h
      obtain ⟨rfl, -⟩ := List.cons.inj h
      have hvalue := @Nat.ofDigitChars_ten_toDigits (n / 10)
      rw [hfront, ih (n / 10) (by omega) hfront] at hvalue
      simp [Nat.ofDigitChars] at hvalue
      omega

theorem fraction?_ends {after : List Char} (h : Ends after) : fraction? after = some ([], after) := by
  cases after with
  | nil => rfl
  | cons c after =>
    have hpoint : c ≠ '.' := (h c rfl).2.1
    simp [fraction?, hpoint]

theorem exponent?_ends {after : List Char} (h : Ends after) : exponent? after = some ([], after) := by
  cases after with
  | nil => rfl
  | cons c after =>
    obtain ⟨-, -, hlower, hupper⟩ := h c rfl
    simp [exponent?, hlower, hupper]

theorem whole?_toDigits (n : Nat) {after : List Char} (h : Ends after) :
    whole? (Nat.toDigits 10 n ++ after) = some (Nat.toDigits 10 n, after) := by
  have hdigits : ∀ c ∈ Nat.toDigits 10 n, c.isDigit = true :=
    fun c hc => Nat.isDigit_of_mem_toDigits (by decide) (by decide) hc
  have hrun : Scan.Run Char.isDigit (Nat.toDigits 10 n) after := ⟨hdigits, fun c hc => (h c hc).1⟩
  obtain ⟨c, digits, hcons, -⟩ := exists_toDigits_cons n
  rw [hcons] at hrun ⊢
  by_cases hzero : c = '0'
  · subst hzero
    rw [toDigits_leading_zero hcons]
    rfl
  · rw [List.cons_append, whole?]
    · exact digits?_run hrun
    · rintro _ heq
      exact hzero (List.cons.inj heq).1

theorem number?_toDigits (n : Nat) {after : List Char} (h : Ends after) :
    number? (Nat.toDigits 10 n ++ after) = some (Nat.toDigits 10 n, after) := by
  have hwhole := whole?_toDigits n h
  obtain ⟨c, digits, hcons, hdigit⟩ := exists_toDigits_cons n
  have hminus : c ≠ '-' := by
    rintro rfl
    exact absurd hdigit (by decide)
  rw [hcons] at hwhole ⊢
  rw [number?]
  · rw [hwhole]
    simp [fraction?_ends h, exponent?_ends h]
  · rintro _ heq
    exact hminus (List.cons.inj heq).1

end Numbers

def Spaces (space : List Char) : Prop :=
  ∀ c ∈ space, isSpace c = true

theorem skipSpace_append {space : List Char} (h : Spaces space) (text : List Char) :
    skipSpace (space ++ text) = skipSpace text :=
  List.dropWhile_append_of_pos h

theorem skipSpace_cons {c : Char} (h : isSpace c = false) (text : List Char) :
    skipSpace (c :: text) = c :: text :=
  List.dropWhile_cons_of_neg (by simp [h])

theorem skipSpace_skipSpace (text : List Char) : skipSpace (skipSpace text) = skipSpace text :=
  List.dropWhile_idempotent isSpace text

mutual

/-- A text writes a value, with blanks wherever a line may be broken. -/
inductive Writes : Json → List Char → Prop
  | null : Writes .null ['n', 'u', 'l', 'l']
  | bool (value : Bool) : Writes (.bool value) (if value then "true" else "false").toList
  | number (n : Nat) : Writes (.ofNat n) (Nat.toDigits 10 n)
  | string (text : String) : Writes (.ofString text) (quote text).toList
  | noItems : Writes (.array []) ['[', ']']
  | array {items : List Json} {body space : List Char} (h : WritesItems items body)
      (hspace : Spaces space) : Writes (.array items) ('[' :: (body ++ (space ++ [']'])))
  | noMembers : Writes (.object []) ['\x7b', '\x7d']
  | object {members : List (Option String × Json)} {body space : List Char}
      (h : WritesMembers members body) (hspace : Spaces space) :
      Writes (.object members) ('\x7b' :: (body ++ (space ++ ['\x7d'])))

inductive WritesItems : List Json → List Char → Prop
  | last {item : Json} {space text : List Char} (hspace : Spaces space) (h : Writes item text) :
      WritesItems [item] (space ++ text)
  | more {item : Json} {items : List Json} {space text body : List Char} (hspace : Spaces space)
      (h : Writes item text) (hitems : WritesItems items body) :
      WritesItems (item :: items) (space ++ (text ++ ',' :: body))

inductive WritesMembers : List (Option String × Json) → List Char → Prop
  | last {name : String} {value : Json} {space gap text : List Char} (hspace : Spaces space)
      (hgap : Spaces gap) (h : Writes value text) :
      WritesMembers [(some name, value)] (space ++ ((quote name).toList ++ ':' :: (gap ++ text)))
  | more {name : String} {value : Json} {members : List (Option String × Json)}
      {space gap text body : List Char} (hspace : Spaces space) (hgap : Spaces gap)
      (h : Writes value text) (hmembers : WritesMembers members body) :
      WritesMembers ((some name, value) :: members)
        (space ++ ((quote name).toList ++ ':' :: (gap ++ (text ++ ',' :: body))))

end

section Front

theorem isSpace_eq_false_of_isDigit {c : Char} (h : c.isDigit = true) : isSpace c = false := by
  have hne : ∀ d, d.isDigit = false → c ≠ d := by
    rintro d hd rfl
    simp [hd] at h
  simp [isSpace, hne ' ' (by decide), hne '\n' (by decide), hne '\t' (by decide), hne '\r' (by decide)]

/-- What writes a value begins with neither a blank nor a bracket that closes. -/
theorem Writes.head {value : Json} {text : List Char} (h : Writes value text) :
    ∃ c rest, text = c :: rest ∧ isSpace c = false ∧ c ≠ ']' := by
  cases h with
  | bool value => cases value <;> exact ⟨_, _, rfl, by decide, by decide⟩
  | number n =>
    obtain ⟨c, digits, hcons, hdigit⟩ := exists_toDigits_cons n
    refine ⟨c, digits, hcons, isSpace_eq_false_of_isDigit hdigit, ?_⟩
    rintro rfl
    exact absurd hdigit (by decide)
  | string text => exact ⟨'"', _, toList_quote text, by decide, by decide⟩
  | _ => exact ⟨_, _, rfl, by decide, by decide⟩

theorem WritesItems.skipSpace_ne {items : List Json} {body : List Char} (h : WritesItems items body)
    (tail after : List Char) : skipSpace (body ++ tail) ≠ ']' :: after := by
  cases h with
  | last hspace hitem | more hspace hitem _ =>
    obtain ⟨c, rest, rfl, hblank, hclose⟩ := hitem.head
    simp only [List.append_assoc, skipSpace_append hspace, List.cons_append, skipSpace_cons hblank]
    exact fun heq => hclose (List.cons.inj heq).1

theorem WritesMembers.skipSpace_ne {members : List (Option String × Json)} {body : List Char}
    (h : WritesMembers members body) (tail after : List Char) :
    skipSpace (body ++ tail) ≠ '\x7d' :: after := by
  cases h with
  | last hspace | more hspace =>
    rw [List.append_assoc, skipSpace_append hspace, toList_quote, List.cons_append, List.cons_append,
      skipSpace_cons (by decide)]
    simp

/-- Blanks and what closes an array or an object end a number, and so does a comma. -/
theorem Ends.cons {c : Char} (h : c.isDigit = false ∧ c ≠ '.' ∧ c ≠ 'e' ∧ c ≠ 'E') (after : List Char) :
    Ends (c :: after) := by
  rintro d hd
  obtain rfl : c = d := by simpa using hd
  exact h

theorem Ends.spaces {space after : List Char} (hspace : Spaces space) (h : Ends after) :
    Ends (space ++ after) := by
  cases space with
  | nil => exact h
  | cons c space =>
    have hc := hspace c List.mem_cons_self
    simp only [isSpace, Bool.or_eq_true, beq_iff_eq] at hc
    apply Ends.cons
    rcases hc with ((rfl | rfl) | rfl) | rfl <;> decide

end Front

section Reading

variable {fuel : Nat} {space text after rest : List Char}

theorem value?_skipSpace (fuel : Nat) (text : List Char) : value? fuel (skipSpace text) = value? fuel text := by
  cases fuel with
  | zero => rw [value?, value?]
  | succ fuel => rw [value?, value?, skipSpace_skipSpace]

theorem items?_skipSpace (fuel : Nat) (text : List Char) : items? fuel (skipSpace text) = items? fuel text := by
  cases fuel with
  | zero => rw [items?, items?]
  | succ fuel => rw [items?, items?, value?_skipSpace]

theorem members?_skipSpace (fuel : Nat) (text : List Char) :
    members? fuel (skipSpace text) = members? fuel text := by
  cases fuel with
  | zero => rw [members?, members?]
  | succ fuel => rw [members?, members?, skipSpace_skipSpace]

theorem value?_spaces (h : Spaces space) : value? fuel (space ++ text) = value? fuel text := by
  rw [← value?_skipSpace, skipSpace_append h, value?_skipSpace]

theorem items?_spaces (h : Spaces space) : items? fuel (space ++ text) = items? fuel text := by
  rw [← items?_skipSpace, skipSpace_append h, items?_skipSpace]

theorem members?_spaces (h : Spaces space) : members? fuel (space ++ text) = members? fuel text := by
  rw [← members?_skipSpace, skipSpace_append h, members?_skipSpace]

theorem value?_string (text : String) :
    value? (fuel + 1) ((quote text).toList ++ after) = some (.ofString text, after) := by
  rw [value?, toList_quote, List.cons_append, skipSpace_cons (by decide)]
  simp [string?_escaped, ofString]

theorem value?_number (n : Nat) (h : Ends after) :
    value? (fuel + 1) (Nat.toDigits 10 n ++ after) = some (.ofNat n, after) := by
  have hnumber := number?_toDigits n h
  obtain ⟨c, digits, hcons, hdigit⟩ := exists_toDigits_cons n
  have hliteral : String.ofList (c :: digits) = toString n := by
    rw [← hcons]
    exact Nat.toString_eq_ofList_toDigits.symm
  rw [hcons, List.cons_append] at hnumber ⊢
  rw [value?, skipSpace_cons (isSpace_eq_false_of_isDigit hdigit)]
  -- No other value begins with a digit.
  split
  case h_7 =>
    rw [hnumber]
    simp [hliteral, ofNat]
  all_goals
    next heq =>
      obtain ⟨rfl, -⟩ := List.cons.inj heq
      exact absurd hdigit (by decide)

theorem value?_array {items : List Json} (hopen : ∀ rest, skipSpace text ≠ ']' :: rest)
    (h : items? fuel text = some (items, after)) :
    value? (fuel + 1) ('[' :: text) = some (.array items, after) := by
  rw [value?, skipSpace_cons (by decide)]
  simp only [items?_skipSpace, h]
  rfl

theorem value?_object {members : List (Option String × Json)} (hopen : ∀ rest, skipSpace text ≠ '\x7d' :: rest)
    (h : members? fuel text = some (members, after)) :
    value? (fuel + 1) ('\x7b' :: text) = some (.object members, after) := by
  rw [value?, skipSpace_cons (by decide)]
  simp only [members?_skipSpace, h]
  rfl

theorem items?_last {item : Json} (h : value? fuel text = some (item, after))
    (hafter : skipSpace after = ']' :: rest) : items? (fuel + 1) text = some ([item], rest) := by
  rw [items?, h]
  simp [hafter]

theorem items?_more {item : Json} {items : List Json} (h : value? fuel text = some (item, ',' :: after))
    (hitems : items? fuel after = some (items, rest)) :
    items? (fuel + 1) text = some (item :: items, rest) := by
  rw [items?, h]
  simp [skipSpace_cons (show isSpace ',' = false by decide), hitems]

theorem members?_last {name : String} {value : Json} (h : value? fuel text = some (value, after))
    (hafter : skipSpace after = '\x7d' :: rest) :
    members? (fuel + 1) ((quote name).toList ++ ':' :: text) = some ([(some name, value)], rest) := by
  rw [members?, toList_quote, List.cons_append, skipSpace_cons (by decide)]
  simp [string?_escaped, skipSpace_cons (show isSpace ':' = false by decide), h, hafter]

theorem members?_more {name : String} {value : Json} {members : List (Option String × Json)}
    (h : value? fuel text = some (value, ',' :: after))
    (hmembers : members? fuel after = some (members, rest)) :
    members? (fuel + 1) ((quote name).toList ++ ':' :: text) =
      some ((some name, value) :: members, rest) := by
  rw [members?, toList_quote, List.cons_append, skipSpace_cons (by decide)]
  simp [string?_escaped, skipSpace_cons (show isSpace ':' = false by decide), h,
    skipSpace_cons (show isSpace ',' = false by decide), hmembers]

mutual

/-- A value is read back where its end shows. Each character is worth two units of fuel. -/
theorem Writes.value?_eq {value : Json} {text after : List Char} {fuel : Nat} (h : Writes value text)
    (hafter : Ends after) (hfuel : 2 * text.length ≤ fuel) : value? fuel (text ++ after) = some (value, after) := by
  obtain ⟨c, rest, hcons, -, -⟩ := h.head
  obtain ⟨fuel, rfl⟩ : ∃ n, fuel = n + 1 := Nat.exists_eq_add_of_le' (by simp [hcons] at hfuel; omega)
  cases h with
  | null => rfl
  | bool value => cases value <;> rfl
  | number n => exact value?_number n hafter
  | string text => exact value?_string text
  | noItems => rfl
  | noMembers => rfl
  | @array items body space hitems hspace =>
    have hread : items? fuel (body ++ (space ++ ']' :: after)) = some (items, after) :=
      hitems.items?_eq hspace (by simp at hfuel; omega)
    simpa using value?_array (hitems.skipSpace_ne _) hread
  | @object members body space hmembers hspace =>
    have hread : members? fuel (body ++ (space ++ '\x7d' :: after)) = some (members, after) :=
      hmembers.members?_eq hspace (by simp at hfuel; omega)
    simpa using value?_object (hmembers.skipSpace_ne _) hread

theorem WritesItems.items?_eq {items : List Json} {body space after : List Char} {fuel : Nat}
    (h : WritesItems items body) (hspace : Spaces space) (hfuel : 2 * body.length + 1 ≤ fuel) :
    items? fuel (body ++ (space ++ ']' :: after)) = some (items, after) := by
  obtain ⟨fuel, rfl⟩ : ∃ n, fuel = n + 1 := Nat.exists_eq_add_of_le' (by omega)
  cases h with
  | @last item front text hfront hitem =>
    have hclose : skipSpace (space ++ ']' :: after) = ']' :: after := by
      rw [skipSpace_append hspace, skipSpace_cons (by decide)]
    have hread : value? fuel (text ++ (space ++ ']' :: after)) = some (item, space ++ ']' :: after) :=
      hitem.value?_eq (.spaces hspace (.cons (by decide) _)) (by simp at hfuel; omega)
    rw [List.append_assoc, items?_spaces hfront]
    exact items?_last hread hclose
  | @more item items front text body hfront hitem hitems =>
    have hread : value? fuel (text ++ ',' :: (body ++ (space ++ ']' :: after))) =
        some (item, ',' :: (body ++ (space ++ ']' :: after))) :=
      hitem.value?_eq (.cons (by decide) _) (by simp at hfuel; omega)
    have hrest : items? fuel (body ++ (space ++ ']' :: after)) = some (items, after) :=
      hitems.items?_eq hspace (by simp at hfuel; omega)
    rw [List.append_assoc, items?_spaces hfront, List.append_assoc, List.cons_append]
    exact items?_more hread hrest

theorem WritesMembers.members?_eq {members : List (Option String × Json)} {body space after : List Char}
    {fuel : Nat} (h : WritesMembers members body) (hspace : Spaces space) (hfuel : 2 * body.length + 1 ≤ fuel) :
    members? fuel (body ++ (space ++ '\x7d' :: after)) = some (members, after) := by
  obtain ⟨fuel, rfl⟩ : ∃ n, fuel = n + 1 := Nat.exists_eq_add_of_le' (by omega)
  cases h with
  | @last name value front gap text hfront hgap hvalue =>
    have hclose : skipSpace (space ++ '\x7d' :: after) = '\x7d' :: after := by
      rw [skipSpace_append hspace, skipSpace_cons (by decide)]
    have hread : value? fuel (gap ++ (text ++ (space ++ '\x7d' :: after))) =
        some (value, space ++ '\x7d' :: after) := by
      rw [value?_spaces hgap]
      exact hvalue.value?_eq (.spaces hspace (.cons (by decide) _)) (by simp at hfuel; omega)
    rw [List.append_assoc, members?_spaces hfront]
    simpa using members?_last hread hclose
  | @more name value members front gap text body hfront hgap hvalue hmembers =>
    have hread : value? fuel (gap ++ (text ++ ',' :: (body ++ (space ++ '\x7d' :: after)))) =
        some (value, ',' :: (body ++ (space ++ '\x7d' :: after))) := by
      rw [value?_spaces hgap]
      exact hvalue.value?_eq (.cons (by decide) _) (by simp at hfuel; omega)
    have hrest : members? fuel (body ++ (space ++ '\x7d' :: after)) = some (members, after) :=
      hmembers.members?_eq hspace (by simp at hfuel; omega)
    rw [List.append_assoc, members?_spaces hfront]
    simpa using members?_more hread hrest

end

theorem Writes.ofChars?_eq {value : Json} {text : List Char} (h : Writes value text) :
    ofChars? text = some value := by
  have hends : Ends [] := fun c hc => by cases hc
  have hread : value? (2 * text.length + 2) (text ++ []) = some (value, []) :=
    h.value?_eq hends (by omega)
  rw [List.append_nil] at hread
  simp [ofChars?, hread, skipSpace]

end Reading

/-- The numbers of a value are natural and fit 64 bits, and its strings and names stand for texts. -/
inductive Plain : Json → Prop
  | null : Plain .null
  | bool (value : Bool) : Plain (.bool value)
  | number {n : Nat} (h : n < UInt64.size) : Plain (.ofNat n)
  | string (text : String) : Plain (.ofString text)
  | array {items : List Json} (h : ∀ item ∈ items, Plain item) : Plain (.array items)
  | object {members : List (String × Json)} (h : ∀ member ∈ members, Plain member.2) :
      Plain (.ofMembers members)

section Writing

theorem toList_toString (n : Nat) : (toString n).toList = Nat.toDigits 10 n :=
  Nat.toList_repr

theorem spaces_nil : Spaces [] := fun c hc => by cases hc

theorem spaces_newline (level : Nat) : Spaces (newline level).toList := by
  intro c hc
  have hchars : c = '\n' ∨ c = ' ' := by
    simp [newline, Text.spaces] at hc
    exact hc.imp_right And.right
  rcases hchars with rfl | rfl <;> decide

section Joined

variable {space gap : String} {shown : Json → String} (hspace : Spaces space.toList)

include hspace

theorem writesItems_joined {joined : List Json → String} (hlast : ∀ item, joined [item] = space ++ shown item)
    (hmore : ∀ item next items,
      joined (item :: next :: items) = space ++ shown item ++ "," ++ joined (next :: items))
    {item : Json} {items : List Json} (h : ∀ i ∈ item :: items, Writes i (shown i).toList) :
    WritesItems (item :: items) (joined (item :: items)).toList := by
  induction items generalizing item with
  | nil =>
    have hitem := WritesItems.last hspace (h item (by simp))
    simpa [hlast] using hitem
  | cons next items ih =>
    obtain ⟨hitem, hitems⟩ := List.forall_mem_cons.1 h
    have hall := WritesItems.more hspace hitem (ih hitems)
    simpa [hmore] using hall

theorem writesMembers_joined (hgap : Spaces gap.toList) {joined : List (Option String × Json) → String}
    (hlast : ∀ name value, joined [(some name, value)] = space ++ quote name ++ ":" ++ gap ++ shown value)
    (hmore : ∀ name value next members, joined ((some name, value) :: next :: members) =
      space ++ quote name ++ ":" ++ gap ++ shown value ++ "," ++ joined (next :: members))
    {member : String × Json} {members : List (String × Json)}
    (h : ∀ m ∈ member :: members, Writes m.2 (shown m.2).toList) :
    WritesMembers ((member :: members).map fun (name, value) => (some name, value))
      (joined ((member :: members).map fun (name, value) => (some name, value))).toList := by
  induction members generalizing member with
  | nil =>
    have hmember : WritesMembers [(some member.1, member.2)] _ := .last hspace hgap (h member (by simp))
    simpa [hlast] using hmember
  | cons next members ih =>
    obtain ⟨hmember, hmembers⟩ := List.forall_mem_cons.1 h
    have hall : WritesMembers ((some member.1, member.2) :: _) _ := .more hspace hgap hmember (ih hmembers)
    simpa [hmore] using hall

end Joined

theorem writes_compact {value : Json} (h : Plain value) : Writes value value.compact.toList := by
  have hnone : Spaces "".toList := spaces_nil
  induction h with
  | null => exact .null
  | bool value => simpa [compact] using Writes.bool value
  | @number n => simpa [compact, ofNat, toList_toString] using Writes.number n
  | string text => simpa [compact, ofString, quote?] using Writes.string text
  | @array items _ ih =>
    cases items with
    | nil => exact .noItems
    | cons item items =>
      have hbody : WritesItems (item :: items) (compactItems (item :: items)).toList :=
        writesItems_joined hnone (by simp [compactItems]) (by simp [compactItems]) ih
      have hitems := Writes.array hbody spaces_nil
      simpa [compact] using hitems
  | @object members _ ih =>
    cases members with
    | nil => exact .noMembers
    | cons member members =>
      have hbody : WritesMembers (List.map _ (member :: members)) (compactMembers (List.map _ _)).toList :=
        writesMembers_joined hnone hnone (by simp [compactMembers, quote?]) (by simp [compactMembers, quote?]) ih
      have hmembers := Writes.object hbody spaces_nil
      simpa [compact, ofMembers] using hmembers

/-- A value is written on lines of its own, at any level. -/
theorem writes_prettyAt {value : Json} (h : Plain value) (level : Nat) :
    Writes value (value.prettyAt level).toList := by
  have hgap : Spaces " ".toList := by simp [Spaces, isSpace]
  induction h generalizing level with
  | null => simpa [prettyAt] using Writes.null
  | bool value => simpa [prettyAt] using Writes.bool value
  | @number n => simpa [prettyAt, ofNat, toList_toString] using Writes.number n
  | string text => simpa [prettyAt, ofString, quote?] using Writes.string text
  | @array items _ ih =>
    cases items with
    | nil => simpa [prettyAt] using Writes.noItems
    | cons item items =>
      have hbody : WritesItems (item :: items) (prettyItems level (item :: items)).toList :=
        writesItems_joined (spaces_newline (level + 1)) (by simp [prettyItems]) (by simp [prettyItems])
          fun i hi => ih i hi (level + 1)
      have hitems := Writes.array hbody (spaces_newline level)
      simpa [prettyAt] using hitems
  | @object members _ ih =>
    cases members with
    | nil => simpa [prettyAt, ofMembers] using Writes.noMembers
    | cons member members =>
      have hbody : WritesMembers (List.map _ (member :: members)) (prettyMembers level (List.map _ _)).toList :=
        writesMembers_joined (spaces_newline (level + 1)) hgap
          (by simp [prettyMembers, quote?, String.append_assoc])
          (by simp [prettyMembers, quote?, String.append_assoc]) fun m hm => ih m hm (level + 1)
      have hmembers := Writes.object hbody (spaces_newline level)
      simpa [prettyAt, ofMembers] using hmembers

end Writing

end ParseKit.Json
