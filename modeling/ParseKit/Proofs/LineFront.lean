import ParseKit.Proofs.ScannedLine

/-! What stands at the front of a line, case by case, and what the scanner does with it. Main
statement: `Scan.lexemesFrom_front`, one step of the scanner. -/

namespace ParseKit

namespace Scan

def isVisible (c : Char) : Bool :=
  0x21 ≤ c.toNat && c.toNat ≤ 0x7E

theorem isBlank_eq_false {c : Char} (h : isVisible c = true) : Text.isBlank c = false := by
  simp only [isVisible, Bool.and_eq_true, decide_eq_true_eq] at h
  simp [Text.isBlank, Text.inRanges, Text.blankRanges]
  omega

theorem isVisible_of_isPunctuation {c : Char} (h : isPunctuation c = true) : isVisible c = true := by
  simp [isPunctuation, Text.inRanges] at h
  simp [isVisible]
  omega

theorem isAlpha_iff {c : Char} : c.isAlpha = true ↔
    65 ≤ c.toNat ∧ c.toNat ≤ 90 ∨ 97 ≤ c.toNat ∧ c.toNat ≤ 122 := by
  have hletter : c.isAlpha =
      (decide (65 ≤ c.val ∧ c.val ≤ 90) || decide (97 ≤ c.val) && decide (c.val ≤ 122)) := rfl
  simp [hletter, UInt32.le_iff_toNat_le]

theorem isVisible_of_isNamePart {c : Char} (h : isNamePart c = true) : isVisible c = true := by
  simp only [isNamePart, Char.isAlphanum, Bool.or_eq_true, isAlpha_iff, Char.isDigit_iff_toNat,
    beq_iff_eq] at h
  simp only [isVisible, Bool.and_eq_true, decide_eq_true_eq]
  rcases h with (h | h) | rfl
  · omega
  · simp at h
    omega
  · decide

theorem isNamePart_of_isDigit {c : Char} (h : c.isDigit = true) : isNamePart c = true := by
  simp [isNamePart, Char.isAlphanum, h]

theorem isNamePart_of_isNameStart {c : Char} (h : isNameStart c = true) : isNamePart c = true := by
  simp only [isNameStart, Bool.or_eq_true] at h
  rcases h with h | h <;> simp [isNamePart, Char.isAlphanum, h]

/-- A name begins with a letter or an underscore, which is no digit. -/
theorem isDigit_eq_false_of_isNameStart {c : Char} (h : isNameStart c = true) : c.isDigit = false := by
  simp only [isNameStart, Bool.or_eq_true, isAlpha_iff, beq_iff_eq] at h
  rw [← Bool.not_eq_true, Char.isDigit_iff_toNat]
  rcases h with h | rfl
  · simp
    omega
  · decide

theorem isDigit_eq_false_of_isPunctuation {c : Char} (h : isPunctuation c = true) : c.isDigit = false := by
  simp [isPunctuation, Text.inRanges] at h
  rw [← Bool.not_eq_true, Char.isDigit_iff_toNat]
  simp
  omega

theorem isNameStart_eq_false_of_isPunctuation {c : Char} (h : isPunctuation c = true) (hne : c ≠ '_') :
    isNameStart c = false := by
  simp [isPunctuation, Text.inRanges] at h
  rw [← Bool.not_eq_true]
  simp only [isNameStart, Bool.or_eq_true, isAlpha_iff, beq_iff_eq, hne, or_false]
  omega

/-- Characters of a class that no further one of the class follows. -/
structure Run (accepts : Char → Bool) (run after : List Char) : Prop where
  accepted : ∀ c ∈ run, accepts c = true
  maximal : ∀ c ∈ after.head?, accepts c = false

namespace Run

variable {accepts : Char → Bool} {run after : List Char}

theorem takeWhile_eq (h : Run accepts run after) : (run ++ after).takeWhile accepts = run := by
  rw [List.takeWhile_append_of_pos h.accepted]
  cases after with
  | nil => simp
  | cons c after => simp [h.maximal c rfl]

theorem dropWhile_eq (h : Run accepts run after) : (run ++ after).dropWhile accepts = after := by
  rw [List.dropWhile_append_of_pos h.accepted]
  cases after with
  | nil => rfl
  | cons c after => simp [h.maximal c rfl]

theorem of_text (accepts : Char → Bool) (text : List Char) :
    Run accepts (text.takeWhile accepts) (text.dropWhile accepts) where
  accepted := List.all_eq_true.1 List.all_takeWhile
  maximal c hc := by
    have hhead := List.head?_dropWhile_not accepts text
    rw [hc] at hhead
    simpa using hhead

theorem of_cons {c : Char} (h : Run accepts (c :: run) after) : accepts c = true ∧ Run accepts run after :=
  ⟨h.accepted c List.mem_cons_self, fun d hd => h.accepted d (List.mem_cons_of_mem c hd), h.maximal⟩

theorem cons {c : Char} (hc : accepts c = true) (h : Run accepts run after) : Run accepts (c :: run) after where
  accepted := List.forall_mem_cons.2 ⟨hc, h.accepted⟩
  maximal := h.maximal

end Run

section Front

variable {c : Char} {rest after : List Char}

theorem front_number {digits : List Char} (h : Run Char.isDigit (c :: digits) after) :
    front c (digits ++ after) = (numberFront (c :: digits), after) := by
  obtain ⟨hc, hdigits⟩ := h.of_cons
  have hslash : ¬ c = '/' := by
    rintro rfl
    exact absurd hc (by decide)
  simp [front, hslash, hc, hdigits.takeWhile_eq, hdigits.dropWhile_eq]

theorem front_identifier {name : List Char} (hc : isNameStart c = true)
    (h : Run isNamePart name after) : front c (name ++ after) =
      (.lexeme (.identifier (String.ofList (c :: name))), after) := by
  have hslash : ¬ c = '/' := by
    rintro rfl
    exact absurd hc (by decide)
  have hquote : ¬ c = '"' := by
    rintro rfl
    exact absurd hc (by decide)
  simp [front, hslash, hquote, isDigit_eq_false_of_isNameStart hc, hc, h.takeWhile_eq,
    h.dropWhile_eq]

theorem front_pair {d : Char} (h : isPair c d = true) :
    front c (d :: after) = (.lexeme (.operator (String.ofList [c, d])), after) := by
  unfold isPair at h
  split at h <;> first | rfl | cases h

theorem isPair_quote (d : Char) : isPair '"' d = false := by
  unfold isPair
  split <;> first | rfl | (next h => cases h)

/-- What begins neither a comment nor a number, a string or a name can only be an operator. -/
theorem front_of_operator (hcomment : ¬ (c = '/' ∧ rest.head? = some '/'))
    (hdigit : ¬ c.isDigit = true) (hstring : c = '"' → Literal.close? rest = none)
    (hname : ¬ isNameStart c = true) : front c rest =
      if rest.head?.any (isPair c) then
        (.lexeme (.operator (String.ofList (c :: rest.take 1))), rest.tail)
      else (operatorFront c, rest) := by
  by_cases hquote : c = '"'
  · subst hquote
    have hpair : rest.head?.any (isPair '"') = false := by cases rest <;> simp [isPair_quote]
    simp [front, hdigit, hstring rfl, hpair]
  · cases rest with
    | nil => simp [front, hdigit, hquote, hname]
    | cons d rest =>
      have hslash : ¬ (c = '/' ∧ d = '/') := by simpa using hcomment
      simp [front, hslash, hdigit, hquote, hname]

theorem isPunctuation_of_isPair {d : Char} (h : isPair c d = true) : isPunctuation c = true := by
  unfold isPair at h
  split at h <;> first | decide | cases h

theorem isPair_any_eq_false (h : ∀ d ∈ rest.head?, ¬ isPair c d = true) :
    rest.head?.any (isPair c) = false := by
  cases rest with
  | nil => rfl
  | cons d rest => simpa using h d rfl

theorem front_operator (hc : isPunctuation c = true) (hname : ¬ isNameStart c = true)
    (hcomment : c = '/' → after.head? ≠ some '/') (hstring : c = '"' → Literal.close? after = none)
    (hpair : ∀ d ∈ after.head?, ¬ isPair c d = true) :
    front c after = (.lexeme (.operator c.toString), after) := by
  have hslash : ¬ (c = '/' ∧ after.head? = some '/') := fun h => hcomment h.1 h.2
  have hdigit : ¬ c.isDigit = true := by simp [isDigit_eq_false_of_isPunctuation hc]
  rw [front_of_operator hslash hdigit hstring hname, isPair_any_eq_false hpair]
  simp [operatorFront, hc]

theorem front_nothing (hdigit : ¬ c.isDigit = true) (hname : ¬ isNameStart c = true)
    (hpunctuation : ¬ isPunctuation c = true) : front c rest = (.nothing, rest) := by
  have hne : ∀ d, isPunctuation d = true → c ≠ d := by
    rintro d hd rfl
    exact hpunctuation hd
  have hslash : ¬ (c = '/' ∧ rest.head? = some '/') := fun h => hne '/' (by decide) h.1
  have hstring : c = '"' → Literal.close? rest = none := fun h => absurd h (hne '"' (by decide))
  have hpair : ∀ d ∈ rest.head?, ¬ isPair c d = true :=
    fun _ _ hpair => hpunctuation (isPunctuation_of_isPair hpair)
  rw [front_of_operator hslash hdigit hstring hname, isPair_any_eq_false hpair]
  simp [operatorFront, hpunctuation]

end Front

section Step

variable {size : Nat} {text : List Char}

theorem byteLength_append (first second : List Char) :
    byteLength (first ++ second) = byteLength first + byteLength second := by
  induction first with
  | nil => simp [byteLength]
  | cons c first ih => simp [byteLength, ih, Nat.add_assoc]

/-- What the scanner gives for what it sees in front of a text, where `others` is what it gives for
what comes after. -/
def proceed (column : Nat) (text : List Char) (others : Except ScanFault (List Lexeme)) :
    Front → Except ScanFault (List Lexeme)
  | .comment => others
  | .lexeme lexeme => (lexeme :: ·) <$> others
  | .tooLarge digits => .error (.numberOutOfRange (String.ofList digits))
  | .nothing => .error (.badToken column (excerpt text))

theorem lexemesFrom_front {rest after : List Char} {c : Char} {f : Front}
    (htext : text.dropWhile Text.isBlank = c :: rest) (hfront : front c rest = (f, after)) :
    lexemesFrom size text = proceed (size - byteLength (c :: rest) + 1) (c :: rest)
      (lexemesFrom size after) f := by
  rw [lexemesFrom]
  split
  · next hnil =>
    rw [htext] at hnil
    cases hnil
  · next d others hcons =>
    rw [htext] at hcons
    obtain ⟨rfl, rfl⟩ := List.cons.inj hcons
    split <;> next hread =>
      rw [hfront] at hread
      obtain ⟨rfl, rfl⟩ := Prod.mk.inj hread
      rfl

theorem lexemesFrom_blank (htext : text.dropWhile Text.isBlank = []) :
    lexemesFrom size text = .ok [] := by
  rw [lexemesFrom]
  split
  · rfl
  · next hcons =>
    rw [htext] at hcons
    cases hcons

theorem lexemesFrom_congr {other : List Char} (h : text.dropWhile Text.isBlank = other.dropWhile Text.isBlank) :
    lexemesFrom size text = lexemesFrom size other := by
  cases hother : other.dropWhile Text.isBlank with
  | nil => rw [lexemesFrom_blank hother, lexemesFrom_blank (h.trans hother)]
  | cons c rest =>
    rw [lexemesFrom_front hother rfl, lexemesFrom_front (h.trans hother) rfl]

theorem dropWhile_visible {c : Char} (hc : isVisible c = true) (rest : List Char) :
    (c :: rest).dropWhile Text.isBlank = c :: rest :=
  List.dropWhile_cons_of_neg (by simp [isBlank_eq_false hc])

end Step

end Scan

end ParseKit
