import ParseKit.Proofs.Running

/-! Relations between parsers that the interpreter keeps. It puts parsers together in few ways: one
after the other, by looking at the next token, by taking it, and by trying a parser and going back.
A relation that each of these keeps relates every parse of a rule to the same parse over another
kind of stream, by another grammar with the same builders, or of the same stream with more rounds. A property of single parsers is a relation
that leaves the second one aside. Main statement: `Parametric.parseWithin`. -/

namespace ParseKit

variable {σ τ α : Type}

/-- Tries a parser. Where it is refused the stream is put back and the next one is tried. -/
def ParseM.tryOr [TokenStream σ] (note : ParseError → String) (p : ParseM σ α)
    (next : ParseError → ParseM σ α) : ParseM σ α := do
  let mark ← checkpoint
  match ← attempt p with
  | .ok a =>
    commit
    return a
  | .error error =>
    if error.isRecoverable then
      trace (note error)
      rewind mark
      next error
    else
      rewind mark
      throw error

theorem ParseM.run_tryOr [TokenStream σ] (note : ParseError → String) (p : ParseM σ α)
    (next : ParseError → ParseM σ α) (s : σ) : p.tryOr note next s =
      match p (TokenStream.checkpoint s).2 with
      | (.ok a, t) => (.ok a, TokenStream.commit t)
      | (.error error, t) =>
        if error.isRecoverable then
          next error (TokenStream.rewind (TokenStream.checkpoint s).1
            (TokenStream.report ⟨.trace, note error⟩ t))
        else (.error error, TokenStream.rewind (TokenStream.checkpoint s).1 t) := by
  simp only [tryOr, run_bind, checkpoint, run_attempt]
  rcases p (TokenStream.checkpoint s).2 with ⟨error | a, t⟩
  · simp only
    split <;> rfl
  · rfl

def Grammar.rejection (g : Grammar) (id : RuleId) (error : ParseError) : String :=
  let name := (g.ruleName? id).getD "?"
  s!"alternative '{name}' rejected: {error.message}"

theorem Grammar.parseChoice_cons [TokenStream σ] (g : Grammar) (run : Runner σ)
    (last? : Option ParseError) (id : RuleId) (rest : List RuleId) :
    g.parseChoice run last? (id :: rest) = g.starts id >>= fun b =>
      if b then
        (run.parse id).tryOr (g.rejection id) fun error => g.parseChoice run (some error) rest
      else g.parseChoice run last? rest := by
  rw [Grammar.parseChoice]
  refine congrArg (g.starts id >>= ·) (funext fun b => ite_congr rfl (fun _ => ?_) fun _ => rfl)
  refine congrArg (ParseM.checkpoint >>= ·) (funext fun mark => ?_)
  refine congrArg (ParseM.attempt (run.parse id) >>= ·) (funext fun result => ?_)
  cases result <;> rfl

/-- One round of parsing up to the end of the input: a parser, and what comes after it if it took
something. -/
def Grammar.round [TokenStream σ] (p : ParseM σ Node) (rest : ParseM σ (List Node)) :
    ParseM σ (List Node) := do
  if (← ParseM.peek 0).isEndOfInput then return []
  let start ← ParseM.cursor
  let node ← p
  if (← ParseM.cursor) == start then ParseM.unexpected
  return node :: (← rest)

theorem Grammar.parseUpTo_eq_round [TokenStream σ] (g : Grammar) (bound : Nat) (id : RuleId)
    (limit : Nat) : (g.parseUpTo bound id (limit + 1) : ParseM σ (List Node)) =
      round (g.parseBounded bound id) (g.parseUpTo bound id limit) :=
  rfl

/-- The relation is kept by what looks ahead. The errors that are thrown are in `E`. -/
structure Looking [TokenStream σ] [TokenStream τ] (E : ParseError → Prop)
    (R : ∀ {α : Type}, ParseM σ α → ParseM τ α → Prop) : Prop where
  pure : ∀ {α : Type} (a : α), R (Pure.pure a) (Pure.pure a)
  bind : ∀ {α β : Type} {p : ParseM σ α} {q : ParseM τ α} {f : α → ParseM σ β} {f' : α → ParseM τ β},
    R p q → (∀ a, R (f a) (f' a)) → R (p >>= f) (q >>= f')
  throw : ∀ {α : Type} {error : ParseError}, E error →
    R (MonadExcept.throw error : ParseM σ α) (MonadExcept.throw error)
  exhausted : ∀ {α : Type}, R (MonadExcept.throw (.grammar .leftRecursion) : ParseM σ α)
    (MonadExcept.throw (.grammar .leftRecursion))
  peek : R (ParseM.peek 0) (ParseM.peek 0)

/-- The relation is kept by every way in which the interpreter puts parsers together. -/
structure Parametric [TokenStream σ] [TokenStream τ] (E : ParseError → Prop)
    (R : ∀ {α : Type}, ParseM σ α → ParseM τ α → Prop) : Prop extends Looking E R where
  recoverable : ∀ {error : ParseError}, error.isRecoverable = true → E error
  read : R ParseM.read ParseM.read
  cursor : R ParseM.cursor ParseM.cursor
  tryOr : ∀ {α : Type} {note : ParseError → String} {p : ParseM σ α} {q : ParseM τ α}
    {next : ParseError → ParseM σ α} {next' : ParseError → ParseM τ α},
    R p q → (∀ error, error.isRecoverable = true → R (next error) (next' error)) →
    R (p.tryOr note next) (q.tryOr note next')

/-- The rounds, or the depths, that related parsers may have: as many on both sides, or more on the
right if a parser that runs out of them is related to all others. -/
def Fits (R : ∀ {α : Type}, ParseM σ α → ParseM τ α → Prop) (n m : Nat) : Prop :=
  n = m ∨ n ≤ m ∧ ∀ {α : Type} (q : ParseM τ α), R (throw (.grammar .leftRecursion)) q

/-- The rules in `Known` refer to rules in `Known`, and the errors of looking them up are in `E`. -/
structure Grammar.Refers (g : Grammar) (Known : RuleId → Prop) (E : ParseError → Prop) : Prop where
  rule : ∀ {id error}, Known id → g.rule id = .error error → E (.grammar error)
  known : ∀ {id rule}, Known id → g.rule id = .ok rule →
    ∀ element ∈ rule.elements, ∀ other ∈ element.rules, Known other

/-- The errors that a grammar gives rise to by itself are in `E`, as far as it is used through the
rules in `Known`. -/
structure Grammar.Raises (g : Grammar) (Known : RuleId → Prop) (E : ParseError → Prop) : Prop
    extends g.Refers Known E where
  kind : ∀ {id rule}, Known id → g.rule id = .ok rule →
    ∀ children error, g.listNode rule.kind children = .error error → E error
  tokenKinds : ∀ {id rule}, Known id → g.rule id = .ok rule → ∀ element ∈ rule.elements,
    ∀ kind ∈ element.tokenKinds, ∀ token error, g.tokenNode kind token = .error error → E error
  listKinds : ∀ {id rule}, Known id → g.rule id = .ok rule → ∀ element ∈ rule.elements,
    ∀ kind ∈ element.listKinds, ∀ children error, g.listNode kind children = .error error → E error

theorem Grammar.Raises.trivial (g : Grammar) : g.Raises (fun _ => True) fun _ => True where
  rule _ _ := True.intro
  known _ _ _ _ _ _ := True.intro
  kind _ _ _ _ _ := True.intro
  tokenKinds _ _ _ _ _ _ _ _ _ := True.intro
  listKinds _ _ _ _ _ _ _ _ _ := True.intro

/-- The second grammar has the names, the kinds and the builders of the first, as far as that one is
used through the rules in `Known`. -/
structure Grammar.Supplies (g g' : Grammar) (Known : RuleId → Prop) : Prop where
  ruleName? : ∀ {id}, Known id → g'.ruleName? id = g.ruleName? id
  ruleKind : ∀ {id}, Known id → (g'.rule id).map Rule.kind = (g.rule id).map Rule.kind
  kind : ∀ {id rule}, Known id → g.rule id = .ok rule → g'.listFactory rule.kind = g.listFactory rule.kind
  tokenKinds : ∀ {id rule}, Known id → g.rule id = .ok rule → ∀ element ∈ rule.elements,
    ∀ kind ∈ element.tokenKinds, g'.tokenFactory kind = g.tokenFactory kind
  listKinds : ∀ {id rule}, Known id → g.rule id = .ok rule → ∀ element ∈ rule.elements,
    ∀ kind ∈ element.listKinds, g'.listFactory kind = g.listFactory kind

namespace Grammar

theorem Supplies.refl (g : Grammar) (Known : RuleId → Prop) : g.Supplies g Known where
  ruleName? _ := rfl
  ruleKind _ := rfl
  kind _ _ := rfl
  tokenKinds _ _ _ _ _ _ := rfl
  listKinds _ _ _ _ _ _ := rfl

variable {g g' : Grammar} {kind : NodeKind}

theorem makeToken_congr (h : g'.tokenFactory kind = g.tokenFactory kind) (token : Token) :
    (g'.makeToken kind token : ParseM σ Node) = g.makeToken kind token := by
  rw [makeToken, makeToken, h]

theorem makeList_congr (h : g'.listFactory kind = g.listFactory kind) (children : List Node) :
    (g'.makeList kind children : ParseM σ Node) = g.makeList kind children := by
  rw [makeList, makeList, h]

theorem rejection_congr {id : RuleId} (h : g'.ruleName? id = g.ruleName? id) :
    g'.rejection id = g.rejection id := by
  funext error
  rw [rejection, rejection, h]

theorem bind_ruleKind (id : RuleId) (f : NodeKind → ParseM σ α) :
    (ParseM.ofGrammar (g.rule id) >>= fun rule => f rule.kind) =
      ParseM.ofGrammar ((g.rule id).map Rule.kind) >>= f := by
  cases g.rule id <;> rfl

end Grammar

namespace Fits

variable {R : ∀ {α : Type}, ParseM σ α → ParseM τ α → Prop} {n m : Nat}

theorem refl (n : Nat) : Fits R n n := .inl rfl

theorem succ (h : Fits R n m) : Fits R (n + 1) (m + 1) :=
  h.imp (congrArg (· + 1)) fun ⟨hle, hall⟩ => ⟨Nat.succ_le_succ hle, hall⟩

theorem exists_of_succ (h : Fits R (n + 1) m) : ∃ k, m = k + 1 ∧ Fits R n k := by
  rcases h with rfl | ⟨hle, hall⟩
  · exact ⟨n, rfl, refl n⟩
  · obtain ⟨k, rfl⟩ := Nat.exists_eq_add_of_le' (Nat.le_trans (Nat.succ_le_succ n.zero_le) hle)
    exact ⟨k, rfl, .inr ⟨Nat.le_of_succ_le_succ hle, hall⟩⟩

theorem depth (h : Fits R n m) (size : Nat) : Fits R (size * (n + 1) + 1) (size * (m + 1) + 1) := by
  rcases h with rfl | ⟨hle, hall⟩
  · exact refl _
  · exact .inr ⟨Nat.succ_le_succ (Nat.mul_le_mul_left size (Nat.succ_le_succ hle)), hall⟩

end Fits

section Kept

variable [TokenStream σ] [TokenStream τ] {E : ParseError → Prop}
  {R : ∀ {α : Type}, ParseM σ α → ParseM τ α → Prop}

omit [TokenStream σ] [TokenStream τ] in
theorem related_ite {p p' : ParseM σ α} {q q' : ParseM τ α} (c : Prop) [Decidable c]
    (hp : R p q) (hp' : R p' q') : R (if c then p else p') (if c then q else q') := by
  split
  · exact hp
  · exact hp'

namespace Looking

variable (hR : Looking E R)
include hR

theorem zero {m : Nat} {q : ParseM τ α} (h : Fits R 0 m)
    (hq : m = 0 → q = MonadExcept.throw (.grammar .leftRecursion)) :
    R (MonadExcept.throw (.grammar .leftRecursion)) q := by
  rcases h with rfl | ⟨_, hall⟩
  · rw [hq rfl]
    exact hR.exhausted
  · exact hall q

theorem ofExcept {result : Except ParseError α} (h : ∀ error, result = .error error → E error) :
    R (MonadExcept.ofExcept result) (MonadExcept.ofExcept result) := by
  cases result with
  | error error => exact hR.throw (h error rfl)
  | ok a => exact hR.pure a

theorem ofGrammar_bind {β : Type} {result : Except GrammarError α} {f : α → ParseM σ β}
    {f' : α → ParseM τ β} (herror : ∀ error, result = .error error → E (.grammar error))
    (hf : ∀ a, result = .ok a → R (f a) (f' a)) :
    R (ParseM.ofGrammar result >>= f) (ParseM.ofGrammar result >>= f') := by
  cases result with
  | error error => exact hR.throw (herror error rfl)
  | ok a => exact hf a rfl

theorem makeToken {g : Grammar} {kind : NodeKind} {token : Token}
    (h : ∀ error, g.tokenNode kind token = .error error → E error) :
    R (g.makeToken kind token) (g.makeToken kind token) := by
  unfold Grammar.tokenNode at h
  refine hR.ofGrammar_bind (fun error herror => ?_) fun factory hfactory => ?_
  · exact h _ (by rw [herror])
  · exact hR.ofExcept fun error herror => h error (by rw [hfactory]; exact herror)

theorem makeList {g : Grammar} {kind : NodeKind} {children : List Node}
    (h : ∀ error, g.listNode kind children = .error error → E error) :
    R (g.makeList kind children) (g.makeList kind children) := by
  unfold Grammar.listNode at h
  refine hR.ofGrammar_bind (fun error herror => ?_) fun factory hfactory => ?_
  · exact h _ (by rw [herror])
  · exact hR.ofExcept fun error herror => h error (by rw [hfactory]; exact herror)

theorem anyM {f : RuleId → ParseM σ Bool} {f' : RuleId → ParseM τ Bool} {ids : List RuleId}
    (hf : ∀ id ∈ ids, R (f id) (f' id)) : R (ids.anyM f) (ids.anyM f') := by
  induction ids with
  | nil => exact hR.pure false
  | cons id ids ih =>
    obtain ⟨hid, hids⟩ := List.forall_mem_cons.1 hf
    refine hR.bind hid fun b => ?_
    cases b
    · exact ih hids
    · exact hR.pure true

theorem startsWith {f : RuleId → ParseM σ Bool} {f' : RuleId → ParseM τ Bool} {element : Element}
    (hf : ∀ id ∈ element.rules, R (f id) (f' id)) :
    R (element.startsWith f) (element.startsWith f') := by
  cases element with
  | keep | drop => exact hR.bind hR.peek fun _ => hR.pure _
  | choice ids => exact hR.anyM hf
  | tree id | repeated id | orEmpty id => exact hf id (by simp [Element.rules])
  | expression kind factor operators => exact hf factor (by simp [Element.rules])

theorem allStartWith {f : RuleId → ParseM σ Bool} {f' : RuleId → ParseM τ Bool} {elements : List Element}
    (hf : ∀ before element after, elements = before ++ element :: after →
      (∀ other ∈ before, other.isOptional = true) → ∀ id ∈ element.rules, R (f id) (f' id)) :
    R (Element.allStartWith f elements) (Element.allStartWith f' elements) := by
  induction elements with
  | nil => exact hR.pure true
  | cons element rest ih =>
    have hfirst := hf [] element rest rfl (by simp)
    refine hR.bind (hR.startsWith hfirst) fun b => related_ite _ (hR.pure true) ?_
    by_cases hoptional : element.isOptional = true
    · rw [if_pos hoptional, if_pos hoptional]
      refine ih fun before other after heq hbefore => ?_
      exact hf (element :: before) other after (by rw [heq]; rfl) (by simpa [hoptional] using hbefore)
    · rw [if_neg hoptional, if_neg hoptional]
      exact hR.pure false

variable {g : Grammar} {Known : RuleId → Prop} (hg : g.Refers Known E)
include hg

theorem startsWithin {depth depth' : Nat} (h : Fits R depth depth') {id : RuleId} (hid : Known id) :
    R (g.startsWithin depth id) (g.startsWithin depth' id) := by
  induction depth generalizing depth' id with
  | zero =>
    unfold Grammar.startsWithin
    refine hR.ofGrammar_bind (fun _ => hg.rule hid) fun rule _ => hR.zero h fun hzero => ?_
    rw [hzero]
  | succ depth ih =>
    obtain ⟨depth', rfl, hless⟩ := h.exists_of_succ
    unfold Grammar.startsWithin
    refine hR.ofGrammar_bind (fun _ => hg.rule hid) fun rule hrule => ?_
    refine hR.allStartWith fun before element after heq _ other hother => ?_
    exact ih hless (hg.known hid hrule element (by simp [heq]) other hother)

theorem starts {id : RuleId} (hid : Known id) : R (g.starts id) (g.starts id) :=
  hR.startsWithin hg (.refl _) hid

end Looking

namespace Parametric

variable (hR : Parametric E R)
include hR

theorem unexpected : R (ParseM.unexpected : ParseM σ α) ParseM.unexpected :=
  hR.bind hR.peek fun _ => hR.throw (hR.recoverable rfl)

theorem take (what : TokenClass) : R what.take what.take :=
  hR.bind hR.peek fun _ => related_ite _ hR.read (hR.throw (hR.recoverable rfl))

theorem nextOperator (operators : Operators) :
    R (Grammar.nextOperator operators) (Grammar.nextOperator operators) :=
  hR.bind hR.peek fun _ => hR.pure _

theorem round {p : ParseM σ Node} {q : ParseM τ Node} {rest : ParseM σ (List Node)}
    {rest' : ParseM τ (List Node)} (hp : R p q) (hrest : R rest rest') :
    R (Grammar.round p rest) (Grammar.round q rest') := by
  have hlater := fun node : Node => hR.bind hrest fun nodes => hR.pure (node :: nodes)
  refine hR.bind hR.peek fun token => related_ite _ (hR.pure []) ?_
  refine hR.bind hR.cursor fun start => hR.bind hp fun node => ?_
  refine hR.bind hR.cursor fun stop => related_ite _ ?_ (hlater node)
  exact hR.bind hR.unexpected fun _ => hlater node

variable {g g' : Grammar} {Known : RuleId → Prop} {run : Grammar.Runner σ} {run' : Grammar.Runner τ}

theorem parseChoice_across (hnames : ∀ {id}, Known id → g'.ruleName? id = g.ruleName? id)
    (hstarts : ∀ {id}, Known id → R (g.starts id) (g'.starts id)) {last? : Option ParseError}
    (hlast : ∀ error, last? = some error → error.isRecoverable = true) {ids : List RuleId}
    (hknown : ∀ id ∈ ids, Known id) (hrun : ∀ id ∈ ids, R (run.parse id) (run'.parse id)) :
    R (g.parseChoice run last? ids) (g'.parseChoice run' last? ids) := by
  induction ids generalizing last? with
  | nil =>
    cases last? with
    | none => exact hR.unexpected
    | some error => exact hR.throw (hR.recoverable (hlast error rfl))
  | cons id ids ih =>
    obtain ⟨hid, hids⟩ := List.forall_mem_cons.1 hknown
    obtain ⟨hfirst, hrest⟩ := List.forall_mem_cons.1 hrun
    rw [Grammar.parseChoice_cons, Grammar.parseChoice_cons, Grammar.rejection_congr (hnames hid)]
    refine hR.bind (hstarts hid) fun b => related_ite _ ?_ (ih hlast hids hrest)
    refine hR.tryOr hfirst fun error herror => ih (fun other hother => ?_) hids hrest
    cases hother
    exact herror

theorem parseRepeated_across {id : RuleId} (hstarts : R (g.starts id) (g'.starts id))
    (hrun : R (run.parse id) (run'.parse id)) (once : Bool) {bound bound' : Nat} (h : Fits R bound bound') :
    R (g.parseRepeated run id once bound) (g'.parseRepeated run' id once bound') := by
  induction bound generalizing bound' with
  | zero => exact hR.zero h fun hzero => by rw [hzero]; rfl
  | succ bound ih =>
    obtain ⟨bound', rfl, hless⟩ := h.exists_of_succ
    simp only [Grammar.parseRepeated]
    refine hR.bind hstarts fun b => related_ite _ ?_ (hR.pure [])
    refine hR.bind hR.cursor fun start => hR.bind hrun fun node => ?_
    refine hR.bind hR.cursor fun stop => related_ite _ (hR.pure _) ?_
    exact hR.bind (ih hless) fun nodes => hR.pure _

theorem parseOperators_across {kind : NodeKind} {factor : RuleId} {operators : Operators}
    (hleaf : ∀ token error, g.tokenNode .leaf token = .error error → E error)
    (hlist : ∀ children error, g.listNode kind children = .error error → E error)
    (hleaf' : g'.tokenFactory .leaf = g.tokenFactory .leaf)
    (hlist' : g'.listFactory kind = g.listFactory kind)
    (hrun : R (run.parse factor) (run'.parse factor)) (outer? : Option Precedence) (left : Node)
    {bound bound' : Nat} (h : Fits R bound bound') :
    R (g.parseOperators run kind factor operators outer? left bound)
      (g'.parseOperators run' kind factor operators outer? left bound') := by
  induction bound generalizing outer? left bound' with
  | zero => exact hR.zero h fun hzero => by rw [hzero]; rfl
  | succ bound ih =>
    obtain ⟨bound', rfl, hless⟩ := h.exists_of_succ
    simp only [Grammar.parseOperators, hleaf', Grammar.makeList_congr hlist']
    refine hR.bind (hR.nextOperator operators) fun next? => ?_
    cases next? with
    | none => exact hR.pure left
    | some precedence =>
      refine related_ite _ ?_ (hR.pure left)
      refine hR.ofGrammar_bind (fun error herror => ?_) fun leaf hfound => ?_
      · exact hleaf .endOfInput _ (by rw [Grammar.tokenNode, herror])
      refine hR.bind hR.read fun token => hR.bind (hR.ofExcept fun error herror => ?_) fun operator => ?_
      · exact hleaf token error (by rw [Grammar.tokenNode, hfound]; exact herror)
      refine hR.bind hrun fun right => hR.bind (ih _ right hless) fun right => ?_
      exact hR.bind (hR.makeList (hlist _)) fun node => ih outer? node hless

variable (hg : g.Raises Known E)
include hg

section Element

variable {id : RuleId} {rule : Rule} (hid : Known id) (hrule : g.rule id = .ok rule)
include hid hrule

variable (hrun : ∀ other, Known other → R (run.parse other) (run'.parse other))
  (hbound : Fits R run.bound run'.bound)
include hrun hbound

section Across

variable (hsupplies : g.Supplies g' Known)
  (hstarts : ∀ {id}, Known id → R (g.starts id) (g'.starts id))
include hsupplies hstarts

theorem parseElement_across {element : Element} (hmem : element ∈ rule.elements) :
    R (g.parseElement run element) (g'.parseElement run' element) := by
  have hknown := hg.known hid hrule element hmem
  have htokens := hsupplies.tokenKinds hid hrule element hmem
  have hlists := hsupplies.listKinds hid hrule element hmem
  cases element with
  | keep what kind =>
    have hkind := hg.tokenKinds hid hrule _ hmem kind (by simp [Element.tokenKinds])
    simp only [Grammar.parseElement, Grammar.makeToken_congr (htokens kind (by simp [Element.tokenKinds]))]
    refine hR.bind (hR.take what) fun token => ?_
    exact hR.bind (hR.makeToken (hkind token)) fun node => hR.pure [node]
  | drop what => exact hR.bind (hR.take what) fun _ => hR.pure []
  | tree other =>
    have hother := hknown other (by simp [Element.rules])
    exact hR.bind (hrun other hother) fun node => hR.pure [node]
  | choice ids =>
    have hids : ∀ other ∈ ids, Known other := hknown
    have hchoice : R (g.parseChoice run none ids) (g'.parseChoice run' none ids) :=
      hR.parseChoice_across hsupplies.ruleName? hstarts (by simp) hids fun other hother =>
        hrun other (hids other hother)
    exact hR.bind hchoice fun node => hR.pure [node]
  | repeated other once =>
    have hother := hknown other (by simp [Element.rules])
    exact hR.parseRepeated_across (hstarts hother) (hrun other hother) once hbound.succ
  | orEmpty other =>
    have hother := hknown other (by simp [Element.rules])
    simp only [Grammar.parseElement]
    refine hR.bind (hstarts hother) fun b => related_ite _ ?_ ?_
    · exact hR.bind (hrun other hother) fun node => hR.pure [node]
    · rw [Grammar.bind_ruleKind other fun kind => do return [← g.makeList kind []],
        Grammar.bind_ruleKind other fun kind => do return [← g'.makeList kind []], hsupplies.ruleKind hother]
      refine hR.ofGrammar_bind (fun error herror => ?_) fun kind hkind => ?_
      · cases hr : g.rule other <;> rw [hr] at herror <;> cases herror
        exact hg.rule hother hr
      · cases hr : g.rule other <;> rw [hr] at hkind <;> cases hkind
        rw [Grammar.makeList_congr (hsupplies.kind hother hr)]
        exact hR.bind (hR.makeList (hg.kind hother hr [])) fun node => hR.pure [node]
  | expression kind factor operators =>
    have hfactor := hrun factor (hknown factor (by simp [Element.rules]))
    have hleaf := hg.tokenKinds hid hrule _ hmem .leaf (by simp [Element.tokenKinds])
    have hlist := hg.listKinds hid hrule _ hmem kind (by simp [Element.listKinds])
    have hleaf' := htokens .leaf (by simp [Element.tokenKinds])
    have hlist' := hlists kind (by simp [Element.listKinds])
    refine hR.bind hfactor fun left => ?_
    refine hR.bind (hR.parseOperators_across hleaf hlist hleaf' hlist' hfactor none left hbound.succ) ?_
    exact fun node => hR.pure [node]

theorem parseElements_across {elements : List Element} (hsub : elements ⊆ rule.elements) :
    R (g.parseElements run elements) (g'.parseElements run' elements) := by
  induction elements with
  | nil => exact hR.pure []
  | cons element rest ih =>
    obtain ⟨hmem, hrest⟩ := List.cons_subset.1 hsub
    refine hR.bind (hR.parseElement_across hg hid hrule hrun hbound hsupplies hstarts hmem) fun nodes => ?_
    exact hR.bind (ih hrest) fun others => hR.pure (nodes ++ others)

/-- A rule relates to itself in another grammar when the rules that its elements are run with do. -/
theorem parseRule_across : R (g.parseElements run rule.elements >>= g.makeList rule.kind)
    (g'.parseElements run' rule.elements >>= g'.makeList rule.kind) := by
  have helements := hR.parseElements_across hg hid hrule hrun hbound hsupplies hstarts (List.Subset.refl _)
  refine hR.bind helements fun nodes => ?_
  rw [Grammar.makeList_congr (hsupplies.kind hid hrule)]
  exact hR.makeList (hg.kind hid hrule nodes)

end Across

/-- A rule relates to itself when the rules that its elements are run with do. -/
theorem parseRule : R (g.parseElements run rule.elements >>= g.makeList rule.kind)
    (g.parseElements run' rule.elements >>= g.makeList rule.kind) :=
  hR.parseRule_across hg hid hrule hrun hbound (.refl g Known) (hR.starts hg.toRefers)

end Element

theorem parseChoice {ids : List RuleId} (hknown : ∀ id ∈ ids, Known id)
    (hrun : ∀ id ∈ ids, R (run.parse id) (run'.parse id)) :
    R (g.parseChoice run none ids) (g.parseChoice run' none ids) :=
  hR.parseChoice_across (fun _ => rfl) (hR.starts hg.toRefers) (by simp) hknown hrun

theorem parseWithin {bound bound' depth depth' : Nat} (hbound : Fits R bound bound')
    (hdepth : Fits R depth depth') {id : RuleId} (hid : Known id) :
    R (g.parseWithin bound depth id) (g.parseWithin bound' depth' id) := by
  induction depth generalizing depth' id with
  | zero =>
    unfold Grammar.parseWithin
    refine hR.ofGrammar_bind (fun _ => hg.rule hid) fun rule _ => hR.zero hdepth fun hzero => ?_
    rw [hzero]
  | succ depth ih =>
    obtain ⟨depth', rfl, hless⟩ := hdepth.exists_of_succ
    unfold Grammar.parseWithin
    refine hR.ofGrammar_bind (fun _ => hg.rule hid) fun rule hrule => ?_
    exact hR.parseRule hg hid hrule (fun other hother => ih hless hother) hbound

theorem parseBounded {bound bound' : Nat} (hbound : Fits R bound bound') {id : RuleId} (hid : Known id) :
    R (g.parseBounded bound id) (g.parseBounded bound' id) :=
  hR.parseWithin hg hbound (hbound.depth g.size) hid

theorem parseUpTo {bound bound' limit limit' : Nat} (hbound : Fits R bound bound')
    (hlimit : Fits R limit limit') {id : RuleId} (hid : Known id) :
    R (g.parseUpTo bound id limit) (g.parseUpTo bound' id limit') := by
  induction limit generalizing limit' with
  | zero => exact hR.zero hlimit fun hzero => by rw [hzero]; rfl
  | succ limit ih =>
    obtain ⟨limit', rfl, hless⟩ := hlimit.exists_of_succ
    rw [g.parseUpTo_eq_round, g.parseUpTo_eq_round]
    exact hR.round (hR.parseBounded hg hbound hid) (ih hless)

end Parametric

end Kept

end ParseKit
