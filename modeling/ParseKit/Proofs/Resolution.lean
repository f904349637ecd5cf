import ParseKit.Factory

/-! Resolving builders. A registry remembers what it resolved, and a change of it forgets what the
change concerns. Whoever asks gets what the changes so far say, as if nothing were remembered: the
latest builder of the kind, else its latest constructor, else the fallback. Main statement:
`RegistryUser.resolution_recalls_registrations`. -/

namespace ParseKit

inductive Registration where
  /-- Tokens of the kind become leaves. -/
  | leaf (kind : NodeKind)
  /-- Lists of the kind may be built by `flattenOrWrap`. -/
  | default (kind : NodeKind)
  | tokenBuilder (kind : NodeKind) (build : Builder Token)
  | tokenConstructor (kind : NodeKind) (build : Builder Token)
  | listBuilder (kind : NodeKind) (build : Builder (List Node))
  | listConstructor (kind : NodeKind) (build : Builder (List Node))

namespace Registration

def apply : Registration → Registry → Registry
  | leaf kind, r => r.addLeaf kind
  | default kind, r => r.addDefault kind
  | tokenBuilder kind build, r => r.addTokenBuilder kind build
  | tokenConstructor kind build, r => r.addTokenConstructor kind build
  | listBuilder kind build, r => r.addListBuilder kind build
  | listConstructor kind build, r => r.addListConstructor kind build

def shape : Registration → Shape
  | leaf _ | tokenBuilder _ _ | tokenConstructor _ _ => .token
  | default _ | listBuilder _ _ | listConstructor _ _ => .list

def kind : Registration → NodeKind
  | leaf kind | default kind => kind
  | tokenBuilder kind _ | tokenConstructor kind _ => kind
  | listBuilder kind _ | listConstructor kind _ => kind

def tokenBuilder? (kind : NodeKind) : Registration → Option (Builder Token)
  | tokenBuilder other build => if kind = other then some build else none
  | _ => none

def tokenConstructor? (kind : NodeKind) : Registration → Option (Builder Token)
  | leaf other => if kind = other then some (.leaf other) else none
  | tokenConstructor other build => if kind = other then some build else none
  | _ => none

def listBuilder? (kind : NodeKind) : Registration → Option (Builder (List Node))
  | listBuilder other build => if kind = other then some build else none
  | _ => none

def listConstructor? (kind : NodeKind) : Registration → Option (Builder (List Node))
  | listConstructor other build => if kind = other then some build else none
  | _ => none

/-- Whether the change lets lists of a kind be built by `flattenOrWrap`. -/
def optsIn (kind : NodeKind) : Registration → Bool
  | default other => kind = other
  | _ => false

section Elsewhere

variable {registration : Registration} {kind : NodeKind}

/-- A change gives nothing to tokens of a kind unless it is about them. -/
theorem tokens_of_elsewhere (h : (.token, kind) ≠ (registration.shape, registration.kind)) :
    registration.tokenBuilder? kind = none ∧ registration.tokenConstructor? kind = none := by
  cases registration <;> simp_all [shape, Registration.kind, tokenBuilder?, tokenConstructor?]

theorem lists_of_elsewhere (h : (.list, kind) ≠ (registration.shape, registration.kind)) :
    registration.listBuilder? kind = none ∧ registration.listConstructor? kind = none ∧
      registration.optsIn kind = false := by
  cases registration <;> simp_all [shape, Registration.kind, listBuilder?, listConstructor?, optsIn]

end Elsewhere

end Registration

abbrev Registrations := List Registration

namespace Registrations

variable (history : Registrations) (kind : NodeKind)

def tokenBuilder? : Option (Builder Token) :=
  history.findSome? (·.tokenBuilder? kind)

/-- The latest constructor of tokens of a kind. Generic leaves have one from the start. -/
def tokenConstructor? : Option (Builder Token) :=
  history.findSome? (·.tokenConstructor? kind) <|> if kind = .leaf then some (.leaf .leaf) else none

def listBuilder? : Option (Builder (List Node)) :=
  history.findSome? (·.listBuilder? kind)

def listConstructor? : Option (Builder (List Node)) :=
  history.findSome? (·.listConstructor? kind)

/-- What lists fall back to that are generic or of a kind that opted in, however long ago. -/
def fallback? : Option (Builder (List Node)) :=
  if kind = .list ∨ history.any (·.optsIn kind) then some (.flattenOrWrap kind) else none

def factory {α : Type} (kind : NodeKind) (shape : Shape) : Option (Builder α) → Except GrammarError (Factory α)
  | some build => .ok ⟨kind, build⟩
  | none => .error (.missingFactory kind shape)

def token : Except GrammarError (Factory Token) :=
  factory kind .token (history.tokenBuilder? kind <|> history.tokenConstructor? kind)

def list : Except GrammarError (Factory (List Node)) :=
  factory kind .list
    (history.listBuilder? kind <|> history.listConstructor? kind <|> history.fallback? kind)

variable {history kind} {registration : Registration} (later : Registrations)

/-- What tokens are built by does not depend on a change that is not about them. -/
theorem token_of_elsewhere (h : (.token, kind) ≠ (registration.shape, registration.kind)) :
    token (later ++ registration :: history) kind = token (later ++ history) kind := by
  obtain ⟨hbuilder, hconstructor⟩ := Registration.tokens_of_elsewhere h
  simp [token, tokenBuilder?, tokenConstructor?, hbuilder, hconstructor]

theorem list_of_elsewhere (h : (.list, kind) ≠ (registration.shape, registration.kind)) :
    list (later ++ registration :: history) kind = list (later ++ history) kind := by
  obtain ⟨hbuilder, hconstructor, hopts⟩ := Registration.lists_of_elsewhere h
  simp [list, listBuilder?, listConstructor?, fallback?, hbuilder, hconstructor, hopts]

end Registrations

namespace Shelf

variable {α : Type} {shelf : Shelf α} {kind : NodeKind} {build : Builder α}
  {builder? constructor? fallback? builder?' constructor?' fallback?' : NodeKind → Option (Builder α)}

/-- The shelf holds the given builders and constructors, and what it remembers is what would be found
again. -/
structure Recalls (shelf : Shelf α) (builder? constructor? fallback? : NodeKind → Option (Builder α)) :
    Prop where
  builders : ∀ kind, shelf.builders.get? kind = builder? kind
  constructors : ∀ kind, shelf.constructors.get? kind = constructor? kind
  resolved : ∀ kind factory, shelf.resolved.get? kind = some factory →
    ∃ build, (builder? kind <|> constructor? kind <|> fallback? kind) = some build ∧ factory = ⟨kind, build⟩

namespace Recalls

variable (h : shelf.Recalls builder? constructor? fallback?)
include h

theorem registered? (kind : NodeKind) : shelf.registered? kind = (builder? kind <|> constructor? kind) := by
  rw [Shelf.registered?, h.builders, h.constructors]

/-- After a kind is forgotten, what is found for it may change. -/
theorem resolved_forget (hbuilder : ∀ other ≠ kind, builder?' other = builder? other)
    (hconstructor : ∀ other ≠ kind, constructor?' other = constructor? other)
    (hfallback : ∀ other ≠ kind, fallback?' other = fallback? other) (other : NodeKind) (factory : Factory α)
    (hfactory : (shelf.resolved.erase kind).get? other = some factory) :
    ∃ build, (builder?' other <|> constructor?' other <|> fallback?' other) = some build ∧
      factory = ⟨other, build⟩ := by
  by_cases hother : other = kind
  · rw [hother, Table.get?_erase_self] at hfactory
    cases hfactory
  · rw [Table.get?_erase_of_ne _ hother] at hfactory
    rw [hbuilder other hother, hconstructor other hother, hfallback other hother]
    exact h.resolved other factory hfactory

theorem addBuilder
    (hnew : ∀ other, builder?' other = if other = kind then some build else builder? other) :
    (shelf.addBuilder kind build).Recalls builder?' constructor? fallback? where
  builders other := by
    by_cases hother : other = kind
    · simp [Shelf.addBuilder, hnew, hother]
    · simp [Shelf.addBuilder, hnew, hother, Table.get?_insert_of_ne, h.builders]
  constructors := h.constructors
  resolved := h.resolved_forget (fun other hother => by rw [hnew, if_neg hother]) (fun _ _ => rfl)
    fun _ _ => rfl

theorem addConstructor
    (hnew : ∀ other, constructor?' other = if other = kind then some build else constructor? other) :
    (shelf.addConstructor kind build).Recalls builder? constructor?' fallback? where
  builders := h.builders
  constructors other := by
    by_cases hother : other = kind
    · simp [Shelf.addConstructor, hnew, hother]
    · simp [Shelf.addConstructor, hnew, hother, Table.get?_insert_of_ne, h.constructors]
  resolved := h.resolved_forget (fun _ _ => rfl) (fun other hother => by rw [hnew, if_neg hother])
    fun _ _ => rfl

theorem forget (hsame : ∀ other ≠ kind, fallback?' other = fallback? other) :
    (shelf.forget kind).Recalls builder? constructor? fallback?' where
  builders := h.builders
  constructors := h.constructors
  resolved := h.resolved_forget (fun _ _ => rfl) (fun _ _ => rfl) hsame

theorem remember (hbuild : (builder? kind <|> constructor? kind <|> fallback? kind) = some build) :
    (shelf.remember ⟨kind, build⟩).Recalls builder? constructor? fallback? where
  builders := h.builders
  constructors := h.constructors
  resolved other factory hfactory := by
    by_cases hother : other = kind
    · subst hother
      rw [Shelf.remember, Table.get?_insert_self] at hfactory
      exact ⟨build, hbuild, (Option.some.inj hfactory).symm⟩
    · rw [Shelf.remember, Table.get?_insert_of_ne _ _ hother] at hfactory
      exact h.resolved other factory hfactory

end Recalls

end Shelf

namespace Registry

/-- The registry is what the changes made of a new one, and it remembers nothing that has changed. -/
structure Recalls (registry : Registry) (history : Registrations) : Prop where
  tokens : registry.tokens.Recalls history.tokenBuilder? history.tokenConstructor? fun _ => none
  lists : registry.lists.Recalls history.listBuilder? history.listConstructor? history.fallback?
  defaults : ∀ kind, kind ∈ registry.defaults ↔ kind = .list ∨ history.any (·.optsIn kind)

theorem recalls_initial : initial.Recalls [] where
  tokens := {
    builders := fun kind => rfl
    constructors := fun kind => by
      by_cases hkind : kind = .leaf
      · subst hkind
        rfl
      · have hother : (initial.tokens.constructors).get? kind = none := by
          change ((∅ : Table NodeKind (Builder Token)).insert .leaf (.leaf .leaf)).get? kind = none
          rw [Table.get?_insert_of_ne _ _ hkind, Table.get?_empty]
        rw [hother]
        simp [Registrations.tokenConstructor?, hkind]
    resolved := fun kind factory hfactory => by cases hfactory }
  lists := {
    builders := fun kind => rfl
    constructors := fun kind => rfl
    resolved := fun kind factory hfactory => by cases hfactory }
  defaults kind := by simp [initial, addLeaf, addTokenConstructor, addDefault]

variable {registry : Registry} {history : Registrations}

theorem Recalls.apply (h : registry.Recalls history) (registration : Registration) :
    (registration.apply registry).Recalls (registration :: history) := by
  cases registration with
  | leaf kind =>
    refine ⟨h.tokens.addConstructor fun other => ?_, h.lists, h.defaults⟩
    by_cases hother : other = kind <;>
      simp [Registrations.tokenConstructor?, Registration.tokenConstructor?, hother]
  | tokenBuilder kind build =>
    refine ⟨h.tokens.addBuilder fun other => ?_, h.lists, h.defaults⟩
    by_cases hother : other = kind <;>
      simp [Registrations.tokenBuilder?, Registration.tokenBuilder?, hother]
  | tokenConstructor kind build =>
    refine ⟨h.tokens.addConstructor fun other => ?_, h.lists, h.defaults⟩
    by_cases hother : other = kind <;>
      simp [Registrations.tokenConstructor?, Registration.tokenConstructor?, hother]
  | listBuilder kind build =>
    refine ⟨h.tokens, h.lists.addBuilder fun other => ?_, h.defaults⟩
    by_cases hother : other = kind <;>
      simp [Registrations.listBuilder?, Registration.listBuilder?, hother]
  | listConstructor kind build =>
    refine ⟨h.tokens, h.lists.addConstructor fun other => ?_, h.defaults⟩
    by_cases hother : other = kind <;>
      simp [Registrations.listConstructor?, Registration.listConstructor?, hother]
  | default kind =>
    refine ⟨h.tokens, h.lists.forget fun other hother => ?_, fun other => ?_⟩
    · simp [Registrations.fallback?, Registration.optsIn, hother]
    · simp [Registration.apply, addDefault, Registration.optsIn, h.defaults, or_left_comm]

theorem Recalls.default? (h : registry.Recalls history) (kind : NodeKind) :
    registry.default? kind = history.fallback? kind := by
  simp only [Registry.default?, Registrations.fallback?, h.defaults]

/-- What is resolved for tokens is what the changes say, and remembering it is no change. -/
theorem Recalls.resolveToken (h : registry.Recalls history) (kind : NodeKind) :
    (registry.resolveToken kind).1 = history.token kind ∧ (registry.resolveToken kind).2.Recalls history := by
  have hregistered := h.tokens.registered? kind
  rw [Registry.resolveToken, Registrations.token, ← hregistered]
  cases hresolved : registry.tokens.resolved.get? kind with
  | some factory =>
    obtain ⟨build, hbuild, rfl⟩ := h.tokens.resolved kind factory hresolved
    have hsome : registry.tokens.registered? kind = some build := by
      simpa [hregistered] using hbuild
    exact ⟨by rw [hsome]; rfl, h⟩
  | none =>
    cases hbuild : registry.tokens.registered? kind with
    | none => exact ⟨rfl, h⟩
    | some build =>
      refine ⟨rfl, h.tokens.remember ?_, h.lists, h.defaults⟩
      simp [← hregistered, hbuild]

theorem Recalls.resolveList (h : registry.Recalls history) (kind : NodeKind) :
    (registry.resolveList kind).1 = history.list kind ∧ (registry.resolveList kind).2.Recalls history := by
  have hfound : (registry.lists.registered? kind <|> registry.default? kind) =
      (history.listBuilder? kind <|> history.listConstructor? kind <|> history.fallback? kind) := by
    rw [h.lists.registered?, h.default?]
    simp [Option.or_assoc]
  rw [Registry.resolveList, Registrations.list, ← hfound]
  cases hresolved : registry.lists.resolved.get? kind with
  | some factory =>
    obtain ⟨build, hbuild, rfl⟩ := h.lists.resolved kind factory hresolved
    exact ⟨by rw [hfound, hbuild]; rfl, h⟩
  | none =>
    cases hbuild : (registry.lists.registered? kind <|> registry.default? kind) with
    | none => exact ⟨rfl, h⟩
    | some build => exact ⟨rfl, h.tokens, h.lists.remember (hfound.symm.trans hbuild), h.defaults⟩

end Registry

/-- What is asked of a registry and of the factories that it gave. The latter are numbered from zero
in the order in which they were resolved, those for tokens and those for lists apart. -/
inductive RegistryCall where
  | register (registration : Registration)
  | resolve (shape : Shape) (kind : NodeKind)
  | makeToken (index : Nat) (token : Token)
  | makeList (index : Nat) (children : List Node)

inductive RegistryReply where
  | registered
  | token (result : Except GrammarError (Factory Token))
  | list (result : Except GrammarError (Factory (List Node)))
  /-- There is no node if no factory has the number. -/
  | node (result? : Option (Except ParseError Node))

def RegistryReply.isMissing : RegistryReply → Bool
  | token (.error _) | list (.error _) => true
  | _ => false

def RegistryCall.registrations (calls : List RegistryCall) : Registrations :=
  (calls.filterMap fun
    | register registration => some registration
    | _ => none).reverse

theorem RegistryCall.registrations_register (registration : Registration) (calls : List RegistryCall) :
    registrations (.register registration :: calls) = registrations calls ++ [registration] := by
  simp [registrations]

theorem RegistryCall.registrations_append (calls more : List RegistryCall) :
    registrations (calls ++ more) = registrations more ++ registrations calls := by
  simp [registrations]

def Registrations.reply (history : Registrations) : Shape → NodeKind → RegistryReply
  | .token, kind => .token (history.token kind)
  | .list, kind => .list (history.list kind)

theorem Registrations.reply_of_elsewhere {registration : Registration} {shape : Shape} {kind : NodeKind}
    (h : (shape, kind) ≠ (registration.shape, registration.kind)) (later history : Registrations) :
    reply (later ++ registration :: history) shape kind = reply (later ++ history) shape kind := by
  cases shape with
  | token => exact congrArg RegistryReply.token (token_of_elsewhere later h)
  | list => exact congrArg RegistryReply.list (list_of_elsewhere later h)

structure RegistryUser where
  registry : Registry := .initial
  tokens : List (Factory Token) := []
  lists : List (Factory (List Node)) := []

namespace RegistryUser

def serve (user : RegistryUser) : RegistryCall → RegistryReply × RegistryUser
  | .register registration => (.registered, { user with registry := registration.apply user.registry })
  | .resolve .token kind =>
    let (result, registry) := user.registry.resolveToken kind
    (.token result, { user with registry := registry, tokens := user.tokens ++ result.toOption.toList })
  | .resolve .list kind =>
    let (result, registry) := user.registry.resolveList kind
    (.list result, { user with registry := registry, lists := user.lists ++ result.toOption.toList })
  | .makeToken index token => (.node (user.tokens[index]?.map (·.ofToken token)), user)
  | .makeList index children => (.node (user.lists[index]?.map (·.ofChildren children)), user)

def run (user : RegistryUser) (calls : List RegistryCall) : RegistryUser :=
  calls.foldl (fun user call => (user.serve call).2) user

/-- The reply to a call on a new registry after some others. -/
def reply (earlier : List RegistryCall) (call : RegistryCall) : RegistryReply :=
  ((({} : RegistryUser).run earlier).serve call).1

variable {user : RegistryUser} {history : Registrations}

@[simp] theorem run_append (calls more : List RegistryCall) :
    user.run (calls ++ more) = (user.run calls).run more :=
  List.foldl_append

@[simp] theorem run_cons (call : RegistryCall) (calls : List RegistryCall) :
    user.run (call :: calls) = (user.serve call).2.run calls := rfl

theorem recalls_serve (h : user.registry.Recalls history) (call : RegistryCall) :
    (user.serve call).2.registry.Recalls (RegistryCall.registrations [call] ++ history) := by
  cases call with
  | register registration => exact h.apply registration
  | resolve shape kind =>
    cases shape with
    | token => exact (h.resolveToken kind).2
    | list => exact (h.resolveList kind).2
  | makeToken | makeList => exact h

theorem recalls_run (h : user.registry.Recalls history) (calls : List RegistryCall) :
    (user.run calls).registry.Recalls (RegistryCall.registrations calls ++ history) := by
  induction calls generalizing user history with
  | nil => exact h
  | cons call calls ih =>
    have hrun := ih (recalls_serve h call)
    rwa [← List.append_assoc, ← RegistryCall.registrations_append] at hrun

theorem serve_resolve (h : user.registry.Recalls history) (shape : Shape) (kind : NodeKind) :
    (user.serve (.resolve shape kind)).1 = history.reply shape kind := by
  cases shape with
  | token => exact congrArg RegistryReply.token (h.resolveToken kind).1
  | list => exact congrArg RegistryReply.list (h.resolveList kind).1

/-- What is resolved after some calls on a new registry is what their changes say. -/
theorem reply_resolve (earlier : List RegistryCall) (shape : Shape) (kind : NodeKind) :
    reply earlier (.resolve shape kind) = (RegistryCall.registrations earlier).reply shape kind := by
  have hnew : ({} : RegistryUser).registry.Recalls [] := Registry.recalls_initial
  have hrecalls := recalls_run hnew earlier
  rw [List.append_nil] at hrecalls
  exact serve_resolve hrecalls shape kind

theorem serve_of_isMissing {call : RegistryCall} (h : (user.serve call).1.isMissing = true) :
    (user.serve call).2 = user := by
  cases call with
  | register | makeToken | makeList => cases h
  | resolve shape kind =>
    cases shape with
    | token =>
      rw [serve, Registry.resolveToken] at h ⊢
      cases hresolved : user.registry.tokens.resolved.get? kind with
      | some factory => simp [hresolved, RegistryReply.isMissing] at h
      | none =>
        cases hregistered : user.registry.tokens.registered? kind with
        | some build => simp [hresolved, hregistered, RegistryReply.isMissing] at h
        | none => simp [Except.toOption]
    | list =>
      rw [serve, Registry.resolveList] at h ⊢
      cases hresolved : user.registry.lists.resolved.get? kind with
      | some factory => simp [hresolved, RegistryReply.isMissing] at h
      | none =>
        cases hregistered : (user.registry.lists.registered? kind <|> user.registry.default? kind) with
        | some build => simp [hresolved, hregistered, RegistryReply.isMissing] at h
        | none => simp [Except.toOption]

theorem prefix_serve (user : RegistryUser) (call : RegistryCall) :
    user.tokens <+: (user.serve call).2.tokens ∧ user.lists <+: (user.serve call).2.lists := by
  cases call with
  | register | makeToken | makeList => exact ⟨List.prefix_rfl, List.prefix_rfl⟩
  | resolve shape kind =>
    cases shape with
    | token => exact ⟨List.prefix_append _ _, List.prefix_rfl⟩
    | list => exact ⟨List.prefix_rfl, List.prefix_append _ _⟩

theorem prefix_run (user : RegistryUser) (calls : List RegistryCall) :
    user.tokens <+: (user.run calls).tokens ∧ user.lists <+: (user.run calls).lists := by
  induction calls generalizing user with
  | nil => exact ⟨List.prefix_rfl, List.prefix_rfl⟩
  | cons call calls ih =>
    obtain ⟨htokens, hlists⟩ := prefix_serve user call
    obtain ⟨htokens', hlists'⟩ := ih (user.serve call).2
    exact ⟨htokens.trans htokens', hlists.trans hlists'⟩

/-- A factory that was resolved builds what it built, whatever is called after that. -/
theorem serve_makeToken {kind : NodeKind} {factory : Factory Token}
    (h : (user.serve (.resolve .token kind)).1 = .token (.ok factory)) (later : List RegistryCall) (token : Token) :
    ((user.run (.resolve .token kind :: later)).serve (.makeToken user.tokens.length token)).1 =
      .node (some (factory.ofToken token)) := by
  have hheld : (user.serve (.resolve .token kind)).2.tokens = user.tokens ++ [factory] := by
    have hresult : (user.registry.resolveToken kind).1 = .ok factory := RegistryReply.token.inj h
    simp [serve, hresult, Except.toOption]
  obtain ⟨more, hmore⟩ := (prefix_run (user.serve (.resolve .token kind)).2 later).1
  have hget : (user.run (.resolve .token kind :: later)).tokens[user.tokens.length]? = some factory := by
    rw [run_cons, ← hmore, hheld]
    simp
  rw [serve, hget]
  rfl

theorem serve_makeList {kind : NodeKind} {factory : Factory (List Node)}
    (h : (user.serve (.resolve .list kind)).1 = .list (.ok factory)) (later : List RegistryCall)
    (children : List Node) :
    ((user.run (.resolve .list kind :: later)).serve (.makeList user.lists.length children)).1 =
      .node (some (factory.ofChildren children)) := by
  have hheld : (user.serve (.resolve .list kind)).2.lists = user.lists ++ [factory] := by
    have hresult : (user.registry.resolveList kind).1 = .ok factory := RegistryReply.list.inj h
    simp [serve, hresult, Except.toOption]
  obtain ⟨more, hmore⟩ := (prefix_run (user.serve (.resolve .list kind)).2 later).2
  have hget : (user.run (.resolve .list kind :: later)).lists[user.lists.length]? = some factory := by
    rw [run_cons, ← hmore, hheld]
    simp
  rw [serve, hget]
  rfl

/-- Whatever was registered, resolved and built on a new registry, in whatever order: resolving a kind
gives what the changes so far say; a call that finds nothing changes no later reply; a change changes
no later resolution of another kind or shape; and a factory that was resolved builds what it built. -/
theorem resolution_recalls_registrations (earlier : List RegistryCall) :
    (∀ shape kind, reply earlier (.resolve shape kind) =
      (RegistryCall.registrations earlier).reply shape kind) ∧
    (∀ missing later call, (reply earlier missing).isMissing = true →
      reply (earlier ++ missing :: later) call = reply (earlier ++ later) call) ∧
    (∀ registration later shape kind, (shape, kind) ≠ (registration.shape, registration.kind) →
      reply (earlier ++ .register registration :: later) (.resolve shape kind) =
        reply (earlier ++ later) (.resolve shape kind)) ∧
    (∀ kind factory later token, reply earlier (.resolve .token kind) = .token (.ok factory) →
      reply (earlier ++ .resolve .token kind :: later)
        (.makeToken (({} : RegistryUser).run earlier).tokens.length token) =
          .node (some (factory.ofToken token))) ∧
    (∀ kind factory later children, reply earlier (.resolve .list kind) = .list (.ok factory) →
      reply (earlier ++ .resolve .list kind :: later)
        (.makeList (({} : RegistryUser).run earlier).lists.length children) =
          .node (some (factory.ofChildren children))) := by
  refine ⟨reply_resolve earlier, fun missing later call hmissing => ?_,
    fun registration later shape kind helsewhere => ?_, fun kind factory later token hfactory => ?_,
    fun kind factory later children hfactory => ?_⟩
  · rw [reply, run_append, run_cons, serve_of_isMissing hmissing, ← run_append]
    rfl
  · rw [reply_resolve, reply_resolve, RegistryCall.registrations_append, RegistryCall.registrations_append,
      RegistryCall.registrations_register, List.append_assoc]
    exact Registrations.reply_of_elsewhere helsewhere _ _
  · rw [reply, run_append]
    exact serve_makeToken hfactory later token
  · rw [reply, run_append]
    exact serve_makeList hfactory later children

/-- Pairs that were built by the fallback get a constructor, and another builder when a factory for
them is out already. Tokens of the kind are never known. -/
theorem resolution_recalls_registrations_pairs :
    let pair : NodeKind := ⟨"pair"⟩
    let earlier : List RegistryCall :=
      [.register (.default pair), .resolve .list pair, .register (.listConstructor pair (.wrap pair))]
    let late : RegistryCall := .register (.listBuilder pair fun _ => .error (.failed "late"))
    reply earlier (.resolve .list pair) = .list (.ok ⟨pair, .wrap pair⟩) ∧
      (reply earlier (.resolve .token pair)).isMissing = true ∧
      reply (earlier ++ .resolve .token pair :: [late]) (.resolve .list pair) =
        reply (earlier ++ [late]) (.resolve .list pair) ∧
      (Shape.token, pair) ≠ (.list, pair) ∧
      reply (earlier ++ late :: []) (.resolve .token pair) = reply (earlier ++ []) (.resolve .token pair) ∧
      reply (earlier ++ .resolve .list pair :: [late]) (.makeList 1 []) =
        .node (some (.ok (.list pair []))) := by
  intro pair earlier late
  obtain ⟨hreply, hmissing, helsewhere, -, hheld⟩ := resolution_recalls_registrations earlier
  have hpair : reply earlier (.resolve .list pair) = .list (.ok ⟨pair, .wrap pair⟩) := hreply .list pair
  have htoken : (reply earlier (.resolve .token pair)).isMissing = true := by
    rw [hreply]
    rfl
  have hshapes : (Shape.token, pair) ≠ (.list, pair) := by simp
  exact ⟨hpair, htoken, hmissing _ [late] _ htoken, hshapes, helsewhere _ [] _ _ hshapes,
    hheld pair _ [late] [] hpair⟩

end RegistryUser

end ParseKit
