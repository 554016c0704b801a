import DelegatedFetch.Proofs.Fetch.Carried
import DelegatedFetch.Proofs.Fetch.Direct
import DelegatedFetch.Proofs.Fetch.Sent
import DelegatedFetch.Proofs.Sealing.State

/-!
# Calls that follow each other

Calls of any viewers follow each other over one store, which has no token at
first. Between two calls all else may change: the time, the random bytes, the
cache, what is declared, what providers answer. A caller brings no state, or a
state that any call before has told to anyone, or a text that is no sealed
state.

All along, a token in the store was granted to a call of the viewer it is kept
for, and a token in a sealed state was granted to a call of the owner of that
state. So the tokens of one viewer are not used for another, whoever brings
which state. A caller may still write any token into a header of its own, which
is sent as it is where the parameters go elsewhere.
-/

namespace DelegatedFetch

open Call

/-- Whoever a state is bound to, it has the same access token. -/
theorem ClientState.accessInfo?_owner (state : ClientState) (owner : Option String) :
    ({ state with owner } : ClientState).accessInfo? = state.accessInfo? := rfl

theorem ClientState.clearAccessToken_owner (state : ClientState) (owner : Option String) :
    ({ state with owner } : ClientState).clearAccessToken =
      { state.clearAccessToken with owner } := rfl

/-- What a report tells under a key. -/
def Report.tells? (r : Report) (key : String) : Option String :=
  if key = stateKey then r.clientState
  else if key = approvalKey then r.approvalUrl
  else if key = errorKey then r.error.map (·.code)
  else if key = errorTextKey then r.errorText
  else none

theorem find?_foldl_insert (name key : String) (value : Option String) (t : Table String String) :
    ((value.map fun v => (name, v)).toList.foldl (fun t (k, v) => t.insert k v) t).find? key =
      if key = name then value.or (t.find? key) else t.find? key := by
  cases value with
  | none => exact (ite_self _).symm
  | some v => exact t.find?_insert name key v

/-- A report is told under its keys, in place of what was there, and leaves all else as it was. -/
theorem Report.find?_attach (r : Report) (response : Response) (key : String) :
    (r.attach response).metadata.find? key =
      (r.tells? key).or (response.metadata.find? key) := by
  have code : (r.error.map fun e => (errorKey, e.code)) =
      (r.error.map (·.code)).map fun code => (errorKey, code) := by rw [Option.map_map]; rfl
  rw [attach, metadata, code, List.foldl_append, List.foldl_append, List.foldl_append,
    find?_foldl_insert, find?_foldl_insert, find?_foldl_insert, find?_foldl_insert, tells?]
  have names : [stateKey, approvalKey, errorKey, errorTextKey].Nodup := by decide
  by_cases state : key = stateKey
  · subst state
    simp only [List.nodup_cons, List.mem_cons, not_or] at names
    simp [names]
  by_cases approval : key = approvalKey
  · subst approval
    simp only [List.nodup_cons, List.mem_cons, not_or] at names
    simp [names, state]
  by_cases error : key = errorKey
  · subst error
    simp only [List.nodup_cons, List.mem_cons, not_or] at names
    simp [names, state, approval]
  · simp only [state, approval, error, if_false]
    split
    · rfl
    · rfl

/-- A report that has a state tells that one, and leaves what was there if it has none. -/
theorem Report.find?_stateKey (r : Report) (response : Response) :
    (r.attach response).metadata.find? stateKey =
      r.clientState.or (response.metadata.find? stateKey) :=
  r.find?_attach response stateKey

/-- Next to nothing, a report tells what it tells. -/
theorem Report.find?_toResponse (r : Report) (key : String) :
    r.toResponse.metadata.find? key = r.tells? key := by
  rw [toResponse, r.find?_attach, Table.find?_empty, Option.or_none]

/-- A call, and what it finds when it begins. -/
structure Visit where
  call : Call
  start : Surroundings

theorem exists_of_isOk {ε α : Type} {x : Except ε α} (h : x.isOk = true) : ∃ a, x = .ok a := by
  cases x with
  | error e => cases h
  | ok a => exact ⟨a, rfl⟩

namespace Visit

/-- Who makes the call. -/
def viewer (v : Visit) : Option String := v.call.token.viewer

/-- What the call leaves when it ends. -/
def final (v : Visit) : Progress := (v.call.fetch v.start).2

/-- The sealed state that the caller is told, if there is any. A call that fails tells nothing. -/
def toldState? (v : Visit) : Option String :=
  match v.call.run (v.call.begun v.start) with
  | (.error (.failed _), _) => none
  | (_, p) => (v.call.sealedState p).1

/-- The resource as the call has got it, before anything is told with it; none while approval is
pending, and none if the call is stopped. -/
def resource? (v : Visit) : Option Response :=
  match (v.call.run (v.call.begun v.start)).1 with
  | .ok bare? => bare?
  | .error _ => none

/-- The state is told under its key, where the resource may have brought metadata of its own. -/
theorem find?_stateKey (v : Visit) {response : Response}
    (answered : (v.call.fetch v.start).1 = .ok response) :
    response.metadata.find? Report.stateKey =
      v.toldState?.or (v.resource?.bind (·.metadata.find? Report.stateKey)) := by
  rw [fetch] at answered
  rw [toldState?, resource?]
  generalize v.call.run (v.call.begun v.start) = ran at answered ⊢
  rcases ran with ⟨(r | f) | bare?, p⟩
  · rw [← Except.ok.inj answered]
    exact Report.find?_stateKey _ _
  · cases answered
  · rw [← Except.ok.inj answered]
    cases bare? with
    | none => exact Report.find?_stateKey _ _
    | some bare => exact Report.find?_stateKey _ _

/-- What is told is the state at the end of the call, sealed; a call that fails tells nothing. -/
theorem toldState?_eq (v : Visit) :
    (∃ f, (v.call.fetch v.start).1 = .error f) ∧ v.toldState? = none ∨
    ∃ entropy, v.toldState? = ((v.call.outgoingState v.final.state).encode v.call.policy.crypter
      v.final.clock.millis entropy).1 := by
  obtain ⟨entropy, left⟩ := v.call.fetch_progress v.start
  rw [final, left, toldState?, fetch]
  rcases v.call.run (v.call.begun v.start) with ⟨(r | f) | bare, p⟩
  · exact .inr ⟨p.entropy, rfl⟩
  · exact .inl ⟨⟨f, rfl⟩, rfl⟩
  · exact .inr ⟨p.entropy, rfl⟩

/-- The state that is told, as it is read at some time. -/
def told (v : Visit) (now : UInt64) : ClientState :=
  .decode v.call.policy.crypter v.toldState? v.call.policy.stateMaxAge now

/-- The state at the end of a call is told, unless it is read too late or the call has failed. -/
theorem told_cases (v : Visit) (now : UInt64) :
    v.told now = v.call.outgoingState v.final.state ∨ v.told now = .empty := by
  rcases v.toldState?_eq with ⟨-, untold⟩ | ⟨entropy, told⟩
  · rw [Visit.told, untold]
    exact .inr rfl
  · rw [Visit.told, told, ClientState.decode_encode_age]
    split
    · exact .inl rfl
    · exact .inr rfl

/-- A call that is answered tells its state, for as long as a state is good. -/
theorem told_of_answered {v : Visit} {response : Response}
    (answered : (v.call.fetch v.start).1 = .ok response) {now : UInt64}
    (young : now.toNat - v.final.clock.millis.toNat ≤ v.call.policy.stateMaxAge) :
    v.told now = v.call.outgoingState v.final.state := by
  rcases v.toldState?_eq with ⟨⟨f, failed⟩, -⟩ | ⟨entropy, told⟩
  · rw [answered] at failed
    cases failed
  · rw [Visit.told, told, ClientState.decode_encode_age, if_pos young]

theorem clearAccessToken_told {v : Visit} (cleared : v.final.state.clearAccessToken = v.final.state)
    (now : UInt64) : (v.told now).clearAccessToken = v.told now := by
  rcases v.told_cases now with same | blank
  · rw [same, outgoingState]
    split
    · rfl
    · rw [ClientState.clearAccessToken_owner, cleared]
  · rw [blank]
    rfl

/-- A state that has an access token is told with it. -/
theorem accessInfo?_outgoingState {v : Visit} {state : ClientState} {info : TokenInfo}
    (held : state.accessInfo? = some info) :
    (v.call.outgoingState state).accessInfo? = some info := by
  rw [outgoingState, if_neg]
  · exact held
  · intro blank
    rw [Bool.and_eq_true, Option.isNone_iff_eq_none, Option.isNone_iff_eq_none] at blank
    rw [ClientState.accessInfo?, blank.2] at held
    cases held

theorem traced (v : Visit) :
    Traced v.call v.start v.final.store v.final.state v.final.sent := by
  rw [final]
  exact v.call.invariant_fetch v.start

end Visit

/-- What a caller may bring: nothing, a state that some caller was told, or a text that does not
open. -/
inductive Brought (crypter : Crypter) (visits : List Visit) : Option String → Prop
  | nothing : Brought crypter visits none
  | told {v : Visit} {blob : String} (mem : v ∈ visits) (told : v.toldState? = some blob) :
      Brought crypter visits (some blob)
  | foreign {blob : String} {e : SealError} (closed : crypter.openBlob blob = .error e) :
      Brought crypter visits (some blob)

/-- Calls that follow each other under one policy, and the store after them. -/
inductive Session (policy : FetchPolicy) : List Visit → Store → Prop
  | start {store : Store} (blank : store.tokens = .empty) : Session policy [] store
  | visit {visits : List Visit} {v : Visit} (before : Session policy visits v.start.store)
      (common : v.call.policy = policy)
      (brought : Brought policy.crypter visits v.call.args.clientState) :
      Session policy (visits ++ [v]) v.final.store

/-- An exchange for an access token was answered with that token. -/
def Exchange.GrantsAccess (e : Exchange) (token : String) : Prop :=
  (e.purpose = .accessToken ∨ e.purpose = .extension) ∧ ∃ secret, e.Grants token secret

/-- A token was granted to a call of the viewer. -/
def Issued (visits : List Visit) (viewer : Option String) (token : String) : Prop :=
  ∃ v ∈ visits, v.viewer = viewer ∧ ∃ e ∈ v.final.sent, e.GrantsAccess token

theorem Issued.append {visits : List Visit} {viewer : Option String} {token : String}
    (h : Issued visits viewer token) (later : List Visit) :
    Issued (visits ++ later) viewer token := by
  obtain ⟨v, mem, rest⟩ := h
  exact ⟨v, List.mem_append_left _ mem, rest⟩

theorem Issued.last {visits : List Visit} {v : Visit} {token : String} {e : Exchange}
    (mem : e ∈ v.final.sent) (grants : e.GrantsAccess token) :
    Issued (visits ++ [v]) v.viewer token :=
  ⟨v, List.mem_append_right _ List.mem_cons_self, rfl, e, mem, grants⟩

/-- Tokens in the store and in sealed states were granted to the viewers that they belong to. -/
structure Isolated (crypter : Crypter) (visits : List Visit) (store : Store) : Prop where
  stored : ∀ key info, store.tokens.find? key = some info →
    Issued visits (some key.viewer) info.token
  told : ∀ v ∈ visits, ∀ blob, v.toldState? = some blob → ∀ maxAge now info,
    (ClientState.decode crypter (some blob) maxAge now).accessInfo? = some info →
      Issued visits (ClientState.decode crypter (some blob) maxAge now).owner info.token

variable {policy : FetchPolicy} {visits : List Visit} {v : Visit} {store : Store}

theorem isolated_start {crypter : Crypter} (blank : store.tokens = .empty) :
    Isolated crypter [] store where
  stored key info held := by
    rw [blank, Table.find?_empty] at held
    cases held
  told _ mem := absurd mem List.not_mem_nil

/-- A state that is taken in belongs to the caller, unless it is empty. -/
theorem Call.incomingState_cases (c : Call) (now : UInt64) : c.incomingState now = .empty ∨
    c.incomingState now =
        ClientState.decode c.policy.crypter c.args.clientState c.policy.stateMaxAge now ∧
      (c.incomingState now).owner = c.token.viewer := by
  unfold incomingState
  simp only
  split
  · exact .inl rfl
  · rename_i own
    rw [not_and_or, not_not, not_not] at own
    rcases own with blank | owner
    · exact .inl blank
    · exact .inr ⟨rfl, owner⟩

/-- The access token that a caller brings was granted to a call of the same viewer. -/
theorem issued_of_brought (isolated : Isolated policy.crypter visits store)
    (common : v.call.policy = policy)
    (brought : Brought policy.crypter visits v.call.args.clientState) {now : UInt64}
    {info : TokenInfo} (held : (v.call.incomingState now).accessInfo? = some info) :
    Issued visits v.viewer info.token := by
  rcases v.call.incomingState_cases now with blank | ⟨decoded, owner⟩
  · rw [blank] at held
    cases held
  rw [common] at decoded
  rw [Visit.viewer, ← owner]
  rw [decoded] at held ⊢
  generalize v.call.args.clientState = state at brought held ⊢
  cases brought with
  | nothing => cases held
  | told mem told => exact isolated.told _ mem _ told _ _ _ held
  | foreign closed =>
    rw [ClientState.decode_of_openBlob_error closed] at held
    cases held

/-- An access token that a call may bind was granted to a call of the same viewer before, or by an
exchange of this call so far. -/
theorem issued_of_known (isolated : Isolated policy.crypter visits v.start.store)
    (common : v.call.policy = policy)
    (brought : Brought policy.crypter visits v.call.args.clientState) {sent : List Exchange}
    {info : TokenInfo} {source : TokenSource}
    (known : Known v.call v.start sent (.access info source)) :
    Issued visits v.viewer info.token ∨ ∃ e ∈ sent, e.GrantsAccess info.token := by
  cases known with
  | stored held =>
    obtain ⟨key, own, held⟩ := Store.token?_eq_ok held
    rw [Visit.viewer, ← TokenKey.viewer_of own]
    exact .inl (isolated.stored key info held)
  | carriedAccess held => exact .inl (issued_of_brought isolated common brought held)
  | grantedAccess mem purpose grants => exact .inr ⟨_, mem, purpose, _, grants⟩

/-- What was granted by the end of a visit was granted to some visit so far. -/
theorem issued_last {token : String}
    (h : Issued visits v.viewer token ∨ ∃ e ∈ v.final.sent, e.GrantsAccess token) :
    Issued (visits ++ [v]) v.viewer token := by
  rcases h with earlier | ⟨e, mem, grants⟩
  · exact earlier.append [v]
  · exact .last mem grants

/-- A state that is told is the state of the call, and belongs to the caller. -/
theorem Call.outgoingState_cases (c : Call) (s : ClientState) : c.outgoingState s = .empty ∨
    c.outgoingState s = { s with owner := c.token.viewer } := by
  rw [outgoingState]
  split
  · exact .inl rfl
  · exact .inr rfl

/-- There is nothing to take along in a state without tokens, and only then. -/
theorem Call.outgoingState_eq_empty_iff (c : Call) (state : ClientState) :
    c.outgoingState state = .empty ↔ state.requestToken = none ∧ state.accessToken = none := by
  rw [outgoingState, ← Option.isNone_iff_eq_none, ← Option.isNone_iff_eq_none, ← Bool.and_eq_true]
  split
  · rename_i blank
    exact ⟨fun _ => blank, fun _ => rfl⟩
  · rename_i filled
    refine ⟨fun same => ?_, fun blank => absurd blank filled⟩
    have request : state.requestToken = none := congrArg ClientState.requestToken same
    have access : state.accessToken = none := congrArg ClientState.accessToken same
    rw [request, access]
    rfl

/-- A caller that brings in time what it was told brings the state of that call. -/
theorem incomingState_of_told {u : Visit} {response : Response} {now : UInt64}
    (answered : (u.call.fetch u.start).1 = .ok response) (common : v.call.policy = u.call.policy)
    (same : v.viewer = u.viewer) (brings : v.call.args.clientState = u.toldState?)
    (young : now.toNat - u.final.clock.millis.toNat ≤ u.call.policy.stateMaxAge) :
    v.call.incomingState now = u.call.outgoingState u.final.state := by
  have read := u.told_of_answered answered young
  rw [Visit.told, ← brings, ← common] at read
  rw [incomingState, read]
  split
  · rename_i foreign
    rcases u.call.outgoingState_cases u.final.state with blank | bound
    · exact blank.symm
    · rw [bound] at foreign
      exact absurd same.symm foreign.2
  · rfl

/-- What a caller takes along: the state at the end of the call, bound to its viewer. -/
def Visit.carried (v : Visit) : ClientState := { v.final.state with owner := v.viewer }

/-- A state that is told has a token, and was sealed when the call ended. -/
theorem Visit.sealed_of_told {blob : String} (told : v.toldState? = some blob) :
    (v.carried.requestToken ≠ none ∨ v.carried.accessToken ≠ none) ∧
      ∃ entropy, (v.carried.encode v.call.policy.crypter v.final.clock.millis entropy).1 =
        some blob := by
  rcases v.toldState?_eq with ⟨-, untold⟩ | ⟨entropy, made⟩
  · cases untold.symm.trans told
  rw [told] at made
  have filled : v.call.outgoingState v.final.state ≠ .empty := by
    intro blank
    rw [(ClientState.encode_eq_none_iff _ _ _ _).2 blank] at made
    cases made
  have bound : v.call.outgoingState v.final.state = v.carried :=
    (v.call.outgoingState_cases v.final.state).resolve_left filled
  rw [Ne, outgoingState_eq_empty_iff, not_and_or] at filled
  rw [← bound]
  refine ⟨?_, entropy, made.symm⟩
  rw [bound, carried]
  dsimp only
  exact filled

/-- What a call has told opens to the state at its end, until that is too old. -/
theorem Visit.decode_of_told {blob : String} (told : v.toldState? = some blob) (maxAge : Nat) (now : UInt64) :
    ClientState.decode v.call.policy.crypter (some blob) maxAge now =
      if now.toNat - v.final.clock.millis.toNat ≤ maxAge then v.carried else .empty := by
  obtain ⟨-, entropy, made⟩ := sealed_of_told told
  rw [← made, ClientState.decode_encode_age]

/-- A state that a visit tells is the state at its end, bound to its viewer, or it counts as none. -/
theorem decode_toldState? {blob : String} (common : v.call.policy = policy)
    (told : v.toldState? = some blob) (maxAge : Nat) (now : UInt64) :
    ClientState.decode policy.crypter (some blob) maxAge now = .empty ∨
      ClientState.decode policy.crypter (some blob) maxAge now =
        { v.final.state with owner := v.viewer } := by
  rw [← common, Visit.decode_of_told told]
  split
  · exact .inr rfl
  · exact .inl rfl

theorem Isolated.visit (isolated : Isolated policy.crypter visits v.start.store)
    (common : v.call.policy = policy)
    (brought : Brought policy.crypter visits v.call.args.clientState) :
    Isolated policy.crypter (visits ++ [v]) v.final.store where
  stored key info held := by
    by_cases own : TokenKey.of v.call.token v.call.args.service v.call.args.tokenName = .ok key
    · have found : v.final.store.token? v.call.token v.call.args.service v.call.args.tokenName =
          .ok (some info) := by
        rw [Store.token?, own, ← held]
        rfl
      rw [TokenKey.viewer_of own]
      exact issued_last (issued_of_known isolated common brought (v.traced.stored info found))
    · rw [v.traced.others key own] at held
      exact (isolated.stored key info held).append [v]
  told u mem blob told maxAge now info held := by
    rcases List.mem_append.1 mem with earlier | last
    · exact (isolated.told u earlier blob told maxAge now info held).append [v]
    · obtain rfl := List.mem_singleton.1 last
      rcases decode_toldState? common told maxAge now with blank | same
      · rw [blank] at held
        cases held
      · rw [same, ClientState.accessInfo?_owner] at held
        rw [same]
        exact issued_last (issued_of_known isolated common brought (u.traced.carriedAccess info held))

/-- All along a session, tokens belong to the viewers that they were granted to. -/
theorem Session.isolated (session : Session policy visits store) :
    Isolated policy.crypter visits store := by
  induction session with
  | start blank => exact isolated_start blank
  | visit before common brought ih => exact ih.visit common brought

/-- What holds of a session when one of its visits begins. -/
theorem Session.at_visit {later : List Visit} (session : Session policy (visits ++ v :: later) store) :
    Isolated policy.crypter visits v.start.store ∧ v.call.policy = policy ∧
      Brought policy.crypter visits v.call.args.clientState := by
  generalize all : visits ++ v :: later = whole at session
  induction session generalizing later with
  | start => simp at all
  | @visit earlier u before common brought ih =>
    rcases split_snoc all.symm with ⟨rfl, rfl, -⟩ | ⟨init, -, among⟩
    · exact ⟨before.isolated, common, brought⟩
    · exact ih among.symm

/-- In a session, what a request for a resource is signed with was granted to the viewer who makes
the call: to a call before this one, or by an exchange of this call before the request. -/
theorem Session.granted_of_carries {later : List Visit} {before after : List Exchange} {e : Exchange}
    {token : String} (session : Session policy (visits ++ v :: later) store)
    (sent : v.final.sent = before ++ e :: after) (resource : e.purpose = .resource)
    (carries : v.call.Carries e token) :
    Issued visits v.viewer token ∨ ∃ x ∈ before, x.GrantsAccess token := by
  obtain ⟨isolated, common, brought⟩ := session.at_visit
  obtain ⟨g, h⟩ := v.traced.signed before e after sent
  have bound := token_of_carries h resource carries
  have known := h.known
  have settled := h.settled resource
  cases which : g.bound with
  | none =>
    rw [which] at bound
    cases bound
  | request t secret source => exact absurd which (settled t secret source)
  | access info source =>
    rw [which] at bound known
    obtain rfl := Option.some.inj bound
    exact issued_of_known isolated common brought known

/-- In a session, each token that is found in a request for a resource was granted to the viewer who
makes the call: to a call before this one, or by an exchange of this call before the request; or the
caller has written it into a header of its own, which is not replaced. What the request is signed
with was granted to the viewer in any case. -/
theorem Session.viewer_isolation {later : List Visit} {before after : List Exchange} {e : Exchange}
    {token : String} (session : Session policy (visits ++ v :: later) store)
    (sent : v.final.sent = before ++ e :: after) (resource : e.purpose = .resource) :
    (v.call.Carries e token → Issued visits v.viewer token ∨ ∃ x ∈ before, x.GrantsAccess token) ∧
    (token ∈ tokensIn e.request.allPairs →
      (Issued visits v.viewer token ∨ ∃ x ∈ before, x.GrantsAccess token) ∨
        v.call.declaredPlacement .resource ≠ .ok .authHeader ∧
          token ∈ tokensIn v.call.request.headerPairs) := by
  refine ⟨session.granted_of_carries sent resource, fun mem => ?_⟩
  rw [Visit.final] at sent
  rw [mem_tokensIn_resource_iff sent resource] at mem
  exact mem.imp_left (session.granted_of_carries sent resource)

/-- A visit that binds an access token, and finds the resource at once, sends one request, which
carries that token. -/
theorem Visit.carries_of_found {a : Accessor} {info : TokenInfo} {source : TokenSource}
    {response : Response} (kind : v.call.args.kind = .delegated)
    (clean : v.call.request.checkCaller = .ok ()) (identity : v.call.checkIdentity = .ok ())
    (built : Accessor.build v.start.store v.call.args v.call.token v.call.services
      (v.call.incomingState v.start.clock.millis) = .ok a)
    (bound : a.token = .access info source) (good : info.isExpired v.start.clock.millis = false)
    (uncached : v.start.cache = none) (placed : v.call.declaredPlacement .resource = .ok a.placement)
    (signs : (v.call.request.sign a.credentials (v.call.identityPairs a) a.placement v.start.clock
      v.start.entropy).1.isOk = true)
    (answered : (v.call.replies 0).outcome = .ok response)
    (there : response.resourceFailure? a.hasAccessToken = none) :
    ∃ e, v.final.sent = [] ++ e :: [] ∧ e.purpose = .resource ∧ v.call.Carries e info.token := by
  rcases made : v.call.request.sign a.credentials (v.call.identityPairs a) a.placement v.start.clock
    v.start.entropy with ⟨r | signed, entropy⟩
  · rw [made] at signs
    cases signs
  · have sent := sent_of_found kind clean identity built bound good uncached made answered there
    have token : a.token.token? = some info.token := by
      rw [bound]
      rfl
    exact ⟨_, sent, rfl, carries_of_signs placed made token⟩

/-- The reply that an access token is granted. -/
def granted : Reply :=
  ⟨.ok { status := 200, body := Utf8.encode "oauth_token=granted&oauth_token_secret=hidden" }, 0⟩

/-- A visit that brings an approved request token, over a store without tokens. -/
def firstVisit : Visit where
  call := { photoCall (fun n => if n = 0 then granted else found) with
    args := { FetchArguments.delegated "photos" with requestToken := some "approved" } }
  start := { photoStart with store := { photoStore with tokens := .empty } }

/-- A later visit of the same viewer, who brings nothing. -/
def secondVisit : Visit where
  call := photoCall fun _ => found
  start := { photoStart with store := firstVisit.final.store }

theorem session_of_visits :
    Session firstVisit.call.policy ([firstVisit] ++ secondVisit :: []) secondVisit.final.store :=
  .visit (.visit (.start rfl) rfl .nothing) rfl .nothing

/-- What the later visit signs with: the token that the first visit was granted. -/
def secondAccessor : Accessor :=
  (Accessor.consumerOnly ⟨"key", .hmac "secret", none, none⟩ .get .authHeader).setAccessToken
    ⟨"granted", "hidden", none, none⟩ .store

theorem carries_secondVisit : ∃ e, secondVisit.final.sent = [] ++ e :: [] ∧
    e.purpose = .resource ∧ secondVisit.call.Carries e "granted" := by
  have built : Accessor.build secondVisit.start.store secondVisit.call.args secondVisit.call.token
      secondVisit.call.services (secondVisit.call.incomingState secondVisit.start.clock.millis) =
      .ok secondAccessor := by decide +kernel
  exact Visit.carries_of_found rfl (by decide +kernel) (by decide +kernel) built rfl rfl rfl rfl
    (by decide +kernel) rfl rfl

/-- A later visit of another viewer, who has no token; that of the first is named in a header. -/
def meddlingVisit (placement : Placement) : Visit where
  call :=
    let call := headedCall placement "OAuth oauth_token=\"granted\"" fun _ => found
    { call with
      token := { call.token with viewer := some "bob" }
      args := { call.args with tokenUse := .ifAvailable } }
  start := { photoStart with store := firstVisit.final.store }

theorem session_of_meddling (placement : Placement) :
    Session firstVisit.call.policy ([firstVisit] ++ meddlingVisit placement :: [])
      (meddlingVisit placement).final.store :=
  .visit (.visit (.start rfl) rfl .nothing) rfl .nothing

theorem sent_meddlingVisit (placement : Placement) (fits : placement ≠ .postBody) :
    ∃ e, (meddlingVisit placement).final.sent = [] ++ e :: [] ∧ e.purpose = .resource := by
  have told : (meddlingVisit placement).final.sent.map (·.purpose) = [.resource] := by
    cases placement with
    | postBody => exact absurd rfl fits
    | _ => decide +kernel
  exact List.map_eq_singleton_iff.1 told

/-- No call of the other viewer is granted anything. -/
theorem not_issued_meddlingVisit (placement : Placement) (fits : placement ≠ .postBody)
    (token : String) :
    ¬ Issued [firstVisit, meddlingVisit placement] (meddlingVisit placement).viewer token := by
  rintro ⟨u, mem, viewer, x, among, ofToken, -⟩
  simp only [List.mem_cons, List.not_mem_nil, or_false] at mem
  rcases mem with rfl | rfl
  · have other : (some "ann" : Option String) = some "bob" := viewer
    exact absurd other (by decide)
  · obtain ⟨e, sent, resource⟩ := sent_meddlingVisit placement fits
    rw [sent] at among
    obtain rfl := List.mem_singleton.1 among
    rw [resource] at ofToken
    rcases ofToken with trade | extension
    · cases trade
    · cases extension

/-- The second visit uses the token that the first visit was granted. The other viewer's request does
not have it, where the header is replaced that names it. -/
theorem Session.viewer_isolation_second : (∃ e, secondVisit.final.sent = [] ++ e :: [] ∧
      e.purpose = .resource ∧ "granted" ∈ tokensIn e.request.allPairs ∧
      Issued [firstVisit] secondVisit.viewer "granted") ∧
    ∃ e, (meddlingVisit .authHeader).final.sent = [] ++ e :: [] ∧ e.purpose = .resource ∧
      "granted" ∉ tokensIn e.request.allPairs := by
  constructor
  · obtain ⟨e, sent, resource, carries⟩ := carries_secondVisit
    obtain ⟨own, -⟩ := Session.viewer_isolation session_of_visits sent resource
    rcases own carries with issued | ⟨x, none, -⟩
    · refine ⟨e, sent, resource, ?_, issued⟩
      exact (mem_tokensIn_resource_iff sent resource).2 (.inl carries)
    · cases none
  · obtain ⟨e, sent, resource⟩ := sent_meddlingVisit .authHeader (by decide)
    refine ⟨e, sent, resource, fun mem => ?_⟩
    obtain ⟨-, all⟩ := Session.viewer_isolation (session_of_meddling .authHeader) sent resource
    rcases all mem with (issued | ⟨x, none, -⟩) | ⟨other, -⟩
    · exact not_issued_meddlingVisit .authHeader (by decide) _ (issued.append [_])
    · cases none
    · exact other rfl

/-- Where the query takes the parameters, the other viewer's request has the token in its header,
though no call of that viewer was granted it. -/
theorem Session.keeps_foreign_header :
    Session firstVisit.call.policy ([firstVisit] ++ meddlingVisit .uriQuery :: [])
      (meddlingVisit .uriQuery).final.store ∧
    ∃ e, (meddlingVisit .uriQuery).final.sent = [] ++ e :: [] ∧ e.purpose = .resource ∧
      "granted" ∈ tokensIn e.request.allPairs ∧
      ¬ Issued [firstVisit, meddlingVisit .uriQuery] (meddlingVisit .uriQuery).viewer "granted" := by
  obtain ⟨e, sent, resource⟩ := sent_meddlingVisit .uriQuery (by decide)
  refine ⟨session_of_meddling .uriQuery, e, sent, resource, ?_,
    not_issued_meddlingVisit .uriQuery (by decide) _⟩
  rw [Visit.final] at sent
  rw [mem_tokensIn_resource_iff sent resource]
  exact .inr ⟨by decide +kernel, by decide +kernel⟩

end DelegatedFetch
