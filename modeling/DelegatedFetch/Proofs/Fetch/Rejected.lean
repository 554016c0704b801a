import DelegatedFetch.Proofs.Fetch.Continuity
import DelegatedFetch.Proofs.Fetch.Outcome

/-!
# Calls that are rejected before they send anything

A call is checked in three steps. Its request must not use reserved names; owner and
viewer must be known as far as they are needed; and there must be a service to fetch from,
with a consumer to sign for it. Nothing is sent until all of that has turned out well.

Where it does not, the call is refused for the first reason that is found. That leaves store
and cache alone, and the caller keeps the state that was brought, newly sealed: an approval
that is under way outlasts a malformed request.
-/

namespace DelegatedFetch

/-- What follows an answer, and cannot be refused itself, is no reason for a refusal. -/
theorem bind_eq_error_iff {ε α β : Type} {x : Except ε α} {f : α → Except ε β} {e : ε}
    (answers : ∀ a, ∃ b, f a = .ok b) : x >>= f = .error e ↔ x = .error e := by
  cases x with
  | error e' => exact ⟨fun same => congrArg _ (Except.error.inj same),
      fun same => congrArg _ (Except.error.inj same)⟩
  | ok a =>
    obtain ⟨b, answered⟩ := answers a
    refine ⟨fun refused => ?_, nofun⟩
    cases answered.symm.trans refused

/-- Which token a fetch is bound to is never a reason to refuse it. -/
theorem Accessor.exists_delegatedToken (store : Store) (args : FetchArguments) (t : SecurityToken)
    (state : ClientState) : ∃ b, delegatedToken store args t state = .ok b := by
  rw [delegatedToken]
  split
  · exact ⟨_, rfl⟩
  cases args.requestToken with
  | some token => exact ⟨_, rfl⟩
  | none =>
    dsimp only
    split
    · rename_i known
      cases looked : store.token? t args.service args.tokenName with
      | error r =>
        rw [TokenKey.viewer_of_map_error looked] at known
        cases known
      | ok held =>
        cases held with
        | none => exact ⟨_, rfl⟩
        | some info => exact ⟨_, rfl⟩
    · exact ⟨_, rfl⟩

namespace Store

variable {store : Store} {t : SecurityToken} {service : String} {provider : Option Provider}
  {r : Refusal}

/-- Nobody is registered for a gadget and a service, and there is no default key. -/
def Unregistered (store : Store) (gadget service : String) : Prop :=
  store.registered? gadget service = none ∧ store.defaultKey = none

theorem consumer_eq_error_iff : store.consumer t service provider = .error r ↔
    store.Unregistered t.appUrl service ∧
      r = .noConsumer t.appUrl service (provider.map (·.request.url)) := by
  rw [consumer, Unregistered, defaultFor?]
  cases store.registered? t.appUrl service with
  | some registered => simp
  | none =>
    cases store.defaultKey with
    | some key => simp
    | none =>
      refine ⟨fun refused => ?_, fun found => ?_⟩
      · exact ⟨⟨rfl, rfl⟩, (Except.error.inj refused).symm⟩
      · exact congrArg Except.error found.2.symm

end Store

namespace Call

open Step

variable {c : Call} {s : Surroundings} {r : Refusal}

/-- The accessor of the first attempt. -/
def firstAccessor (c : Call) (s : Surroundings) : Except Refusal Accessor :=
  Accessor.build s.store c.args c.token c.services (c.incomingState s.clock.millis)

/-- An accessor is refused exactly if there is no consumer to sign for it. -/
theorem firstAccessor_eq_error_iff :
    c.firstAccessor s = .error r ↔ c.consumer s.store = .error r := by
  rw [firstAccessor, Accessor.build, consumer]
  cases c.args.kind with
  | signed => exact bind_eq_error_iff fun _ => ⟨_, rfl⟩
  | delegated =>
    cases c.services.provider c.args.service with
    | error r' => exact ⟨fun same => congrArg _ (Except.error.inj same),
        fun same => congrArg _ (Except.error.inj same)⟩
    | ok provider =>
      refine bind_eq_error_iff (x := s.store.consumer c.token c.args.service (some provider))
        fun consumer => ?_
      obtain ⟨b, bound⟩ := Accessor.exists_delegatedToken s.store c.args c.token
        (c.incomingState s.clock.millis)
      rw [bound]
      exact ⟨_, rfl⟩

/-- Why there is no consumer to sign for a call. -/
inductive Unserved (c : Call) (store : Store) : Refusal → Prop
  | undeclared (kind : c.args.kind = .delegated) (missing : c.services.find? c.args.service = none) :
      Unserved c store (.undeclaredService c.args.service c.services.names)
  | later {provider : LaterProvider} (kind : c.args.kind = .delegated)
      (declared : c.services.find? c.args.service = some (.later provider)) :
      Unserved c store (.laterProtocol c.args.service)
  | noConsumer {provider : Provider} (kind : c.args.kind = .delegated)
      (declared : c.services.find? c.args.service = some (.current provider))
      (unregistered : store.Unregistered c.token.appUrl c.args.service) :
      Unserved c store (.noConsumer c.token.appUrl c.args.service (some provider.request.url))
  | noGadgetConsumer (kind : c.args.kind = .signed)
      (unregistered : store.Unregistered c.token.appUrl "") :
      Unserved c store (.noConsumer c.token.appUrl "" none)

theorem unserved_of_error {store : Store} (refused : c.consumer store = .error r) :
    c.Unserved store r := by
  cases kind : c.args.kind with
  | signed =>
    rw [consumer, kind] at refused
    obtain ⟨unregistered, rfl⟩ := Store.consumer_eq_error_iff.1 refused
    exact .noGadgetConsumer kind unregistered
  | delegated =>
    simp only [consumer, kind, Services.provider] at refused
    cases declared : c.services.find? c.args.service with
    | none =>
      rw [declared] at refused
      obtain rfl := Except.error.inj refused
      exact .undeclared kind declared
    | some service =>
      rw [declared] at refused
      cases service with
      | later provider =>
        obtain rfl := Except.error.inj refused
        exact .later kind declared
      | current provider =>
        obtain ⟨unregistered, rfl⟩ := Store.consumer_eq_error_iff.1 refused
        exact .noConsumer kind declared unregistered

/-- Why a call is rejected before it sends anything. What is checked first counts. -/
inductive Rejects (c : Call) (s : Surroundings) : Refusal → Prop
  | request {r : Refusal} (refused : c.request.checkCaller = .error r) : Rejects c s r
  | identity {r : Refusal} (clean : c.request.checkCaller = .ok ())
      (refused : c.checkIdentity = .error r) : Rejects c s r
  | accessor {r : Refusal} (clean : c.request.checkCaller = .ok ())
      (identity : c.checkIdentity = .ok ()) (refused : c.firstAccessor s = .error r)
      (unserved : c.Unserved s.store r) : Rejects c s r

/-- A call that fails one of its checks is rejected for some reason. -/
theorem exists_rejects (failed : c.request.checkCaller ≠ .ok () ∨ c.checkIdentity ≠ .ok () ∨
    ∀ a, c.firstAccessor s ≠ .ok a) : ∃ r, c.Rejects s r := by
  cases clean : c.request.checkCaller with
  | error r => exact ⟨r, .request clean⟩
  | ok =>
    cases identity : c.checkIdentity with
    | error r => exact ⟨r, .identity clean identity⟩
    | ok =>
      cases built : c.firstAccessor s with
      | error r =>
        have unserved := unserved_of_error (firstAccessor_eq_error_iff.1 built)
        exact ⟨r, .accessor clean identity built unserved⟩
      | ok a =>
        rcases failed with bad | unknown | unbuilt
        · exact absurd clean bad
        · exact absurd identity unknown
        · exact absurd built (unbuilt a)

/-- A rejected call stops where it begins. -/
theorem run_of_rejects (rejects : c.Rejects s r) :
    c.run (c.begun s) = (.error (.refused r), c.begun s) := by
  cases rejects with
  | request refused =>
    rw [run, refused]
    rfl
  | identity clean refused =>
    rw [run, clean, refused]
    rfl
  | accessor clean identity refused =>
    have attempted : c.attempt false (c.begun s) = (.error (.refused r), c.begun s) := by
      have built : Accessor.build (c.begun s).store (c.arguments (c.begun s)) c.token c.services
          (c.begun s).state = .error r := refused
      change (Step.ofExcept _ >>= _ : Step Attempt) (c.begun s) = _
      rw [built]
      rfl
    rw [run, clean, identity]
    change c.loop false (c.begun s) = _
    rw [loop]
    split
    · rename_i answered
      cases attempted.symm.trans answered
    · rename_i retried
      cases attempted.symm.trans retried
    · rename_i stopped
      obtain ⟨same, left⟩ := Prod.mk.inj (attempted.symm.trans stopped)
      rw [← Except.error.inj same, ← left]

/-- The report of a rejected call: the reason, and the state that it has begun with. -/
def rejection (c : Call) (s : Surroundings) (r : Refusal) : Report where
  sendTrace := c.policy.sendTrace
  error := some r
  clientState := (c.sealedState (c.begun s)).1

/-- A rejected call draws random bytes for its state, and changes nothing else. -/
theorem fetch_of_rejects (rejects : c.Rejects s r) :
    c.fetch s = (.ok (c.rejection s r).toResponse,
      { c.begun s with entropy := (c.sealedState (c.begun s)).2 }) := by
  rw [fetch, run_of_rejects rejects]
  rfl

end Call

namespace Visit

open Call

variable {v : Visit} {r : Refusal} {response : Response}

/-- The state that a visit begins with. -/
def loaded (v : Visit) : ClientState := v.call.incomingState v.start.clock.millis

/-- A rejected visit leaves everything alone, and tells why; next to that it tells the state that it
has begun with, if there is a token in it. -/
structure Rejected (v : Visit) (r : Refusal) (response : Response) : Prop where
  reason : v.call.Rejects v.start r
  answered : (v.call.fetch v.start).1 = .ok response
  sent : v.final.sent = []
  store : v.final.store = v.start.store
  cache : v.final.cache = v.start.cache
  blank : response.IsBlank 403
  code : response.metadata.find? Report.errorKey = some r.code
  text : response.metadata.find? Report.errorTextKey = some (Redaction.redact r.message)
  unapproved : response.metadata.find? Report.approvalKey = none
  untold : v.loaded.requestToken = none ∧ v.loaded.accessToken = none →
    response.metadata.find? Report.stateKey = none
  told : v.loaded.requestToken ≠ none ∨ v.loaded.accessToken ≠ none →
    ∃ blob, response.metadata.find? Report.stateKey = some blob ∧ ∀ maxAge now,
      ClientState.decode v.call.policy.crypter (some blob) maxAge now =
        if now.toNat - v.start.clock.millis.toNat ≤ maxAge then v.loaded else .empty

/-- A state that has a token when it is loaded belongs to the viewer. -/
theorem owner_loaded (filled : v.loaded.requestToken ≠ none ∨ v.loaded.accessToken ≠ none) :
    ({ v.loaded with owner := v.viewer } : ClientState) = v.loaded := by
  rcases v.call.incomingState_cases v.start.clock.millis with blank | ⟨-, owner⟩
  · rw [loaded, blank] at filled
    rcases filled with request | access
    · exact absurd rfl request
    · exact absurd rfl access
  · change v.loaded.owner = v.viewer at owner
    rw [← owner]

theorem rejected_of_rejects (rejects : v.call.Rejects v.start r) :
    v.Rejected r (v.call.rejection v.start r).toResponse := by
  have fetched := fetch_of_rejects rejects
  have left : v.final = _ := congrArg Prod.snd fetched
  have answered := congrArg Prod.fst fetched
  have unsealed : v.toldState? = (v.call.sealedState (v.call.begun v.start)).1 := by
    rw [toldState?, run_of_rejects rejects]
  have state : v.final.state = v.loaded := by rw [left]; rfl
  have told := v.toldState?_eq_none_iff answered
  rw [state] at told
  refine ⟨rejects, answered, ?_, ?_, ?_, ⟨rfl, rfl, rfl⟩, ?_, ?_, ?_, fun blank => ?_, fun filled => ?_⟩
  · rw [left]
    rfl
  · rw [left]
    rfl
  · rw [left]
    rfl
  · exact Report.find?_toResponse _ _
  · rw [Report.find?_toResponse]
    change some (Redaction.redact r.message ++ if v.call.policy.sendTrace && false then _ else "") = _
    rw [Bool.and_false, if_neg Bool.false_ne_true, String.append_empty]
  · exact Report.find?_toResponse _ _
  · rw [Report.find?_toResponse]
    exact unsealed.symm.trans (told.2 blank)
  · obtain ⟨blob, sealed⟩ : ∃ blob, v.toldState? = some blob := by
      rw [← Option.ne_none_iff_exists', Ne, told, not_and_or]
      exact filled
    refine ⟨blob, ?_, fun maxAge now => ?_⟩
    · rw [Report.find?_toResponse]
      exact unsealed.symm.trans sealed
    · rw [decode_of_told sealed, carried, state, owner_loaded filled, left]
      rfl

/-- A visit whose request uses reserved names, or for which somebody is not known who has to be, or for
which no accessor can be built, is rejected. It sends nothing and leaves store and cache as they were;
the answer is empty but for the reason and the state that the visit has begun with. -/
theorem rejected_unchanged (failed : v.call.request.checkCaller ≠ .ok () ∨
    v.call.checkIdentity ≠ .ok () ∨ ∀ a, v.call.firstAccessor v.start ≠ .ok a) :
    ∃ r response, v.Rejected r response := by
  obtain ⟨r, rejects⟩ := exists_rejects failed
  exact ⟨r, _, rejected_of_rejects rejects⟩

/-- A visit that asks for a request token, and for approval with it. -/
def pendingVisit : Visit where
  call := photoCall fun _ => granted
  start := { photoStart with store := { photoStore with tokens := .empty } }

/-- A later visit of the same viewer that names a token in its query, while the approval is under way. -/
def malformedVisit : Visit where
  call :=
    let call := photoCall fun _ => found
    { call with
      request := { call.request with
        url := { call.request.url with query := some "oauth_token=forged" } }
      args := { call.args with clientState := pendingVisit.toldState? } }
  start := { photoStart with store := pendingVisit.final.store }

/-- The approval that is under way outlasts the malformed request. -/
theorem rejected_unchanged_malformed : ∃ response blob,
    malformedVisit.Rejected (.reservedInQuery "oauth_token") response ∧
      response.metadata.find? Report.stateKey = some blob ∧
      pendingVisit.carried.requestToken = some "granted" ∧
      ClientState.decode malformedVisit.call.policy.crypter (some blob) 1000 0 =
        pendingVisit.carried := by
  have ends : (pendingVisit.call.fetch pendingVisit.start).1.isOk = true := by decide +kernel
  have pending : pendingVisit.carried.requestToken = some "granted" := by decide +kernel
  have young : malformedVisit.start.clock.millis.toNat - pendingVisit.final.clock.millis.toNat ≤
      malformedVisit.call.policy.stateMaxAge := by decide +kernel
  have reserved : malformedVisit.call.request.checkCaller =
      .error (.reservedInQuery "oauth_token") := by decide +kernel
  obtain ⟨first, answered⟩ := exists_of_isOk ends
  obtain ⟨sealed, told⟩ : ∃ blob, pendingVisit.toldState? = some blob := by
    rw [← Option.ne_none_iff_exists', Ne, toldState?_eq_none_iff answered]
    exact fun blank => nomatch blank.1.symm.trans pending
  have loaded : malformedVisit.loaded = pendingVisit.carried := by
    have begun := begun_of_told (u := malformedVisit) told rfl told
    rw [if_pos ⟨rfl, young⟩] at begun
    exact begun
  obtain ⟨r, response, rejected⟩ := rejected_unchanged (v := malformedVisit)
    (.inl fun clean => nomatch reserved.symm.trans clean)
  obtain ⟨blob, attached, decodes⟩ := rejected.told (.inl (by rw [loaded, pending]; exact nofun))
  have same : r = .reservedInQuery "oauth_token" := by
    cases rejected.reason with
    | request refused => exact Except.error.inj (refused.symm.trans reserved)
    | identity clean | accessor clean => cases reserved.symm.trans clean
  refine ⟨response, blob, same ▸ rejected, attached, pending, ?_⟩
  rw [decodes, if_pos (by decide), loaded]

end Visit
end DelegatedFetch
