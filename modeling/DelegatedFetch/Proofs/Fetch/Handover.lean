import DelegatedFetch.Proofs.Fetch.Rejected
import DelegatedFetch.Proofs.Fetch.Visitors

/-!
# One request token from the provider to the trade

A call that asks for approval has got a request token with its secret. The page
that the owner is sent to names that token, the state that the caller takes along
has the token and the secret, and whoever comes back with the state trades just
that token, signed with just that secret, before anything else is sent.

The page is the declared one; only its query has grown. It names the callback
only for a provider that has not confirmed it: such a provider knows of it from
the request for the token.
-/

namespace DelegatedFetch

namespace Call

open Step

variable {c : Call} {s : Surroundings} {a : Accessor} {q p : Progress} {g g' : Stage}
  {signed : Request} {e : Exchange}

/-- A call that is going to trade a request token: nothing is wrong with it, the token is bound, the
viewer owns the page, and the request for the access endpoint can be signed. -/
structure Trades (c : Call) (s : Surroundings) (a : Accessor) (signed : Request) : Prop where
  clean : c.request.checkCaller = .ok ()
  identity : c.checkIdentity = .ok ()
  kind : c.args.kind = .delegated
  owner : c.token.viewerIsOwner = true
  built : Accessor.build s.store c.args c.token c.services (c.incomingState s.clock.millis) = .ok a
  unsettled : ¬ a.token.IsSettled
  signs : ∃ provider, c.services.provider c.args.service = .ok provider ∧
    (provider.access.bare.sign a.credentials
      (c.args.verifier.map fun v => (Parameter.verifier, v)).toList provider.access.placement
      s.clock s.entropy).1 = .ok signed

/-- The exchange with which a request token is traded. -/
def tradeOf (c : Call) (signed : Request) : Exchange :=
  ⟨.accessToken, signed, (c.replies 0).outcome.toOption⟩

namespace Trades

/-- Trading the token begins with the request that can be signed. -/
theorem sends (t : Trades c s a signed) :
    Ensures (· = c.begun s) (c.exchangeRequestToken a) (fun _ p => p.sent = [c.tradeOf signed])
      fun _ p => p.sent = [c.tradeOf signed] := by
  obtain ⟨provider, declared, made⟩ := t.signs
  obtain ⟨entropy, signs⟩ : ∃ entropy, provider.access.bare.sign a.credentials
      (c.args.verifier.map fun v => (Parameter.verifier, v)).toList provider.access.placement
      s.clock s.entropy = (.ok signed, entropy) := ⟨_, Prod.ext made rfl⟩
  have exchanged : Ensures (· = c.begun s) (c.exchange .accessToken provider.access a.credentials
      (c.args.verifier.map fun v => (Parameter.verifier, v)).toList)
      (fun _ p => p.sent = [c.tradeOf signed]) fun _ p => p.sent = [c.tradeOf signed] := by
    rintro p rfl
    rw [exchange]
    change Ends _ _ ((Call.sign provider.access.bare _ _ _ >>= c.send .accessToken) _)
    rw [bind_run, sign_run (p := c.begun s) signs]
    simp only [send_run]
    cases outcome : (c.replies (c.begun s).sent.length).outcome with
    | error text => rfl
    | ok response => rfl
  rw [exchangeRequestToken, Call.provider, declared]
  simp only [t.owner]
  apply exchanged.bind
  intro response
  apply ensures_ofExcept_bind (fun _ _ _ sent => sent)
  intro reply _
  apply Ensures.bind (ensures_now (Q := fun _ p => p.sent = [c.tradeOf signed]) fun _ sent => sent)
  intro time
  apply ensures_ofExcept_bind (fun _ _ _ sent => sent)
  intro info _
  apply Ensures.bind (ensures_forgetRequestToken
    (Q := fun _ p => p.sent = [c.tradeOf signed]) fun _ sent => sent)
  intro _
  refine (ensures_persist (fun _ _ _ sent kept => kept.sent.trans sent)
    fun _ _ sent _ _ => sent).bind fun source => ?_
  exact ensures_pure fun _ sent => sent

end Trades

/-- Nothing has happened in a call but that its accessor was built. -/
def Untouched (c : Call) (s : Surroundings) (a : Accessor) : Stage → Progress → Prop
  | .attempting _, p => p = c.begun s
  | .built _ b, p | .choosing _ b, p => b = a ∧ p = c.begun s
  | _, _ => False

/-- What happens first is that the token is traded. -/
theorem Untouched.move (t : Trades c s a signed) (h : Untouched c s a g q)
    (move : c.Move g q g' p) :
    Untouched c s a g' p ∨ p.sent.head? = some (c.tradeOf signed) := by
  have traded {outcome : Except Stop Accessor} {p : Progress}
      (ran : c.exchangeRequestToken a (c.begun s) = (outcome, p)) :
      p.sent.head? = some (c.tradeOf signed) := by
    have sent : p.sent = [c.tradeOf signed] := t.sends.outcome (T := fun _ p => p.sent = _) rfl ran
    rw [sent, List.head?_cons]
  have fresh (now : UInt64) : a.isExpired now = false := by
    cases bound : a.token with
    | none => exact absurd (bound ▸ BoundToken.isSettled_none) t.unsettled
    | access info source =>
      exact absurd (bound ▸ BoundToken.isSettled_access info source) t.unsettled
    | request token secret source =>
      rw [Accessor.isExpired_eq, bound]
      rfl
  cases move with
  | build built =>
    obtain rfl := h
    exact .inl ⟨Except.ok.inj (built.symm.trans t.built), rfl⟩
  | unbuilt refused =>
    obtain rfl := h
    cases t.built.symm.trans refused
  | sign kind => cases t.kind.symm.trans kind
  | keep => exact .inl h
  | expire expired =>
    obtain ⟨rfl, rfl⟩ := h
    rw [fresh] at expired
    cases expired
  | approve _ unbound =>
    obtain ⟨rfl, rfl⟩ := h
    exact absurd (unbound ▸ BoundToken.isSettled_none) t.unsettled
  | use settled =>
    obtain ⟨rfl, rfl⟩ := h
    exact absurd settled t.unsettled
  | trade _ ran =>
    obtain ⟨rfl, rfl⟩ := h
    exact .inr (traded ran)
  | startOver _ ran | untraded _ ran =>
    obtain ⟨rfl, rfl⟩ := h
    have first := traded ran
    exact .inr first
  | extend | unextended | unreached | forget | deliver | undelivered | outlive | reject
    | unfetched => exact h.elim

theorem Trades.opens (t : Trades c s a signed) (h : Reaches c s g p) :
    Untouched c s a g p ∨ p.sent.head? = some (c.tradeOf signed) := by
  induction h with
  | unchecked refused =>
    rcases refused with refused | refused
    · cases t.clean.symm.trans refused
    · cases t.identity.symm.trans refused
  | start => exact .inl rfl
  | move before move ih =>
    rcases ih with untouched | first
    · exact untouched.move t move
    · obtain ⟨purpose, notes⟩ := move.notes before.sound (before.clean move)
      exact .inr (notes.head? first)

end Call

namespace Visit

open Call

variable {v u : Visit} {url : Url} {response : Response} {blob token secret : String}
  {provider : Provider} {consumer : Consumer} {reply : Pairs}

/-- A later call of the viewer of a page, who brings the state that was told there, in time, and names
no request token. A token may be used, none is stored, and the consumer is found. -/
structure ComesBack (u v : Visit) (blob : String) (provider : Provider) (consumer : Consumer) :
    Prop where
  clean : u.call.request.checkCaller = .ok ()
  identity : u.call.checkIdentity = .ok ()
  kind : u.call.args.kind = .delegated
  wanted : u.call.args.tokenUse ≠ .never
  owner : u.call.token.viewerIsOwner = true
  viewer : u.viewer = v.viewer
  declared : u.call.services.provider u.call.args.service = .ok provider
  consumer : u.call.consumer u.start.store = .ok consumer
  common : u.call.policy.crypter = v.call.policy.crypter
  brings : u.call.args.clientState = some blob
  young : u.start.clock.millis.toNat - v.final.clock.millis.toNat ≤ u.call.policy.stateMaxAge
  unnamed : u.call.args.requestToken = none
  unstored : u.call.stored? u.start.store = none

/-- The accessor that is built for such a call. -/
def returningAccessor (provider : Provider) (consumer : Consumer) (token secret : String) : Accessor :=
  (Accessor.consumerOnly consumer provider.request.method provider.request.placement).setRequestToken
    token secret .clientState

/-- Such a call is bound to the request token in the state, with the secret that came with it. -/
theorem ComesBack.built (h : u.ComesBack v blob provider consumer)
    (told : v.toldState? = some blob) (carried : v.carried.accessToken = none)
    (request : v.carried.requestToken = some token)
    (hidden : v.carried.requestTokenSecret = some secret) :
    Accessor.build u.start.store u.call.args u.call.token u.call.services
      (u.call.incomingState u.start.clock.millis) =
      .ok (returningAccessor provider consumer token secret) := by
  have begun : u.call.incomingState u.start.clock.millis = v.carried := by
    have begun := begun_of_told told h.common h.brings
    rw [if_pos ⟨h.viewer, h.young⟩] at begun
    exact begun
  have unstored (info : TokenInfo) : u.start.store.token? u.call.token u.call.args.service
      u.call.args.tokenName ≠ .ok (some info) := by
    intro held
    rw [← stored?_eq_some_iff, h.unstored] at held
    cases held
  have bound : Accessor.carriedToken v.carried = .request token secret .clientState := by
    have none : v.carried.accessInfo? = none := by
      rw [ClientState.accessInfo?, carried]
      rfl
    rw [Accessor.carriedToken, none, request, hidden]
    rfl
  have chosen : Accessor.delegatedToken u.start.store u.call.args u.call.token v.carried =
      .ok (Accessor.carriedToken v.carried) :=
    delegatedToken_of_unstored h.wanted h.unnamed unstored
  have found := h.consumer
  rw [Call.consumer, h.kind] at found
  simp only [h.declared] at found
  rw [begun, Accessor.build, h.kind]
  simp only [h.declared, chosen, bound, bind, Except.bind]
  rw [show u.start.store.consumer u.call.token u.call.args.service (some provider) = .ok consumer
    from found]
  rfl

end Visit
end DelegatedFetch
