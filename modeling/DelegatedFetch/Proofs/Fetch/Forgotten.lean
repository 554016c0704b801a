import DelegatedFetch.Proofs.Fetch.Latest

/-!
# Which stored tokens are forgotten

A call forgets the token under its key only after a provider has not accepted a
token. Where the store keeps new tokens, that is the token which was stored; a
token in the caller's state can be the reason to forget a stored one that was
not used at all.

Forgetting itself does not look at the stored token. One that another call has
put under the same key in the meantime is forgotten like any other.
-/

namespace DelegatedFetch.Call

variable {c : Call} {s : Surroundings} {key : TokenKey}

/-- Forgetting erases what is under the key of the call, whatever it is, and leaves all else. -/
theorem discardToken_run (own : TokenKey.of c.token c.args.service c.args.tokenName = .ok key)
    (p : Progress) : c.discardToken p = (.ok (), { p with
      store := { p.store with tokens := p.store.tokens.erase key }
      state := p.state.clearAccessToken }) := by
  have known : c.token.viewer.isSome = true := by
    rw [← TokenKey.viewer_of own]
    rfl
  rw [discardToken, if_pos known, Step.bind_run]
  simp only [Store.removeToken, own, Except.map]
  rfl

/-- A token under the key of a call is forgotten by each step that forgets, whichever token that is;
over the whole call only if a provider has not accepted a token, or if its session cannot be
extended. Where the store keeps new tokens, the token not accepted is the one that is forgotten. -/
theorem removed_of_gone (answers : OnlySuccesses s.cache)
    (own : TokenKey.of c.token c.args.service c.args.tokenName = .ok key) :
    (∀ p, (c.discardToken p).1 = .ok () ∧
      ∀ other, (c.discardToken p).2.store.tokens.find? other =
        if other = key then none else p.store.tokens.find? other) ∧
    ∀ token, c.standing? s (c.fetch s).2.sent = some token →
      (c.fetch s).2.store.tokens.find? key = none →
        Removed c (c.fetch s).2.sent token ∨ Unextendable c s token := by
  constructor
  · intro p
    rw [discardToken_run own]
    exact ⟨rfl, Table.find?_erase _ _⟩
  · intro token stands gone
    have viewer : c.token.viewer ≠ none := by
      rw [← TokenKey.viewer_of own]
      exact nofun
    rw [← stored?_of_key own] at gone
    exact (c.renewed_fetch answers).accounted gone token viewer stands

/-- The reply that a token was revoked. -/
def revoked : Reply := ⟨.ok { status := 401, body := Utf8.encode "oauth_problem=token_revoked" }, 0⟩

/-- A gadget's call that is told that its token was revoked. -/
def revokedCall : Call := photoCall fun n => if n = 0 then revoked else found

/-- The token that was revoked is the one that is gone. -/
theorem removed_of_gone_revoked :
    (revokedCall.fetch photoStart).2.store.tokens.find? ⟨"gadget", "photos", "ann", 0, ""⟩ = none ∧
      Removed revokedCall (revokedCall.fetch photoStart).2.sent "token" := by
  have stands : revokedCall.standing? photoStart (revokedCall.fetch photoStart).2.sent =
      some "token" := by decide +kernel
  have gone : (revokedCall.fetch photoStart).2.store.tokens.find?
      ⟨"gadget", "photos", "ann", 0, ""⟩ = none := by decide +kernel
  refine ⟨gone, ?_⟩
  rcases (removed_of_gone onlySuccesses_none rfl).2 "token" stands gone with
    removed | ⟨-, info, held, -, session⟩
  · exact removed
  · obtain rfl := Option.some.inj held
    exact absurd rfl session

/-- The store after another call has put a token under the same key. -/
def overtakenStore : Store := { photoStore with
  tokens := photoStore.tokens.insert ⟨"gadget", "photos", "ann", 0, ""⟩
    ⟨"meanwhile", "hidden", none, none⟩ }

/-- A call that has a stored token and trades a request token, where the caller's state keeps new
tokens; it is told that the one it got was revoked. -/
def supersedingCall : Call :=
  let call := photoCall fun n => if n = 0 then refreshed else if n = 1 then revoked else found
  { call with
    policy := { call.policy with persistence := .client }
    args := { call.args with requestToken := some "approved", tokenUse := .ifAvailable } }

/-- The only token that the provider does not accept is the one that it has issued. -/
theorem sent_supersedingCall : ∃ x y e,
    (supersedingCall.fetch photoStart).2.sent = [x] ++ y :: [e] ∧ y.Rejects ∧
      (∀ t, supersedingCall.Carries y t ↔ t = "fresh") ∧
      ∀ z ∈ (supersedingCall.fetch photoStart).2.sent, z.Rejects → z = y := by
  have told : (supersedingCall.fetch photoStart).2.sent.map (fun e =>
      (e.purpose, e.issued?, e.response.bind fun r =>
        (r.resourceFailure? true).map (·.recoverable))) =
      [(.accessToken, some "fresh", none), (.resource, none, some true), (.resource, none, none)] := by
    decide +kernel
  obtain ⟨x, y, e, sent, first, second, third⟩ := eq_triple_of_map told
  simp only [Prod.mk.injEq] at first second third
  have rejects : y.Rejects := by
    obtain ⟨resource, -, failed⟩ := second
    obtain ⟨response, answered, failed⟩ := Option.bind_eq_some_iff.1 failed
    obtain ⟨failure, failed, recoverable⟩ := Option.map_eq_some_iff.1 failed
    exact ⟨response, answered, .inl ⟨resource, failure, failed, recoverable⟩⟩
  have unrefused : ¬ x.Rejects := by
    rintro ⟨-, -, ⟨resource, -⟩ | ⟨extension, -⟩⟩
    · cases first.1.symm.trans resource
    · cases first.1.symm.trans extension
  have accepted : ¬ e.Rejects := by
    rintro ⟨response, answered, ⟨-, failure, failed, -⟩ | ⟨extension, -⟩⟩
    · simp [answered, failed] at third
    · cases third.1.symm.trans extension
  refine ⟨x, y, e, sent, rejects, ?_, fun z mem refused => ?_⟩
  · have traded : TradedLast [x] "fresh" := ⟨x, rfl, first.1, first.2.1⟩
    exact carries_traded onlySuccesses_none sent second.1 traded
  · rw [sent] at mem
    simp only [List.mem_cons, List.not_mem_nil, or_false] at mem
    rcases mem with rfl | rfl | rfl
    · exact absurd refused unrefused
    · rfl
    · exact absurd refused accepted

/-- A call that is told that its token was revoked forgets the one that another call has stored
since it took its own from there. So does a whole call that is told so of what it has just been
issued: the stored token is gone, though no request carried it that was not accepted. -/
theorem forgets_stored_meanwhile :
    (∃ a, Accessor.build photoStore revokedCall.args revokedCall.token revokedCall.services .empty =
        .ok a ∧ a.token.token? = some "token" ∧
      (revokedCall.stored? overtakenStore).map (·.token) = some "meanwhile" ∧
      revokedCall.stored? (revokedCall.deliver false a
        { revokedCall.begun photoStart with store := overtakenStore }).2.store = none) ∧
    (supersedingCall.stored? photoStart.store).map (·.token) = some "token" ∧
      supersedingCall.stored? (supersedingCall.fetch photoStart).2.store = none ∧
      ∀ z ∈ (supersedingCall.fetch photoStart).2.sent, z.Rejects →
        ¬ supersedingCall.Carries z "token" := by
  refine ⟨⟨(Accessor.consumerOnly ⟨"key", .hmac "secret", none, none⟩ .get
    .authHeader).setAccessToken ⟨"token", "hidden", none, none⟩ .store, ?_, rfl, ?_, ?_⟩, rfl, ?_,
    fun z mem refused carries => ?_⟩
  · decide +kernel
  · decide +kernel
  · decide +kernel
  · decide +kernel
  · obtain ⟨x, y, e, -, -, fresh, only⟩ := sent_supersedingCall
    obtain rfl := only z mem refused
    exact absurd ((fresh _).1 carries) (by decide)

end DelegatedFetch.Call
