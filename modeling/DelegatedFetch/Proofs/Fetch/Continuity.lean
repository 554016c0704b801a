import DelegatedFetch.Proofs.Fetch.Scope

/-!
# A state from one call to the next

A call that is answered tells its caller the state at its end, bound to the
viewer, unless that state has no token left. Whoever brings it to a later call
starts there from exactly that state, if the viewer is the same and the state is
not too old by then; any other call starts from nothing. It does not matter how
the call came to its answer: with the resource, with a page for approval, or
with a refusal.
-/

namespace DelegatedFetch

open Call

namespace Visit

variable {v u : Visit} {response : Response} {blob : String}

/-- An answered call tells no state if that has no token left, and only then. -/
theorem toldState?_eq_none_iff (answered : (v.call.fetch v.start).1 = .ok response) :
    v.toldState? = none ↔
      v.final.state.requestToken = none ∧ v.final.state.accessToken = none := by
  rcases v.toldState?_eq with ⟨⟨f, failed⟩, -⟩ | ⟨entropy, told⟩
  · cases answered.symm.trans failed
  · rw [told, ClientState.encode_eq_none_iff, outgoingState_eq_empty_iff]

/-- A call that brings what another one has told starts from the state at the end of that one, if the
same viewer brings it in time, and else from nothing. -/
theorem begun_of_told (told : v.toldState? = some blob)
    (common : u.call.policy.crypter = v.call.policy.crypter)
    (brings : u.call.args.clientState = some blob) :
    (u.call.begun u.start).state =
      if u.viewer = v.viewer ∧ u.start.clock.millis.toNat - v.final.clock.millis.toNat ≤
        u.call.policy.stateMaxAge then v.carried else .empty := by
  change u.call.incomingState u.start.clock.millis = _
  have decoded := decode_of_told told u.call.policy.stateMaxAge u.start.clock.millis
  by_cases young : u.start.clock.millis.toNat - v.final.clock.millis.toNat ≤
    u.call.policy.stateMaxAge
  · rw [if_pos young] at decoded
    rw [incomingState, brings, common, decoded]
    by_cases same : u.viewer = v.viewer
    · have own : ¬ (v.carried ≠ .empty ∧ v.carried.owner ≠ u.call.token.viewer) :=
        fun foreign => foreign.2 same.symm
      rw [if_neg own, if_pos ⟨same, young⟩]
    · have filled : v.carried ≠ .empty := by
        intro blank
        rcases (sealed_of_told told).1 with request | access
        · exact request (congrArg ClientState.requestToken blank)
        · exact access (congrArg ClientState.accessToken blank)
      have foreign : v.carried ≠ .empty ∧ v.carried.owner ≠ u.call.token.viewer :=
        ⟨filled, fun owner => same owner.symm⟩
      rw [if_pos foreign, if_neg fun h => same h.1]
  · rw [if_neg young] at decoded
    rw [incomingState, brings, common, decoded, if_neg fun foreign => foreign.1 rfl,
      if_neg fun h => young h.2]

/-- A sealed state hands on what a call has left, to its viewer and to nobody else. -/
structure HandsOn (v : Visit) (blob : String) : Prop where
  filled : v.carried.requestToken ≠ none ∨ v.carried.accessToken ≠ none
  bound : v.carried.owner = v.viewer
  opens : ∀ maxAge now, ClientState.decode v.call.policy.crypter (some blob) maxAge now =
    if now.toNat - v.final.clock.millis.toNat ≤ maxAge then v.carried else .empty
  resumes : ∀ u : Visit, u.call.policy.crypter = v.call.policy.crypter →
    u.call.args.clientState = some blob →
      (u.call.begun u.start).state =
        if u.viewer = v.viewer ∧ u.start.clock.millis.toNat - v.final.clock.millis.toNat ≤
          u.call.policy.stateMaxAge then v.carried else .empty

/-- An answered call tells a state if there is a token left at its end, and only then; next to it, or
without it, there is what the resource has brought. The state that is told is handed on: to a call of
the same viewer who brings it in time, and to no other. -/
theorem state_continues (answered : (v.call.fetch v.start).1 = .ok response) :
    response.metadata.find? Report.stateKey =
        v.toldState?.or (v.resource?.bind (·.metadata.find? Report.stateKey)) ∧
      (v.toldState? = none ↔
        v.final.state.requestToken = none ∧ v.final.state.accessToken = none) ∧
      ∀ blob, v.toldState? = some blob → v.HandsOn blob := by
  refine ⟨v.find?_stateKey answered, toldState?_eq_none_iff answered, fun blob told => ?_⟩
  exact ⟨(sealed_of_told told).1, rfl, decode_of_told told,
    fun _ common brings => begun_of_told told common brings⟩

/-- A visit like another one, by a caller who is not known. -/
def anonymous (v : Visit) : Visit :=
  { v with call := { v.call with token := { v.call.token with viewer := none } } }

/-- The state that a trade leaves is told; the same viewer goes on with it, for any service, and
someone who is not known starts from nothing. -/
theorem state_continues_photos : ∃ response blob,
    (photosVisit.call.fetch photosVisit.start).1 = .ok response ∧
      response.metadata.find? Report.stateKey = some blob ∧
      (mailVisit.call.begun mailVisit.start).state = photosVisit.carried ∧
      (mailVisit.anonymous.call.begun mailVisit.anonymous.start).state = .empty := by
  have ends : (photosVisit.call.fetch photosVisit.start).1.isOk = true := by decide +kernel
  have left : photosVisit.final.state.accessToken = some "granted" := by decide +kernel
  have young : mailVisit.start.clock.millis.toNat - photosVisit.final.clock.millis.toNat ≤
      mailVisit.call.policy.stateMaxAge := by decide +kernel
  obtain ⟨response, answered⟩ := exists_of_isOk ends
  obtain ⟨attached, untold, hands⟩ := state_continues answered
  obtain ⟨blob, told⟩ : ∃ blob, photosVisit.toldState? = some blob := by
    rw [← Option.ne_none_iff_exists', Ne, untold, left]
    exact fun blank => nomatch blank.2
  rw [told] at attached
  have own := (hands blob told).resumes mailVisit rfl told
  have other := (hands blob told).resumes mailVisit.anonymous rfl told
  rw [if_pos ⟨rfl, young⟩] at own
  rw [if_neg (fun h => nomatch h.1)] at other
  exact ⟨response, blob, answered, attached, own, other⟩

end Visit
end DelegatedFetch
