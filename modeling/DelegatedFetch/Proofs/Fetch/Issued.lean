import DelegatedFetch.Proofs.Fetch.Carried

/-!
# Tokens that are issued, and tokens that are rejected

The exchanges of a call tell which access tokens were issued to it, in order,
and which ones a provider did not accept. From them, and from what the call
found in the store, follows which token stands under the key of the call, as
long as none is removed there.
-/

namespace DelegatedFetch

/-- The token in a reply of a token endpoint, if it can be read. -/
def Response.token? (r : Response) (endpoint : String) : Option String :=
  (r.tokenReply endpoint).toOption.bind fun reply =>
    (tokenPair reply endpoint).toOption.map (·.1)

/-- The access token that an exchange was answered with, if it was made to get one. -/
def Exchange.issued? (e : Exchange) : Option String :=
  if e.purpose = .accessToken ∨ e.purpose = .extension then
    e.response.bind (·.token? e.purpose.label)
  else none

/-- A provider did not accept the token of a request: the resource was not delivered for it, or its
session was not extended. -/
def Exchange.Rejects (e : Exchange) : Prop :=
  ∃ response, e.response = some response ∧
    (e.purpose = .resource ∧ (∃ failure, response.resourceFailure? true = some failure ∧
        failure.recoverable = true) ∨
      e.purpose = .extension ∧ e.issued? = none)

namespace Exchange

variable {e : Exchange}

theorem issued?_of_purpose (h : ¬ (e.purpose = .accessToken ∨ e.purpose = .extension)) :
    e.issued? = none := by
  rw [issued?, if_neg h]

theorem issued?_of_unanswered (h : e.response = none) : e.issued? = none := by
  rw [issued?, h]
  split <;> rfl

theorem Rejects.issued?_eq_none (h : e.Rejects) : e.issued? = none := by
  obtain ⟨response, -, ⟨resource, -⟩ | ⟨-, none⟩⟩ := h
  · exact issued?_of_purpose (by simp [resource])
  · exact none

variable {response : Response} {reply : Pairs} {now : UInt64}

theorem issued?_of_response (forAccess : e.purpose = .accessToken ∨ e.purpose = .extension)
    (answered : e.response = some response) : e.issued? = response.token? e.purpose.label := by
  rw [issued?, if_pos forAccess, answered, Option.bind_some]

/-- A reply that is refused issues nothing. -/
theorem issued?_of_refused {r : Refusal} (answered : e.response = some response)
    (refused : response.tokenReply e.purpose.label = .error r) : e.issued? = none := by
  by_cases forAccess : e.purpose = .accessToken ∨ e.purpose = .extension
  · rw [issued?_of_response forAccess answered, Response.token?, refused]
    rfl
  · exact issued?_of_purpose forAccess

/-- A reply is read for its token, and what else it tells does not matter. -/
theorem issued?_of_reply (now : UInt64)
    (forAccess : e.purpose = .accessToken ∨ e.purpose = .extension)
    (answered : e.response = some response)
    (replied : response.tokenReply e.purpose.label = .ok reply) :
    e.issued? = (tokenInfo reply e.purpose.label now).toOption.map (·.token) := by
  rw [issued?_of_response forAccess answered, Response.token?, replied, tokenInfo]
  change (tokenPair reply e.purpose.label).toOption.map _ = _
  cases tokenPair reply e.purpose.label <;> rfl

/-- What is issued is granted. -/
theorem grants_of_issued {token : String} (h : e.issued? = some token) :
    ∃ secret, e.Grants token secret := by
  by_cases forAccess : e.purpose = .accessToken ∨ e.purpose = .extension
  · cases answered : e.response with
    | none =>
      rw [issued?_of_unanswered answered] at h
      cases h
    | some response =>
      cases replied : response.tokenReply e.purpose.label with
      | error r =>
        rw [issued?_of_refused answered replied] at h
        cases h
      | ok reply =>
        rw [issued?_of_response forAccess answered, Response.token?, replied] at h
        change (tokenPair reply e.purpose.label).toOption.map (·.1) = some token at h
        rcases pair : tokenPair reply e.purpose.label with r | ⟨first, secret⟩
        · rw [pair] at h
          cases h
        · rw [pair] at h
          obtain rfl : first = token := Option.some.inj h
          obtain ⟨named, hidden⟩ := Call.tokenPair_eq_ok pair
          exact ⟨secret, Call.grants_of_reply answered replied named hidden⟩
  · rw [issued?_of_purpose forAccess] at h
    cases h

end Exchange

/-- The access token that was issued last. -/
def latestIssued (sent : List Exchange) : Option String := sent.reverse.findSome? Exchange.issued?

theorem latestIssued_snoc (sent : List Exchange) (e : Exchange) :
    latestIssued (sent ++ [e]) = e.issued?.or (latestIssued sent) := by
  rw [latestIssued, List.reverse_append, List.reverse_singleton, List.singleton_append,
    List.findSome?_cons]
  cases e.issued? <;> rfl

theorem latestIssued_snoc_of_none {sent : List Exchange} {e : Exchange} (h : e.issued? = none) :
    latestIssued (sent ++ [e]) = latestIssued sent := by
  rw [latestIssued_snoc, h, Option.none_or]

/-- What was issued last was issued by some exchange. -/
theorem exists_issued {sent : List Exchange} {token : String} (h : latestIssued sent = some token) :
    ∃ e ∈ sent, e.issued? = some token := by
  obtain ⟨e, mem, issued⟩ := List.exists_of_findSome?_eq_some h
  exact ⟨e, List.mem_reverse.1 mem, issued⟩

namespace Call

variable {c : Call} {s : Surroundings} {sent : List Exchange} {token : String} {e : Exchange}

/-- A token was carried by a request whose token the provider did not accept, and none was issued
since. -/
def Spurned (c : Call) (sent : List Exchange) (token : String) : Prop :=
  ∃ before x after, sent = before ++ x :: after ∧ (∀ y ∈ x :: after, y.issued? = none) ∧
    x.Rejects ∧ c.Carries x token

theorem Spurned.last (rejects : e.Rejects) (carries : c.Carries e token) :
    Spurned c (sent ++ [e]) token := by
  refine ⟨sent, e, [], rfl, fun y hy => ?_, rejects, carries⟩
  rw [List.mem_singleton.1 hy]
  exact rejects.issued?_eq_none

theorem Spurned.snoc (h : Spurned c sent token) (none : e.issued? = none) :
    Spurned c (sent ++ [e]) token := by
  obtain ⟨before, x, after, rfl, silent, rest⟩ := h
  refine ⟨before, x, after ++ [e], by simp, fun y hy => ?_, rest⟩
  rw [← List.cons_append, List.mem_append, List.mem_singleton] at hy
  rcases hy with earlier | rfl
  · exact silent y earlier
  · exact none

/-- Right after a token was issued, no token is spurned. -/
theorem not_spurned_of_issued (sent : List Exchange) (issued : e.issued? ≠ none) :
    ¬ Spurned c (sent ++ [e]) token := by
  rintro ⟨before, x, after, split, silent, -⟩
  have last : (x :: after).getLast? = some e := by
    have ends := congrArg List.getLast? split
    simpa [List.getLast?_append] using ends.symm
  exact issued (silent e (List.mem_of_getLast? last))

/-- The token that a store has under the key of a call. -/
def stored? (c : Call) (store : Store) : Option TokenInfo :=
  (store.token? c.token c.args.service c.args.tokenName).toOption.join

theorem stored?_eq_some_iff {store : Store} {info : TokenInfo} : c.stored? store = some info ↔
    store.token? c.token c.args.service c.args.tokenName = .ok (some info) := by
  rw [stored?]
  rcases store.token? c.token c.args.service c.args.tokenName with r | found
  · exact ⟨nofun, nofun⟩
  · cases found with
    | none => exact ⟨nofun, nofun⟩
    | some found =>
      constructor
      · intro same
        rw [← Option.some.inj same]
      · intro same
        rw [Except.ok.inj same]
        rfl

theorem stored?_eq_none_of_stranger (stranger : c.token.viewer = none) (store : Store) :
    c.stored? store = none := by
  rw [stored?, Store.token?, TokenKey.of, stranger]
  rfl

theorem stored?_of_key {key : TokenKey} (own : TokenKey.of c.token c.args.service c.args.tokenName =
    .ok key) (store : Store) : c.stored? store = store.tokens.find? key := by
  rw [stored?, Store.token?, own]
  rfl

theorem stored?_setToken {store store' : Store} {info : TokenInfo}
    (set : store.setToken c.token c.args.service c.args.tokenName info = .ok store') :
    c.stored? store' = some info := by
  obtain ⟨key, own, rfl⟩ := Store.setToken_eq_ok set
  rw [stored?_of_key own, Table.find?_insert, if_pos rfl]

theorem stored?_removeToken {store store' : Store}
    (removed : store.removeToken c.token c.args.service c.args.tokenName = .ok store') :
    c.stored? store' = none := by
  obtain ⟨key, own, rfl⟩ := Store.removeToken_eq_ok removed
  rw [stored?_of_key own, Table.find?_erase, if_pos rfl]

/-- The token that stands under the key of a call after some exchanges, if none was removed there:
the one that was issued last, where tokens are kept in the store, and else the one that the call
found. -/
def standing? (c : Call) (s : Surroundings) (sent : List Exchange) : Option String :=
  match c.policy.persistence with
  | .server => (latestIssued sent).or ((c.stored? s.store).map (·.token))
  | .client => (c.stored? s.store).map (·.token)

theorem standing?_of_server (server : c.policy.persistence = .server) :
    c.standing? s sent = (latestIssued sent).or ((c.stored? s.store).map (·.token)) := by
  rw [standing?, server]

theorem standing?_of_client (client : c.policy.persistence = .client) :
    c.standing? s sent = (c.stored? s.store).map (·.token) := by
  rw [standing?, client]

theorem standing?_of_none (none : latestIssued sent = none) :
    c.standing? s sent = (c.stored? s.store).map (·.token) := by
  rw [standing?, none, Option.none_or]
  split <;> rfl

theorem standing?_snoc_of_none (none : e.issued? = none) :
    c.standing? s (sent ++ [e]) = c.standing? s sent := by
  rw [standing?, standing?, latestIssued_snoc_of_none none]

/-- The declared access endpoint and the secret of the consumer allow for a signed request. -/
def SignsAccess (c : Call) (s : Surroundings) : Prop :=
  ∃ consumer bare placement, c.consumer s.store = .ok consumer ∧
    c.bareRequest .extension = .ok bare ∧ c.declaredPlacement .extension = .ok placement ∧
    placement.fits bare = true ∧ consumer.secret.HasRoom

/-- Where something was issued, the access endpoint has been asked. -/
theorem AllSigned.signsAccess (h : AllSigned c s sent) (issued : latestIssued sent = some token) :
    c.SignsAccess s := by
  obtain ⟨e, mem, issued⟩ := exists_issued issued
  obtain ⟨before, after, split⟩ := List.append_of_mem mem
  obtain ⟨g, of⟩ := h before e after split
  have forAccess : e.purpose = .accessToken ∨ e.purpose = .extension :=
    Decidable.byContradiction fun other => by
      rw [Exchange.issued?_of_purpose other] at issued
      cases issued
  have room : g.consumer.secret.HasRoom :=
    (Request.exists_signWith_iff (c := credentialsOf g.consumer g.bound)).1 ⟨_, of.signed⟩
  have bare := of.bare
  have placement := of.placement
  refine ⟨g.consumer, g.bare, g.placement, of.consumer, ?_, ?_, of.fits, room⟩
  · rcases forAccess with purpose | purpose <;> rw [purpose] at bare <;> exact bare
  · rcases forAccess with purpose | purpose <;> rw [purpose] at placement <;> exact placement

end Call
end DelegatedFetch
