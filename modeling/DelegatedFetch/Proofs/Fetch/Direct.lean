import DelegatedFetch.Proofs.Fetch.Rules

/-!
# The short way

A call that finds an access token which is still good needs no dance: it asks
for the resource, signed with that token, and for nothing else. Here the parts
of such a call are run one after the other, without a cache in the way.
-/

namespace DelegatedFetch.Call

open Step

variable {c : Call} {p : Progress} {a : Accessor} {signed : Request} {entropy : Entropy}
  {response : Response}

theorem get_bind_run {α : Type} (f : Progress → Step α) (p : Progress) :
    (get >>= f) p = f p p := rfl

theorem set_bind_run {α : Type} (q : Progress) (f : PUnit → Step α) (p : Progress) :
    (set q >>= f) p = f ⟨⟩ q := rfl

theorem now_bind_run {α : Type} (f : UInt64 → Step α) (p : Progress) :
    (now >>= f) p = f p.clock.millis p := rfl

/-- A check that is passed goes on. -/
theorem ok_bind_run {α β : Type} (b : β) (f : β → Step α) (p : Progress) :
    (ofExcept (.ok b) >>= f) p = f b p := rfl

/-- What comes of a reply for the part of a call that has sent the request. -/
def received : Except String Response → Except Stop Response
  | .ok response => .ok response
  | .error text => .error (.failed (.transport text))

theorem send_run (purpose : Purpose) (signed : Request) (p : Progress) :
    c.send purpose signed p =
      (received (c.replies p.sent.length).outcome, c.afterSend purpose signed p) := by
  rw [send, get_bind_run]
  simp only [set_bind_run]
  cases outcome : (c.replies p.sent.length).outcome with
  | ok response =>
    rw [afterSend, outcome]
    rfl
  | error text =>
    rw [afterSend, outcome]
    rfl

theorem sign_run {r : Request} {credentials : Credentials} {extra : Pairs} {placement : Placement}
    (signs : r.sign credentials extra placement p.clock p.entropy = (.ok signed, entropy)) :
    sign r credentials extra placement p = (.ok signed, { p with entropy }) := by
  rw [sign, get_bind_run, signs]
  rfl

/-- Without a cache, the resource is asked for. -/
theorem fetchResource_run (uncached : p.cache = none)
    (signs : c.request.sign a.credentials (c.identityPairs a) a.placement p.clock p.entropy =
      (.ok signed, entropy)) : c.fetchResource a p =
      (received (c.replies p.sent.length).outcome,
        c.afterSend .resource signed { p with entropy }) := by
  have key : c.cacheKey a p.cache = none := by
    rw [uncached]
    rfl
  have missed : cached? none p = (.ok none, p) := rfl
  rw [fetchResource, get_bind_run]
  simp only [key]
  rw [bind_run, missed]
  simp only
  rw [bind_run, sign_run signs]
  simp only
  rw [bind_run, send_run]
  dsimp only
  cases (c.replies p.sent.length).outcome with
  | ok response => rfl
  | error text => rfl

theorem fetchResource_run_answered (uncached : p.cache = none)
    (signs : c.request.sign a.credentials (c.identityPairs a) a.placement p.clock p.entropy =
      (.ok signed, entropy))
    (answered : (c.replies p.sent.length).outcome = .ok response) :
    c.fetchResource a p = (.ok response, c.afterSend .resource signed { p with entropy }) := by
  rw [fetchResource_run uncached signs, answered]
  rfl

/-- A resource that is there ends the attempt. -/
theorem deliver_run {p' : Progress} (recovered : Bool)
    (fetched : c.fetchResource a p = (.ok response, p'))
    (good : response.resourceFailure? a.hasAccessToken = none) :
    c.deliver recovered a p = (.ok (.done (some response)), p') := by
  rw [deliver, bind_run, fetched]
  simp only [good]
  rfl

/-- What is not known to have expired is used as it is, and so is all that a recovery has brought. -/
theorem refresh_run {recovered : Bool}
    (good : recovered = true ∨ a.isExpired p.clock.millis = false) :
    c.refresh recovered a p = (.ok a, p) := by
  have fresh : (!recovered && a.isExpired p.clock.millis) = false := by
    rcases good with rfl | good
    · rfl
    · exact Bool.and_eq_false_iff.2 (.inr good)
  rw [refresh, now_bind_run, fresh]
  rfl

/-- A token that is still good is used as it is, and so is any in a call that has recovered. -/
theorem attempt_run {info : TokenInfo} {source : TokenSource} (recovered : Bool)
    (kind : c.args.kind = .delegated)
    (built : Accessor.build p.store (c.arguments p) c.token c.services p.state = .ok a)
    (bound : a.token = .access info source)
    (good : recovered = true ∨ info.isExpired p.clock.millis = false) :
    c.attempt recovered p = c.deliver recovered a p := by
  have same : a.isExpired p.clock.millis = info.isExpired p.clock.millis := by
    rw [Accessor.isExpired_eq, bound]
    rfl
  rw [attempt, get_bind_run, built, ok_bind_run, kind]
  change c.delegatedFetch recovered a p = _
  rw [delegatedFetch, bind_run, refresh_run (same ▸ good)]
  simp only [bound]

/-- A call that finds an access token which is still good sends one request, signed with it. -/
theorem sent_of_found {s : Surroundings} {info : TokenInfo} {source : TokenSource}
    (kind : c.args.kind = .delegated) (clean : c.request.checkCaller = .ok ())
    (identity : c.checkIdentity = .ok ())
    (built : Accessor.build s.store c.args c.token c.services (c.incomingState s.clock.millis) =
      .ok a)
    (bound : a.token = .access info source) (good : info.isExpired s.clock.millis = false)
    (uncached : s.cache = none)
    (signs : c.request.sign a.credentials (c.identityPairs a) a.placement s.clock s.entropy =
      (.ok signed, entropy))
    (answered : (c.replies 0).outcome = .ok response)
    (there : response.resourceFailure? a.hasAccessToken = none) :
    (c.fetch s).2.sent = [⟨.resource, signed, some response⟩] := by
  have fetched := fetchResource_run_answered (p := c.begun s) uncached signs answered
  have attempted := (attempt_run (p := c.begun s) false kind built bound
    (.inr good)).trans (deliver_run false fetched there)
  have looped : c.loop false (c.begun s) =
      (.ok (some response), c.afterSend .resource signed { c.begun s with entropy }) := by
    rw [loop_eq, attempted]
  have ran : c.run (c.begun s) =
      (.ok (some response), c.afterSend .resource signed { c.begun s with entropy }) := by
    rw [run, clean, ok_bind_run, identity, ok_bind_run]
    exact looped
  obtain ⟨entropy', left⟩ := c.fetch_progress s
  rw [left, ran]
  change [Exchange.mk .resource signed (c.replies 0).outcome.toOption] = _
  rw [answered]
  rfl

/-- A call whose first attempt asks for another one, and which then finds an access token, sends one
more request, signed with it. -/
theorem sent_of_retried {s : Surroundings} {info : TokenInfo} {source : TokenSource}
    (kind : c.args.kind = .delegated) (clean : c.request.checkCaller = .ok ())
    (identity : c.checkIdentity = .ok ())
    (retried : c.attempt false (c.begun s) = (.ok .retry, p))
    (built : Accessor.build p.store (c.arguments p) c.token c.services p.state = .ok a)
    (bound : a.token = .access info source) (uncached : p.cache = none)
    (signs : c.request.sign a.credentials (c.identityPairs a) a.placement p.clock p.entropy =
      (.ok signed, entropy))
    (answered : (c.replies p.sent.length).outcome = .ok response)
    (there : response.resourceFailure? a.hasAccessToken = none) :
    (c.fetch s).2.sent = p.sent ++ [⟨.resource, signed, some response⟩] := by
  have fetched := fetchResource_run_answered uncached signs answered
  have attempted := (attempt_run true kind built bound (.inl rfl)).trans
    (deliver_run true fetched there)
  have ran : c.run (c.begun s) =
      (.ok (some response), c.afterSend .resource signed { p with entropy }) := by
    rw [run, clean, ok_bind_run, identity, ok_bind_run, loop_eq, retried]
    simp only
    rw [loop_eq, attempted]
  obtain ⟨entropy', left⟩ := c.fetch_progress s
  rw [left, ran]
  change p.sent ++ [Exchange.mk .resource signed (c.replies p.sent.length).outcome.toOption] = _
  rw [answered]
  rfl

end DelegatedFetch.Call
